import Medley.Proofs.Render.Steps

/-! Rendering one node at a time. Node lists that are still to be rendered stand on a stack, each
with the context and the scope it is rendered under. The first node of the first list is replaced
by the lists that it stands for, and nothing bounds how often that happens: content is put on the
stack wherever a value holds it. -/
namespace Medley

/-- A node list under its context and scope; `level` counts the templates around it. -/
structure Task where
  context : RenderContext
  level : Nat
  scope : Scope
  nodes : List (Node Value)

inductive Progress where
  | going (tasks : List Task) (world : World)
  | ended (result : Except Fault Unit) (world : World)

namespace Stage

def place (s : Stage) (c : RenderContext) (escape : Bool) (value : Run Value) :
    Run (List Task) := do
  match ← s.output? c value with
  | some (.fragment inner content scope) => return [⟨c, inner, scope, content⟩]
  | some v =>
      let text ← Run.ofExcept (outputText escape v)
      if text.isEmpty then return []
      else
        Run.emit s.sink (.value text)
        return []
  | none => return []

def layoutTask (c : RenderContext) (level : Nat) (scope : Scope) (line : Int) (props : Layer)
    (children : List (Node Value)) (t : Template) : Task :=
  let name := Value.layoutName props
  let content := Value.fragment level children (props :: scope)
  let scope := props :: [("content", content), ("$content", content)] :: scope
  match t.metadata.layout with
  | some parent =>
      if parent.isEmpty || parent = name then ⟨c.child name line, level + 1, scope, t.nodes⟩
      else ⟨c.child name line, level + 1, scope,
        [.layout ⟨line, 0⟩ (layoutProps t.metadata.frontmatter parent) t.nodes]⟩
  | none => ⟨c.child name line, level + 1, scope, t.nodes⟩

def refer (s : Stage) (c : RenderContext) (kind : Kind) (name : String) (alone : List Task)
    (inside : Template → Run (List Task)) : Run (List Task) := do
  if c.depthExceeded then
    s.exceeded c kind name
    return alone
  else match ← s.engine.resolve? kind name with
    | some t => inside t
    | none =>
        s.missing c kind name
        return alone

/- The node lists that a node stands for. -/
def plan (s : Stage) (c : RenderContext) (level : Nat) (scope : Scope) :
    Node Value → Run (List Task)
  | .text _ content => do
      if content.isEmpty then return []
      else
        Run.emit s.sink (.literal content)
        return []
  | .lookup _ path escape filters =>
      s.place c escape (s.applyFilters c scope filters (s.resolve scope path))
  | .call _ name args escape filters =>
      s.place c escape (s.applyHelper c scope name args >>= s.applyFilters c scope filters)
  | .cond _ condition children =>
      return if (s.resolve scope condition).truthy then [⟨c, level, scope, children⟩] else []
  | .each _ target binder children =>
      return match (s.resolve scope target).items? with
        | some items => items.mapIdx fun i item =>
            ⟨c, level, loopScope scope binder items.length i item, children⟩
        | none => []
  | .embed pos name props => s.refer c .embed name [] fun t => do
      let layer ← Run.ofExcept (props.mapM fun (key, token) =>
        (s.argument scope token).map fun v => (key, v))
      return [⟨c.child name pos.line, level, layer :: scope, t.nodes⟩]
  | .component pos name props children =>
      if name = Node.slotTag then return [⟨c, level, scope, children⟩]
      else s.refer c .component name [] fun t =>
        return [⟨c.child name pos.line, level + 1,
          componentLayer level props children scope :: scope, t.nodes⟩]
  | .layout pos props children =>
      s.refer c .layout (Value.layoutName props) [⟨c, level, props :: scope, children⟩] fun t =>
        return [layoutTask c level scope pos.line props children t]
  | .diagnostic _ code message _ => do
      Run.emit s.sink (.diagnostic code message)
      return []

def next (s : Stage) : Progress → Progress
  | .ended result w => .ended result w
  | .going [] w => .ended (.ok ()) w
  | .going (t :: tasks) w => match t.nodes with
    | [] => .going tasks w
    | n :: ns => match (s.plan t.context t.level t.scope n).on w with
      | (.ok more, w') => .going (more ++ { t with nodes := ns } :: tasks) w'
      | (.error fault, w') => .ended (.error fault) w'

def runTask (s : Stage) (t : Task) : Run Unit := s.nodes t.context t.level t.scope t.nodes

def runAll (s : Stage) : List Task → Run Unit
  | [] => pure ()
  | t :: ts => do
      s.runTask t
      s.runAll ts

variable {p : Policy} {s : Stage} {c : RenderContext} {level : Nat} {scope : Scope}

theorem runOne (t : Task) : s.runAll [t] = s.runTask t := by
  simp [runAll]

theorem writtenPlace (obeys : s.Obeys p) (debug : c.debug = s.engine.debug) {value : Run Value}
    (given : Run.Keeps (World.Obeys p) value fun v => v.Obeys p level) (escape : Bool) {w : World}
    (world : w.Obeys p) :
    (s.written c level escape value).on w = (s.place c escape value >>= s.runAll).on w := by
  obtain ⟨_, result⟩ := outputKeeps obeys c debug given w world
  rw [written, place, bind_assoc]
  cases same : (s.output? c value).on w with
  | mk answer w' =>
    rw [same] at result
    cases answer with
    | error fault => rw [Run.onBindError same, Run.onBindError same]
    | ok found =>
      rw [Run.onBindOk same, Run.onBindOk same]
      cases found with
      | none => rfl
      | some v =>
        have value' := result _ rfl v rfl
        cases v with
        | fragment inner content names =>
          -- the level in the content is what the renderer checks before it goes on
          obtain ⟨below, _⟩ := value'.content
          simp [below, runAll, runTask]
        | _ =>
          dsimp only
          rw [bind_assoc]
          congr 2
          funext text
          split <;> simp [runAll]

theorem eachTasks (binder : String) (children : List (Node Value)) (items : List Value)
    (length i : Nat) :
    s.each c level scope binder children length i items =
      s.runAll ((items.zipIdx i).map fun (item, i) =>
        ⟨c, level, loopScope scope binder length i item, children⟩) := by
  induction items generalizing i with
  | nil =>
    rw [each]
    rfl
  | cons item items ih =>
    rw [each, ih]
    rfl

theorem layoutAlone (pos : Position) (props : Layer) (children : List (Node Value)) :
    s.nodes c level scope [.layout pos props children] =
      s.layout c level scope pos.line props children := by
  rw [nodes, node, nodes]
  simp

theorem nodePlan (obeys : s.Obeys p) (debug : c.debug = s.engine.debug)
    (names : Scope.Obeys p level scope) (n : Node Value) {w : World} (world : w.Obeys p) :
    (s.node c level scope n).on w = (s.plan c level scope n >>= s.runAll).on w := by
  cases n with
  | text pos content =>
    rw [node, plan]
    split <;> simp [runAll]
  | lookup pos path escape filters =>
    rw [node, plan]
    exact writtenPlace obeys debug (applyFiltersKeep obeys c names filters
      (Value.resolveObeys _ names path)) escape world
  | call pos name args escape filters =>
    rw [node, plan]
    exact writtenPlace obeys debug ((applyHelperKeeps obeys c names name args).bind
      fun v given => applyFiltersKeep obeys c names filters given) escape world
  | cond pos condition children =>
    rw [node, plan]
    split <;> simp [runAll, runTask]
  | each pos target binder children =>
    rw [node, plan]
    cases (s.resolve scope target).items? with
    | some items =>
      simp only [pure_bind, eachTasks, List.mapIdx_eq_zipIdx_map]
    | none => simp [runAll]
  | embed pos name props =>
    rw [node, plan, refer]
    split
    · simp [runAll]
    · simp only [bind_assoc]
      congr 2
      funext found
      cases found with
      | none => simp [runAll]
      | some t => simp [runAll, runTask]
  | component pos name props children =>
    rw [node, plan, refer]
    split
    · simp [runAll, runTask]
    · split
      · simp [runAll]
      · simp only [bind_assoc]
        congr 2
        funext found
        cases found with
        | none => simp [runAll]
        | some t => simp [runAll, runTask]
  | layout pos props children =>
    rw [node, layout, plan, refer]
    dsimp only
    split
    · simp [runAll, runTask]
    · simp only [bind_assoc]
      congr 2
      funext found
      cases found with
      | none => simp [runAll, runTask]
      | some t =>
        simp only [pure_bind, runOne, runTask, layoutTask]
        cases t.metadata.layout with
        | none => rfl
        | some parent =>
          dsimp only
          split
          · rfl
          · rw [layoutAlone]
  | diagnostic pos code message source =>
    rw [node, plan]
    simp [runAll]

end Stage
end Medley
