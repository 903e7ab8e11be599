import Mathlib.Logic.Function.Iterate
import Medley.Proofs.Engine.Loading
import Medley.Proofs.Render.Plans

/-! Every render ends. Steps keep what a render obeys, so a list of nodes is carried out in
finitely many of them, however templates refer to each other and wherever they put content. -/
namespace Medley

def Progress.Obeys (p : Policy) (s : Stage) : Progress → Prop
  | .going tasks w => (∀ t ∈ tasks, t.Obeys p s) ∧ w.Obeys p
  | .ended _ w => w.Obeys p

/- One property of all that is still to be rendered, and one of the world. -/
def Progress.Each (T : Task → Prop) (P : World → Prop) : Progress → Prop
  | .going tasks w => (∀ t ∈ tasks, T t) ∧ P w
  | .ended _ w => P w

def Progress.past (tasks : List Task) : Except Fault Unit × World → Progress
  | (.ok _, w) => .going tasks w
  | (.error fault, w) => .ended (.error fault) w

namespace Stage

def Reaches (s : Stage) (a b : Progress) : Prop := ∃ k, s.next^[k] a = b

variable {p : Policy} {s : Stage}

theorem reachesSame (a : Progress) : s.Reaches a a := ⟨0, rfl⟩

theorem reachesStep {a b : Progress} (h : s.Reaches (s.next a) b) : s.Reaches a b := by
  obtain ⟨k, same⟩ := h
  exact ⟨k + 1, same⟩

theorem Reaches.trans {a b c : Progress} (first : s.Reaches a b) (second : s.Reaches b c) :
    s.Reaches a c := by
  obtain ⟨k, rfl⟩ := first
  obtain ⟨m, rfl⟩ := second
  exact ⟨m + k, Function.iterate_add_apply s.next m k a⟩

theorem nextKeeps {T : Task → Prop} {P : World → Prop}
    (plan : ∀ c level scope n ns, T ⟨c, level, scope, n :: ns⟩ → T ⟨c, level, scope, ns⟩ ∧
      Run.Keeps P (s.plan c level scope n) fun ts => ∀ t ∈ ts, T t)
    {a : Progress} (h : a.Each T P) : (s.next a).Each T P := by
  cases a with
  | ended result w => exact h
  | going tasks w =>
    obtain ⟨each, world⟩ := h
    cases tasks with
    | nil => exact world
    | cons t tasks =>
      have first := each t List.mem_cons_self
      have others := fun u member => each u (List.mem_cons_of_mem t member)
      obtain ⟨c, level, scope, nodes⟩ := t
      cases nodes with
      | nil => exact ⟨others, world⟩
      | cons n ns =>
        obtain ⟨after, keeps⟩ := plan c level scope n ns first
        obtain ⟨kept, result⟩ := keeps w world
        unfold next
        dsimp only
        cases carried : (s.plan c level scope n).on w with
        | mk answer w' =>
          rw [carried] at kept result
          cases answer with
          | error fault => exact kept
          | ok more =>
            refine ⟨fun u member => ?_, kept⟩
            rcases List.mem_append.mp member with new | old
            · exact result more rfl u new
            · rcases List.mem_cons.mp old with rfl | later
              · exact after
              · exact others u later

theorem stepsKeep {T : Task → Prop} {P : World → Prop}
    (plan : ∀ c level scope n ns, T ⟨c, level, scope, n :: ns⟩ → T ⟨c, level, scope, ns⟩ ∧
      Run.Keeps P (s.plan c level scope n) fun ts => ∀ t ∈ ts, T t)
    {a : Progress} (h : a.Each T P) (k : Nat) : (s.next^[k] a).Each T P := by
  induction k with
  | zero => exact h
  | succ k ih =>
    rw [Function.iterate_succ_apply']
    exact nextKeeps plan ih

theorem Reaches.obeys (obeys : s.Obeys p) {a b : Progress} (h : s.Reaches a b)
    (before : a.Obeys p s) : b.Obeys p s := by
  obtain ⟨k, rfl⟩ := h
  refine stepsKeep (T := Task.Obeys p s) (P := World.Obeys p)
    (fun c level scope n ns first => ⟨first.afterFirst, ?_⟩) before k
  exact (planKeeps obeys first).imp fun ts after t member => (after t member).1

theorem Reaches.bind {a : Progress} {rest rest' : List Task} {m : Run Unit} {f : Unit → Run Unit}
    {w : World} (first : s.Reaches a (.past rest (m.on w)))
    (second : ∀ w', m.on w = (.ok (), w') →
      s.Reaches (.going rest w') (.past rest' ((f ()).on w'))) :
    s.Reaches a (.past rest' ((m >>= f).on w)) := by
  refine first.trans ?_
  cases carried : m.on w with
  | mk answer w' =>
    cases answer with
    | error fault =>
      rw [Run.onBindError carried]
      exact reachesSame _
    | ok _ =>
      rw [Run.onBindOk carried]
      exact second w' carried

/- Whatever is to be rendered after it, the task is carried out first. -/
def Ends (p : Policy) (s : Stage) (t : Task) : Prop := ∀ rest w, (∀ u ∈ rest, Task.Obeys p s u) →
  w.Obeys p → s.Reaches (.going (t :: rest) w) (.past rest ((s.runTask t).on w))

theorem tasksEnd (obeys : s.Obeys p) {ts : List Task} (each : ∀ t ∈ ts, t.Obeys p s)
    (ends : ∀ t ∈ ts, s.Ends p t) {rest : List Task} (others : ∀ u ∈ rest, Task.Obeys p s u)
    {w : World} (world : w.Obeys p) :
    s.Reaches (.going (ts ++ rest) w) (.past rest ((s.runAll ts).on w)) := by
  induction ts generalizing w with
  | nil => exact reachesSame _
  | cons t ts ih =>
    have later := fun u member => each u (List.mem_cons_of_mem t member)
    have every : ∀ u ∈ ts ++ rest, Task.Obeys p s u := fun u member =>
      (List.mem_append.mp member).elim (later u) (others u)
    have first := ends t List.mem_cons_self (ts ++ rest) w every world
    have kept := first.obeys obeys
      ⟨List.forall_mem_cons.mpr ⟨each t List.mem_cons_self, every⟩, world⟩
    refine first.bind fun w' carried => ?_
    rw [carried] at kept
    exact ih later (fun u member => ends u (List.mem_cons_of_mem t member)) kept.2

theorem nodeEnds (obeys : s.Obeys p) {c : RenderContext} {level : Nat} {scope : Scope}
    {n : Node Value} {ns : List (Node Value)}
    (h : (Task.mk c level scope (n :: ns)).Obeys p s)
    (ends : ∀ t, t.Below ⟨c, level, scope, n :: ns⟩ → t.Obeys p s → s.Ends p t)
    {rest : List Task} (others : ∀ u ∈ rest, Task.Obeys p s u) {w : World} (world : w.Obeys p) :
    s.Reaches (.going (⟨c, level, scope, n :: ns⟩ :: rest) w)
      (.past (⟨c, level, scope, ns⟩ :: rest) ((s.node c level scope n).on w)) := by
  obtain ⟨kept, result⟩ := planKeeps obeys h w world
  apply reachesStep
  rw [nodePlan obeys h.context.debug h.names n world]
  unfold next
  dsimp only
  cases planned : (s.plan c level scope n).on w with
  | mk answer w' =>
    rw [planned] at kept result
    cases answer with
    | error fault =>
      rw [Run.onBindError planned]
      exact reachesSame _
    | ok more =>
      rw [Run.onBindOk planned]
      have after := result more rfl
      exact tasksEnd obeys (fun u member => (after u member).1)
        (fun u member => ends u (after u member).2 (after u member).1)
        (List.forall_mem_cons.mpr ⟨h.afterFirst, others⟩) kept

theorem taskEnds (obeys : s.Obeys p) (t : Task) (h : t.Obeys p s) : s.Ends p t := by
  -- on what can still be nested: the lists that a node stands for come before the node's own
  induction t using Task.belowWellFounded.induction with
  | _ t ih =>
    intro rest w others world
    obtain ⟨c, level, scope, nodes⟩ := t
    cases nodes with
    | nil =>
      apply reachesStep
      rw [runTask, Stage.nodes]
      exact reachesSame _
    | cons n ns =>
      have first := nodeEnds obeys h ih others world
      have kept := first.obeys obeys ⟨List.forall_mem_cons.mpr ⟨h, others⟩, world⟩
      rw [runTask, Stage.nodes]
      refine first.bind fun w' carried => ?_
      rw [carried] at kept
      exact ih _ (Task.belowRest n) h.afterFirst rest w' others kept.2

def opening (s : Stage) (page : Page) (values : Layer) (o : RenderOptions) : Task :=
  let c : RenderContext :=
    { templateName := page.name?, maxDepth := s.engine.maxDepth, debug := s.engine.debug }
  let scope : Scope := [[], values, s.engine.globals]
  match page.layout? o.layout with
  | none => ⟨c, 0, if page.data.isEmpty then scope else page.data :: scope, page.body⟩
  | some layout => ⟨c, 0, scope, [.layout .start (layoutProps page.data layout) page.body]⟩

/- A render before its first step; there is none where the sink or the page is refused. -/
def begin (s : Stage) (page : Page) (values : Layer) (o : RenderOptions) (w : World) : Progress :=
  match s.sink.unusable? <|> page.refusal? with
  | none => .going [s.opening page values o] { w with metadata := o.metadata }
  | some fault => .ended (.error fault) { w with metadata := o.metadata }

variable {page : Page} {values : Layer} {o : RenderOptions}

theorem pageRefused {fault : Fault} (refused : (s.sink.unusable? <|> page.refusal?) = some fault)
    (w : World) :
    (s.page page values o).on w = (.error fault, { w with metadata := o.metadata }) := by
  have changed : (modify fun w => { w with metadata := o.metadata } : Run Unit).on w =
      (.ok (), { w with metadata := o.metadata }) := rfl
  unfold Stage.page
  rw [Run.onBindOk changed, refused]
  rfl

theorem pageRuns (usable : (s.sink.unusable? <|> page.refusal?) = none) (w : World) :
    (s.page page values o).on w =
      (s.runTask (s.opening page values o)).on { w with metadata := o.metadata } := by
  have changed : (modify fun w => { w with metadata := o.metadata } : Run Unit).on w =
      (.ok (), { w with metadata := o.metadata }) := rfl
  unfold Stage.page runTask opening
  rw [Run.onBindOk changed, usable]
  cases page.layout? o.layout with
  | some layout => exact congrArg (Run.on · _) (layoutAlone _ _ _).symm
  | none => rfl

theorem openingObeys (obeys : s.Obeys p) (nodes : ∀ n ∈ page.body, n.Every p.node)
    (data : Layer.Plain page.data) (given : Layer.Plain values) :
    (s.opening page values o).Obeys p s := by
  have outer : Scope.Obeys p 0 [[], values, s.engine.globals] := by
    refine Scope.eachCons (List.forall_mem_nil _) ?_
    exact Scope.eachCons (plainLayer given) (Scope.eachCons (plainLayer obeys.globals)
      (List.forall_mem_nil _))
  have context : RenderContext.Within s
      { templateName := page.name?, maxDepth := s.engine.maxDepth, debug := s.engine.debug } :=
    ⟨rfl, rfl, rfl, Int.le_max_left 0 _⟩
  unfold opening
  dsimp only
  split
  · refine ⟨context, ?_, nodes⟩
    dsimp only
    split
    · exact outer
    · exact Scope.eachCons (plainLayer data) outer
  · refine ⟨context, outer, fun n member => ?_⟩
    rw [List.mem_singleton.mp member]
    exact .intro (obeys.fits.layout _ _ _ (setPropPlain data _ (.scalar rfl))) nodes

theorem beginObeys (obeys : s.Obeys p) (nodes : ∀ n ∈ page.body, n.Every p.node)
    (data : Layer.Plain page.data) (given : Layer.Plain values) {w : World} (world : w.Obeys p) :
    (s.begin page values o w).Obeys p s := by
  unfold begin
  split
  · refine ⟨fun t member => ?_, world.cached, world.chunks⟩
    rw [List.mem_singleton.mp member]
    exact openingObeys obeys nodes data given
  · exact ⟨world.cached, world.chunks⟩

theorem pageEnds (obeys : s.Obeys p) (nodes : ∀ n ∈ page.body, n.Every p.node)
    (data : Layer.Plain page.data) (given : Layer.Plain values) {w : World} (world : w.Obeys p) :
    s.Reaches (s.begin page values o w)
      (.ended ((s.page page values o).on w).1 ((s.page page values o).on w).2) := by
  unfold begin
  split
  · rename_i usable
    rw [pageRuns usable]
    have before : World.Obeys p { w with metadata := o.metadata } := ⟨world.cached, world.chunks⟩
    have ends := taskEnds obeys (s.opening page values o) (openingObeys obeys nodes data given)
    refine (ends [] _ (List.forall_mem_nil _) before).trans ?_
    cases (s.runTask (s.opening page values o)).on { w with metadata := o.metadata } with
    | mk answer w' =>
      cases answer with
      | error fault => exact reachesSame _
      | ok _ => exact reachesStep (reachesSame _)
  · rename_i fault refused
    rw [pageRefused refused]
    exact reachesSame _

end Stage

def Node.PlainProps (n : Node Value) : Prop := Layer.Plain n.props

def Policy.data : Policy := ⟨fun _ => True, Node.PlainProps, fun _ => True, fun _ plain => plain⟩

namespace Policy

theorem commonPlain (debug : Bool) : Common debug Node.PlainProps :=
  .ofOther (fun _ plain _ _ => plain) fun _ _ _ _ _ => List.forall_mem_nil _

theorem dataFits (debug : Bool) : Policy.data.Fits debug where
  escaped := ⟨fun _ => trivial, fun _ _ _ => trivial⟩
  layout _ _ _ plain := plain
  literal _ _ _ _ := trivial
  lookup _ _ _ _ _ _ _ _ _ _ _ _ := trivial
  call _ _ _ _ _ _ _ _ _ _ _ _ _ := trivial
  diagnostic _ _ _ _ _ := trivial
  comment _ _ _ := trivial

end Policy

theorem Engine.fetchEvery {e : Engine} {q : Node Value → Prop} (common : Common e.debug q)
    {kind : Kind} {name : String} {t : Template} (found : e.fetch kind name = .ok t) :
    t.Every q := by
  obtain ⟨issues, o, source, same, read⟩ := fetchRead found
  rw [← same] at common
  exact Template.readEvery common read

namespace Stage

/-- Every render comes to an end, which is what the page gives, whatever the limit is and however
templates refer to each other; until then every node list that is rendered stands as deep as its
chain is long, within the limit. -/
theorem rendersEnd (s : Stage) (page : Page) (values : Layer) (o : RenderOptions) (w : World)
    (host : s.host.Returns) (globals : Layer.Plain s.engine.globals)
    (registered : ∀ kind, ∀ e ∈ s.engine.registered.ofKind kind, e.2.Every Node.PlainProps)
    (cached : ∀ e ∈ w.cache.entries, e.2.Every Node.PlainProps)
    (nodes : ∀ n ∈ page.body, n.Every Node.PlainProps) (data : Layer.Plain page.data)
    (given : Layer.Plain values) :
    (∃ k, s.next^[k] (s.begin page values o w) =
        .ended ((s.page page values o).on w).1 ((s.page page values o).on w).2) ∧
      ∀ k tasks w', s.next^[k] (s.begin page values o w) = .going tasks w' → ∀ t ∈ tasks,
        t.context.depth = t.context.stack.length ∧
          t.context.depth ≤ max 0 s.engine.maxDepth := by
  have obeys : s.Obeys Policy.data := ⟨Policy.dataFits _, registered,
    fun _ _ _ found => Engine.fetchEvery (Policy.commonPlain _) found, globals,
    fun _ _ _ _ _ => host⟩
  have world : w.Obeys Policy.data := ⟨cached, fun _ _ => trivial⟩
  refine ⟨pageEnds obeys nodes data given world, fun k tasks w' there t member => ?_⟩
  have reached : s.Reaches (s.begin page values o w) (.going tasks w') := ⟨k, there⟩
  obtain ⟨each, _⟩ := reached.obeys obeys (beginObeys obeys nodes data given world)
  have context := (each t member).context
  exact ⟨context.chain, context.limit ▸ context.bound⟩

def echoHost : Host where
  call _ args _ entries _ := (.ok (args.head?.getD .null), entries)
  isDeferred _ := false
  utc := ⟨⟨2024, 1, 1⟩, 0, 0, 0, 0, some 0⟩
  plain := ⟨⟨2024, 1, 1⟩, 0, 0, 0, 0, none⟩

theorem echoReturns : echoHost.Returns := by
  intro name args active entries n v given
  cases args with
  | nil =>
    cases given
    exact .inl (.scalar rfl)
  | cons a args =>
    cases given
    exact .inr List.mem_cons_self

def nestedNodes : List (Node Value) :=
  [.component .start "Box" [("n", .int 1)] [.lookup .start "children" true []],
    .call .start "same" ["$children"] true []]

theorem nestedPlain : ∀ n ∈ nestedNodes, n.Every Node.PlainProps := by
  have nothing : Layer.Plain [] := List.forall_mem_nil _
  intro n member
  simp only [nestedNodes, List.mem_cons, List.not_mem_nil, or_false] at member
  rcases member with rfl | rfl
  · refine .intro (fun e member => ?_) fun m inside => ?_
    · rw [List.mem_singleton.mp member]
      exact .scalar rfl
    · rw [List.mem_singleton.mp inside]
      exact .intro nothing (List.forall_mem_nil _)
  · exact .intro nothing (List.forall_mem_nil _)

def nestedStage : Stage where
  engine :=
    { maxDepth := 2
      debug := true
      helpers := [("same", .host "same")]
      registered.components := [("Box", ⟨nestedNodes, .of nestedNodes [] none, "Box", none⟩)] }
  host := echoHost
  sink := .plain

theorem nestedEnds : nestedStage.host.Returns ∧
    (∃ k, nestedStage.next^[k] (nestedStage.begin (.nodes nestedNodes) [("x", .text "y")] {} {}) =
        .ended ((nestedStage.page (.nodes nestedNodes) [("x", .text "y")] {}).on {}).1
          ((nestedStage.page (.nodes nestedNodes) [("x", .text "y")] {}).on {}).2) ∧
      ∀ k tasks w', nestedStage.next^[k] (nestedStage.begin (.nodes nestedNodes)
          [("x", .text "y")] {} {}) = .going tasks w' → ∀ t ∈ tasks,
        t.context.depth = t.context.stack.length ∧ t.context.depth ≤ max 0 2 := by
  have nothing : Layer.Plain [] := List.forall_mem_nil _
  refine ⟨echoReturns, rendersEnd nestedStage (.nodes nestedNodes) [("x", .text "y")] {} {}
    echoReturns nothing (fun kind e member => ?_) (List.forall_mem_nil _)
    nestedPlain nothing fun e member => ?_⟩
  · cases kind with
    | component =>
      rw [List.mem_singleton.mp member]
      exact ⟨nestedPlain, nothing⟩
    | _ => exact absurd member List.not_mem_nil
  · rw [List.mem_singleton.mp member]
    exact .scalar rfl

end Stage
end Medley
