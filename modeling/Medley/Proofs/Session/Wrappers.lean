import Medley.Proofs.Render.Halting
import Medley.Proofs.Render.Wrapping
import Medley.Proofs.Session.Uncached

/-! Wrappers leave their content alone. A component or a layout that is text around its content adds
its own text and nothing else: what is inside is rendered as it would be rendered where it stands,
in an environment that nests one template less. -/
namespace Medley

def Page.withData (data : Layer) (ns : List (Node Value)) : Page :=
  .template ⟨ns, .of ns data none, none, none⟩

namespace Session

def limited (s : Session) (limit : Int) : Session := { s with engine := s.engine.limited limit }

def registering (s : Session) (kind : Kind) (name source : String) : Session :=
  (s.act (.register kind name source)).2

theorem registeringRead (s : Session) (kind : Kind) {name source : String} {t : Template}
    (read : s.engine.read source (some name) none = .ok t) :
    s.registering kind name source = { s with engine := s.engine.register kind name t } := by
  have acted : s.registering kind name source =
      (s.registerResult kind name (s.engine.read source (some name) none)).2 := rfl
  rw [acted, read]
  rfl

/- A source has been registered, and everything else is as it was. -/
structure Adds (s s' : Session) (kind : Kind) (name source : String) : Prop where
  debug : s'.engine.debug = s.engine.debug
  cache : s'.cache = s.cache
  registers : s'.engine.Registers kind name source
  kept : ∀ kind' name' source', kind' ≠ kind ∨ name' ≠ name →
    s.engine.Registers kind' name' source' → s'.engine.Registers kind' name' source'
  elsewhere : ∀ kind' name', kind' ≠ kind ∨ name' ≠ name →
    ∀ c, s'.engine.resolved c kind' name' = s.engine.resolved c kind' name'

theorem registeringAdds (s : Session) {kind : Kind} (other : kind ≠ .page) {name source : String}
    {t : Template} (read : s.engine.read source (some name) none = .ok t) :
    s.Adds (s.registering kind name source) kind name source := by
  rw [s.registeringRead kind read]
  exact ⟨rfl, rfl, Engine.registersNew other read, fun _ _ _ apart h => h.kept apart,
    fun _ _ apart => Engine.resolvedRegister apart⟩

variable {s : Session} {a b : String}

theorem registersWrapper (s : Session) {kind : Kind} (other : kind ≠ .page) (path : String)
    (named : Token.isName path.toList = true) (bareA : Template.Bare a) (bareB : Template.Bare b)
    (name : String) : ∃ t e, t.Wraps path a b ∧
      s.registering kind name (Template.around a path b) = { s with engine := e } ∧
      e.debug = s.engine.debug ∧ (e.registered.ofKind kind).lookup name = some t := by
  obtain ⟨out, found, wraps⟩ := Template.readWraps named bareA bareB
    { name := some name, filename := none, debug := s.engine.debug }
  have read : s.engine.read (Template.around a path b) (some name) none = .ok out.template :=
    congrArg (Except.map Template.Outcome.template) found
  obtain ⟨t, made, known⟩ := Engine.registersNew other read
  obtain rfl := Except.ok.inj (read.symm.trans made)
  exact ⟨out.template, _, wraps, s.registeringRead kind read, rfl, known⟩

theorem nodesOutput (s : Session) (limit : Int) (ns : List (Node Value)) (values : Layer)
    {o : RenderOptions} (alone : o.layout = none) :
    ((s.limited limit).render (.nodes ns) values o .plain).1.output =
      ((Stage.limited s.engine s.host limit).nodes { maxDepth := limit, debug := s.engine.debug } 0
        [[], values, s.engine.globals] ns).output
        { metadata := o.metadata, cache := s.cache, objects := s.objects } := by
  rw [renderOutput, Stage.pageOutput rfl rfl (by rw [alone]; rfl)]
  rfl

theorem withDataOutput (s : Session) (limit : Int) {data : Layer} (more : data.isEmpty = false)
    (ns : List (Node Value)) (values : Layer) {o : RenderOptions} (alone : o.layout = none) :
    ((s.limited limit).render (.withData data ns) values o .plain).1.output =
      ((Stage.limited s.engine s.host limit).nodes { maxDepth := limit, debug := s.engine.debug } 0
        (data :: [[], values, s.engine.globals]) ns).output
        { metadata := o.metadata, cache := s.cache, objects := s.objects } := by
  have scope : Stage.outermost ((s.limited limit).stage .plain) (.withData data ns) values =
      data :: [[], values, s.engine.globals] := by
    unfold Stage.outermost
    rw [if_neg (by simpa [Page.data, Page.withData, Metadata.of] using more)]
    rfl
  rw [renderOutput, Stage.pageOutput rfl rfl (by rw [alone]; rfl)]
  exact congrArg (fun scope => (Stage.nodes _ _ 0 scope _).output _) scope

section
variable (normal : s.engine.debug = false) (aloof : s.host.Aloof) (bareA : Template.Bare a)
  (bareB : Template.Bare b) (n : Nat) (ns : List (Node Value)) (values : Layer)
  {o : RenderOptions} (alone : o.layout = none)

include normal in
/- Inside one template there is as much room as outside with a limit of one less. -/
theorem innerLevel {e : Engine} (debug : e.debug = s.engine.debug) (name : String) (line : Int) :
    RenderContext.Level
      (RenderContext.child { maxDepth := (n : Int) + 1, debug := e.debug } name line)
      { maxDepth := n, debug := e.debug } := by
  refine ⟨debug.trans normal, debug.trans normal, ?_⟩
  simp only [RenderContext.child]
  omega

include normal aloof bareA bareB alone

theorem childrenUntouched (pos : Position) (props : Layer) :
    (((s.registering .component "Box" (Template.around a "$children" b)).limited (n + 1)).render
        (.nodes [.component pos "Box" props ns]) values o .plain).1.output =
      (((s.registering .component "Box" (Template.around a "$children" b)).limited n).render
        (.nodes ns) values o .plain).1.output.map fun text => a ++ (text ++ b) := by
  obtain ⟨t, e, wraps, same, debug, found⟩ :=
    registersWrapper s (by decide : Kind.component ≠ .page) "$children" (by decide) bareA bareB "Box"
  rw [same, nodesOutput _ _ _ values alone, nodesOutput _ _ _ values alone, Stage.nodesSingle,
    Stage.nodeComponent (t := t) (by decide) ?_ ?_]
  · exact Stage.wrapsOutput aloof wraps (innerLevel normal n debug _ _)
      (Stage.resolveChildren props ns) Nat.one_pos rfl
  · simp only [RenderContext.depthExceeded, decide_eq_false_iff_not]
    omega
  · exact Engine.resolveRegistered found _

theorem bodyUntouched (pos : Position) {f : Layer} (free : f.lookup "content" = none) :
    (((s.registering .layout "wrap" (Template.around a "content" b)).limited (n + 1)).render
        (.nodes [.layout pos (Stage.layoutProps f "wrap") ns]) values o .plain).1.output =
      (((s.registering .layout "wrap" (Template.around a "content" b)).limited n).render
        (.withData (Stage.layoutProps f "wrap") ns) values o .plain).1.output.map
          fun text => a ++ (text ++ b) := by
  obtain ⟨t, e, wraps, same, debug, found⟩ :=
    registersWrapper s (by decide : Kind.layout ≠ .page) "content" (by decide) bareA bareB "wrap"
  have own : (Stage.layoutProps f "wrap").lookup "content" = none := by
    rw [Stage.layoutProps, lookupSetPropOther f (by decide), free]
  have more : (Stage.layoutProps f "wrap").isEmpty = false := Stage.setPropSome ..
  rw [same, nodesOutput _ _ _ values alone, withDataOutput _ _ more _ values alone,
    Stage.nodesSingle, Stage.nodeLayout (t := t) ?_ wraps.layout ?_]
  · exact Stage.wrapsOutput aloof wraps (innerLevel normal n debug _ _)
      (Stage.resolveContent own ns) Nat.one_pos rfl
  · simp only [RenderContext.depthExceeded, decide_eq_false_iff_not]
    omega
  · rw [Stage.layoutNameProps]
    exact Engine.resolveRegistered found _

/-- Children and the body of a page are rendered in the scope they stand in, whatever the props of
what they are wrapped in. -/
theorem contentUntouched :
    (∀ (pos : Position) (props : Layer),
      (((s.registering .component "Box" (Template.around a "$children" b)).limited (n + 1)).render
          (.nodes [.component pos "Box" props ns]) values o .plain).1.output =
        (((s.registering .component "Box" (Template.around a "$children" b)).limited n).render
          (.nodes ns) values o .plain).1.output.map fun text => a ++ (text ++ b)) ∧
      ∀ (pos : Position) (f : Layer), f.lookup "content" = none →
        (((s.registering .layout "wrap" (Template.around a "content" b)).limited (n + 1)).render
            (.nodes [.layout pos (Stage.layoutProps f "wrap") ns]) values o .plain).1.output =
          (((s.registering .layout "wrap" (Template.around a "content" b)).limited n).render
            (.withData (Stage.layoutProps f "wrap") ns) values o .plain).1.output.map
              fun text => a ++ (text ++ b) :=
  ⟨childrenUntouched normal aloof bareA bareB n ns values alone,
    fun pos _ free => bodyUntouched normal aloof bareA bareB n ns values alone pos free⟩

end

def boxedNodes : List (Node Value) :=
  [.lookup .start "title" true [], .component .start "Box" [("title", .text "inner")] []]

theorem boxedUntouched :
    let s : Session := { engine := {}, host := Stage.echoHost }
    let boxes := s.registering .component "Box" (Template.around "[" "$children" "]")
    let pages := s.registering .layout "wrap" (Template.around "(" "content" ")")
    let values : Layer := [("title", .text "outer")]
    ((boxes.limited 2).render (.nodes [.component .start "Box" [("title", .text "own")] boxedNodes])
          values {} .plain).1.output =
        ((boxes.limited 1).render (.nodes boxedNodes) values {} .plain).1.output.map
          (fun text => "[" ++ (text ++ "]")) ∧
      ((pages.limited 2).render
          (.nodes [.layout .start (Stage.layoutProps [("title", .text "page")] "wrap") boxedNodes])
          values {} .plain).1.output =
        ((pages.limited 1).render
          (.withData (Stage.layoutProps [("title", .text "page")] "wrap") boxedNodes)
          values {} .plain).1.output.map fun text => "(" ++ (text ++ ")") := by
  have aloof : Stage.echoHost.Aloof := fun _ _ _ _ _ _ => rfl
  have boxes := contentUntouched (s := { engine := {}, host := Stage.echoHost }) (a := "[")
    (b := "]") rfl aloof (by decide) (by decide) 1 boxedNodes [("title", .text "outer")] (o := {})
    rfl
  have pages := contentUntouched (s := { engine := {}, host := Stage.echoHost }) (a := "(")
    (b := ")") rfl aloof (by decide) (by decide) 1 boxedNodes [("title", .text "outer")] (o := {})
    rfl
  exact ⟨boxes.1 .start [("title", .text "own")],
    pages.2 .start [("title", .text "page")] (by decide)⟩

end Session
end Medley
