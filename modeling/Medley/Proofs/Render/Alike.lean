import Medley.Proofs.Engine.Loading
import Medley.Proofs.Render.Calls

/-! Worlds that are alike: the same metadata and objects, and the same output but for chunks that
are not seen. Functions of the host program keep them alike where they cannot tell the two renders
apart, and references where the templates remembered in both stand for the same content. -/
namespace Medley

/- Functions of the host program make only what the property allows, of arguments and metadata that
it allows. -/
def Host.Keeps (h : Host) (P : Value → Prop) : Prop :=
  ∀ name args active entries n, (∀ a ∈ args, P a) → Layer.Each P entries →
    (∀ v, (h.call name args active entries n).1 = .ok v → P v) ∧
      Layer.Each P (h.call name args active entries n).2

/- Comments are on problems that a render ran into, or from diagnostics of a template. -/

def Chunk.isProblem : Chunk → Bool
  | .comment .. => true
  | .literal _ | .value _ | .diagnostic .. => false

def Chunk.isComment : Chunk → Bool
  | .comment .. | .diagnostic .. => true
  | .literal _ | .value _ => false

def Chunk.Seen (see : Chunk → Bool) (cs cs' : List Chunk) : Prop := cs = cs'.filter see

/-- Worlds with output that goes together. -/
structure World.Alike (S : List Chunk → List Chunk → Prop) (b : Bounds)
    (C : Cache → Cache → Prop) (w w' : World) : Prop where
  chunks : S w.chunks w'.chunks
  metadata : w'.metadata = w.metadata
  held : Layer.Each b.value w.metadata
  objects : w'.objects = w.objects
  caches : C w.cache w'.cache

variable {S : List Chunk → List Chunk → Prop} {see : Chunk → Bool} {b : Bounds}
  {C : Cache → Cache → Prop}

namespace Run

theorem emitSame (all : ∀ chunk, see chunk = true) (sink : Sink) (chunk : Chunk) :
    Matches (World.Alike (Chunk.Seen see) b C) (emit sink chunk) (emit sink chunk)
      fun _ _ => True := by
  intro w w' alike
  have chunks : w.chunks = w'.chunks :=
    alike.chunks.trans (List.filter_eq_self.mpr fun c _ => all c)
  unfold emit
  rw [onBindOk (onGet w), onBindOk (onGet w'), chunks]
  cases sink.refusal? w'.chunks.length chunk.text with
  | some fault => exact Matches.throw fault w w' alike
  | none =>
    have kept : (chunk :: w'.chunks).filter see = chunk :: w'.chunks :=
      List.filter_eq_self.mpr fun c _ => all c
    exact ⟨{ alike with chunks := kept.symm }, .ok trivial⟩

theorem emitPlain {chunk : Chunk} (step : ∀ cs cs', S cs cs' → S (chunk :: cs) (chunk :: cs')) :
    Matches (World.Alike S b C) (emit .plain chunk) (emit .plain chunk) fun _ _ => True :=
  fun _ _ alike => ⟨{ alike with chunks := step _ _ alike.chunks }, .ok trivial⟩

theorem emitHidden {chunk : Chunk} (hidden : see chunk = false) :
    Matches (World.Alike (Chunk.Seen see) b C) (pure ()) (emit .plain chunk) fun _ _ => True := by
  intro w w' alike
  refine ⟨{ alike with chunks := ?_ }, .ok trivial⟩
  have after : ((emit .plain chunk).on w').2.chunks = chunk :: w'.chunks := rfl
  rw [after, Chunk.Seen, List.filter_cons, if_neg (by simp [hidden])]
  exact alike.chunks

end Run

def Host.Blind (h : Host) (c c' : RenderContext) : Prop :=
  ∀ name args entries n,
    h.call name args (some c') entries n = h.call name args (some c) entries n

section
variable {h : Host} (keeps : h.Keeps b.value) {c c' : RenderContext} (blind : h.Blind c c')
include keeps blind

theorem Function.togetherAlike (closed : Value.Closed b.value) (t : Translator) :
    Function.Together (World.Inside (World.Alike S b C) c c') b h t t where
  logs w w' l inside :=
    ⟨⟨inside.related.chunks, inside.related.metadata, inside.related.held, inside.related.objects,
      inside.related.caches⟩, inside.left, inside.right⟩
  host name args given := by
    intro w w' inside
    have alike := inside.related
    obtain ⟨results, entries⟩ := keeps name args (some c) w.metadata w.objects given alike.held
    rw [Host.onApply h inside.left, Host.onApply h inside.right, alike.metadata, alike.objects,
      blind]
    exact ⟨⟨⟨alike.chunks, rfl, entries, rfl, alike.caches⟩, inside.left, inside.right⟩,
      .same results⟩
  translate w w' args inside given := by
    rw [inside.left.currentLocale, inside.right.currentLocale, inside.related.metadata]
    exact .same fun v found => translateHolds closed given found
  plural w w' args inside _ := by
    rw [inside.left.currentLocale, inside.right.currentLocale, inside.related.metadata]
    exact .same fun v found => pluralHolds closed found

theorem Function.applyAlike (closed : Value.Closed b.value) (law : Value.TakesEscaped b.value)
    (t : Translator) (f : Function) {args : List Value} (given : ∀ a ∈ args, b.value a) :
    Run.Matches (World.Alike S b C) (Run.within c (f.apply h t args))
      (Run.within c' (f.apply h t args)) b.Same :=
  .inside (fun _ _ _ _ alike =>
      ⟨alike.chunks, alike.metadata, alike.held, alike.objects, alike.caches⟩)
    (Function.applyTogether (togetherAlike keeps blind closed t) closed law f given)

end

/- References give the same in two engines as long as their caches go together, and then the
caches still do. -/
structure Engine.Alike (b : Bounds) (C : Cache → Cache → Prop) (e e' : Engine) : Prop where
  found : ∀ kind name c c', kind ≠ .page → b.name name → C c c' →
    Agree b.Found (e.resolved c kind name) (e'.resolved c' kind name)
  kept : ∀ kind name c c', kind ≠ .page → b.name name → C c c' →
    C (e.afterResolve c kind name) (e'.afterResolve c' kind name)

theorem Engine.alikeSame {e e' : Engine}
    (found : ∀ c kind name, e'.resolved c kind name = e.resolved c kind name)
    (kept : ∀ c kind name, e'.afterResolve c kind name = e.afterResolve c kind name) :
    e.Alike .all Eq e' where
  found kind name c _ _ _ same := by
    subst same
    rw [found]
    exact Bounds.allFound _
  kept kind name c _ _ _ same := by
    subst same
    exact (kept c kind name).symm

theorem Engine.Alike.resolve {e e' : Engine} (h : Engine.Alike b C e e') {kind : Kind}
    {name : String} (other : kind ≠ .page) (known : b.name name) :
    Run.Matches (World.Alike S b C) (e.resolve? kind name) (e'.resolve? kind name) b.Found := by
  intro w w' alike
  obtain ⟨logs, left⟩ := e.onResolve kind name w
  obtain ⟨logs', right⟩ := e'.onResolve kind name w'
  rw [left, right]
  exact ⟨⟨alike.chunks, alike.metadata, alike.held, alike.objects,
      h.kept kind name _ _ other known alike.caches⟩,
    h.found kind name _ _ other known alike.caches⟩

/- Engines with the same settings, but for what their templates are and whether they write
diagnostics. -/
structure Engine.Kin (e e' : Engine) : Prop where
  helpers : e'.helpers = e.helpers
  filters : e'.filters = e.filters
  translator : e'.translator = e.translator
  globals : e'.globals = e.globals
  maxDepth : e'.maxDepth = e.maxDepth

namespace Stage
variable {e e' : Engine} {h : Host}

theorem lockstepOf (closed : b.Closed) (keeps : h.Keeps b.value) (alike : e.Alike b C e')
    {E : RenderContext → RenderContext → Prop} (even : Even E) {sink : Sink}
    (blind : ∀ c c', E c c' → h.Blind c c') (helpers : e'.helpers = e.helpers)
    (filters : e'.filters = e.filters) (translator : e'.translator = e.translator)
    (plain : ∀ chunk : Chunk, chunk.isComment = false → Run.Matches (World.Alike S b C)
      (Run.emit sink chunk) (Run.emit sink chunk) fun _ _ => True)
    (comment : ∀ c c' code message, E c c' → Run.Matches (World.Alike S b C)
      (Stage.comment (.of e h sink) c code message) (Stage.comment (.of e' h sink) c' code message)
      fun _ _ => True)
    (diagnostic : ∀ pos code message source, b.node (.diagnostic pos code message source) →
      Run.Matches (World.Alike S b C) (Run.emit sink (.diagnostic code message))
        (Run.emit sink (.diagnostic code message)) fun _ _ => True) :
    Lockstep (World.Alike S b C) E b (.of e h sink) (.of e' h sink) where
  closed := closed
  contexts := even
  members := rfl
  space := rfl
  helpers name := by rw [Engine.helper?, Engine.helper?, helpers, filters]
  filters name := by rw [Engine.filter?, Engine.filter?, helpers, filters]
  logs w w' l l' same := ⟨same.chunks, same.metadata, same.held, same.objects, same.caches⟩
  literal text := plain _ rfl
  value text := plain _ rfl
  comment := comment
  diagnostic := diagnostic
  apply f c c' args related given := by
    dsimp only
    rw [translator]
    exact Function.applyAlike keeps (blind c c' related) closed.values closed.escaped _ f given
  resolve kind name other known := alike.resolve other known

def Beside (s s' : Stage) (c c' : RenderContext) : Prop :=
  c.debug = s.engine.debug ∧ c' = { c with debug := s'.engine.debug }

theorem besideEven (s s' : Stage) : Even (Beside s s') where
  room c c' beside := by
    rw [beside.2]
    rfl
  limit c c' beside := by
    rw [beside.2]
    exact .inl rfl
  child c c' name line beside := by
    obtain ⟨debug, rfl⟩ := beside
    exact ⟨debug, rfl⟩

theorem besideStart {s s' : Stage} (limit : s'.engine.maxDepth = s.engine.maxDepth)
    (page : Page) : Beside s s' (s.start page) (s'.start page) := by
  refine ⟨rfl, ?_⟩
  unfold start
  rw [limit]

section
variable (closed : b.Closed) (keeps : h.Keeps b.value) (kin : e.Kin e') (alike : e.Alike b C e')
include closed keeps kin alike

theorem lockstepSame (debug : e'.debug = e.debug) (sink : Sink) :
    Lockstep (World.Alike (Chunk.Seen fun _ => true) b C) (Beside (.of e h sink) (.of e' h sink)) b
      (.of e h sink) (.of e' h sink) := by
  have emits : ∀ chunk, Run.Matches (World.Alike (Chunk.Seen fun _ => true) b C)
      (Run.emit sink chunk) (Run.emit sink chunk) fun _ _ => True :=
    Run.emitSame (fun _ => rfl) sink
  have same : ∀ c c', Beside (.of e h sink) (.of e' h sink) c c' → c' = c := by
    intro c c' beside
    rw [beside.2, debug, ← beside.1]
  refine lockstepOf closed keeps alike (besideEven _ _) (fun c c' beside => ?_) kin.helpers
    kin.filters kin.translator (fun chunk _ => emits chunk) (fun c c' code message beside => ?_)
    fun _ code message _ _ => emits _
  · rw [same c c' beside]
    exact fun _ _ _ _ => rfl
  · rw [same c c' beside]
    unfold comment
    split
    · exact emits _
    · exact .pure trivial

/- The first render writes no comments on problems, and those of the second are not seen. -/
theorem lockstepQuiet (quiet : e.debug = false) (debug : e'.debug = true)
    (blind : ∀ c : RenderContext, h.Blind { c with debug := false } { c with debug := true }) :
    Lockstep (World.Alike (Chunk.Seen fun chunk => !chunk.isProblem) b C)
      (Beside (.of e h .plain) (.of e' h .plain)) b (.of e h .plain) (.of e' h .plain) := by
  have modes : ∀ c c', Beside (.of e h .plain) (.of e' h .plain) c c' →
      c = { c with debug := false } ∧ c' = { c with debug := true } := by
    rintro c c' ⟨off, rfl⟩
    exact ⟨by rw [← quiet, ← off], by rw [debug]⟩
  have emits : ∀ chunk : Chunk, chunk.isProblem = false → Run.Matches
      (World.Alike (Chunk.Seen fun chunk => !chunk.isProblem) b C)
      (Run.emit .plain chunk) (Run.emit .plain chunk) fun _ _ => True := by
    intro chunk seen
    refine Run.emitPlain fun cs cs' same => ?_
    rw [Chunk.Seen, List.filter_cons, if_pos (by rw [seen]; rfl), same]
  refine lockstepOf closed keeps alike (besideEven _ _) (fun c c' beside => ?_) kin.helpers
    kin.filters kin.translator (fun chunk other => emits chunk ?_)
    (fun c c' code message beside => ?_) fun _ _ _ _ _ => emits _ rfl
  · obtain ⟨off, on⟩ := modes c c' beside
    rw [on, off]
    exact blind c
  · cases chunk <;> first | rfl | cases other
  · obtain ⟨off, on⟩ := modes c c' beside
    rw [on, off]
    exact Run.emitHidden rfl

end

end Stage
end Medley
