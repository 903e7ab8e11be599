import Medley.Proofs.Render.Alike

/-! Renders in the same contexts that put out the same, whatever else there is to tell them apart:
their metadata, the objects made so far, the templates remembered. Functions of the host program
have to give the same from either, and translations have to find the same texts. -/
namespace Medley

structure World.Paired (M : Meta → Meta → Prop) (O : Nat → Nat → Prop) (C : Cache → Cache → Prop)
    (w w' : World) : Prop where
  chunks : w'.chunks = w.chunks
  metadata : M w.metadata w'.metadata
  objects : O w.objects w'.objects
  caches : C w.cache w'.cache

/-- Functions of the host program give the same from what is paired, and leave it paired. -/
structure Host.Pairs (h : Host) (M : Meta → Meta → Prop) (O : Nat → Nat → Prop) : Prop where
  counts : ∀ n n', O n n' → O (n + 1) (n' + 1)
  answers : ∀ name args active m m' n n', M m m' → O n n' →
    (h.call name args active m' n').1 = (h.call name args active m n).1 ∧
      M (h.call name args active m n).2 (h.call name args active m' n').2

structure Translator.Pairs (t t' : Translator) (M : Meta → Meta → Prop) : Prop where
  translate : ∀ m m' args, M m m' →
    Function.translateArgs t' m'.locale args = Function.translateArgs t m.locale args
  plural : ∀ m m' args, M m m' →
    Function.pluralArgs t' m'.locale args = Function.pluralArgs t m.locale args

variable {M : Meta → Meta → Prop} {O : Nat → Nat → Prop} {C : Cache → Cache → Prop}

namespace Run

theorem emitPaired (sink : Sink) (chunk : Chunk) :
    Matches (World.Paired M O C) (emit sink chunk) (emit sink chunk) fun _ _ => True := by
  intro w w' paired
  unfold emit
  rw [onBindOk (onGet w), onBindOk (onGet w'), paired.chunks]
  cases sink.refusal? w.chunks.length chunk.text with
  | some fault => exact ⟨paired, .error fault⟩
  | none => exact ⟨⟨rfl, paired.metadata, paired.objects, paired.caches⟩, .ok trivial⟩

theorem resolvePaired {e e' : Engine} (alike : e.Alike .all C e') {kind : Kind}
    (other : kind ≠ .page) (name : String) :
    Matches (World.Paired M O C) (e.resolve? kind name) (e'.resolve? kind name)
      Bounds.all.Found := by
  intro w w' paired
  obtain ⟨logs, left⟩ := e.onResolve kind name w
  obtain ⟨logs', right⟩ := e'.onResolve kind name w'
  rw [left, right]
  exact ⟨⟨paired.chunks, paired.metadata, paired.objects,
      alike.kept kind name _ _ other trivial paired.caches⟩,
    alike.found kind name _ _ other trivial paired.caches⟩

end Run

theorem Function.togetherPaired {h : Host} {t t' : Translator} (host : h.Pairs M O)
    (translator : t.Pairs t' M) (c : RenderContext) :
    Function.Together (World.Inside (World.Paired M O C) c c) .all h t t' where
  logs w w' l inside :=
    ⟨⟨inside.related.chunks, inside.related.metadata, inside.related.objects,
      inside.related.caches⟩, inside.left, inside.right⟩
  host name args _ := by
    intro w w' inside
    have paired := inside.related
    obtain ⟨same, after⟩ := host.answers name args (some c) _ _ _ _ paired.metadata paired.objects
    rw [Host.onApply h inside.left, Host.onApply h inside.right]
    refine ⟨⟨⟨paired.chunks, after, host.counts _ _ paired.objects, paired.caches⟩, inside.left,
      inside.right⟩, ?_⟩
    rw [same]
    exact .same fun _ _ => trivial
  translate w w' args inside _ := by
    rw [inside.left.currentLocale, inside.right.currentLocale,
      translator.translate _ _ args inside.related.metadata]
    exact .same fun _ _ => trivial
  plural w w' args inside _ := by
    rw [inside.left.currentLocale, inside.right.currentLocale,
      translator.plural _ _ args inside.related.metadata]
    exact .same fun _ _ => trivial

namespace Stage

theorem equalEven : Even Eq where
  room _ _ same := same ▸ rfl
  limit _ _ same := .inl (same ▸ rfl)
  child _ _ _ _ same := same ▸ rfl

theorem lockstepPaired {e e' : Engine} {h : Host} (sink : Sink) (host : h.Pairs M O)
    (translator : e.translator.Pairs e'.translator M) (alike : e.Alike .all C e')
    (helpers : e'.helpers = e.helpers) (filters : e'.filters = e.filters) :
    Lockstep (World.Paired M O C) Eq .all (.of e h sink) (.of e' h sink) where
  closed := Bounds.allClosed
  contexts := equalEven
  members := rfl
  space := rfl
  helpers name := by rw [Engine.helper?, Engine.helper?, helpers, filters]
  filters name := by rw [Engine.filter?, Engine.filter?, helpers, filters]
  logs w w' l l' paired := ⟨paired.chunks, paired.metadata, paired.objects, paired.caches⟩
  literal text := Run.emitPaired sink _
  value text := Run.emitPaired sink _
  comment c c' code message same := by
    subst same
    unfold comment
    split
    · exact Run.emitPaired sink _
    · exact .pure trivial
  diagnostic pos code message source _ := Run.emitPaired sink _
  apply f c c' args same given := by
    subst same
    exact .inside (fun _ _ _ _ paired => ⟨paired.chunks, paired.metadata, paired.objects,
        paired.caches⟩)
      (Function.applyTogether (Function.togetherPaired host translator c)
        Bounds.allClosed.values Bounds.allClosed.escaped f given)
  resolve kind name other _ := Run.resolvePaired alike other name

/- Paired renders of a page fail alike and put out the same. -/
theorem pagePaired {e e' : Engine} {h : Host} (sink : Sink) (host : h.Pairs M O)
    (translator : e.translator.Pairs e'.translator M) (alike : e.Alike .all C e')
    (helpers : e'.helpers = e.helpers) (filters : e'.filters = e.filters)
    (globals : e'.globals = e.globals) (limit : e'.maxDepth = e.maxDepth)
    (debug : e'.debug = e.debug) (page : Page) (values : Layer) (o o' : RenderOptions)
    (layout : o'.layout = o.layout) (w w' : World)
    (paired : World.Paired M O C { w with metadata := o.metadata }
      { w' with metadata := o'.metadata }) :
    ((Stage.page (.of e' h sink) page values o').on w').1 =
        ((Stage.page (.of e h sink) page values o).on w).1 ∧
      World.Paired M O C ((Stage.page (.of e h sink) page values o).on w).2
        ((Stage.page (.of e' h sink) page values o').on w').2 := by
  have pair := lockstepPaired sink host translator alike helpers filters
  have even : start (.of e h sink) page = start (.of e' h sink) page := by
    unfold start
    rw [limit, debug]
  obtain ⟨after, results⟩ := pagesMatch pair page even globals rfl values layout
    (fun _ _ => trivial) (fun _ _ => trivial) (fun _ _ => trivial) (fun _ _ => trivial)
    (fun _ _ => trivial) w w' paired
  exact ⟨(results.imp fun _ _ _ => rfl).eq, after⟩

end Stage
end Medley
