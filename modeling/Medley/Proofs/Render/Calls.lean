import Medley.Proofs.Helper.Results
import Medley.Proofs.Render.Lockstep

/-! Functions in the context of a node. While it is active, the metadata that a function reads and
changes is that of the render. Functions go together in two worlds where those of the host program
do and where translations find the same text. -/
namespace Medley

namespace World

def At (c : RenderContext) (w : World) : Prop := w.contexts.current? = some ⟨c, w.family⟩

variable {c : RenderContext} {w : World}

theorem atEnter (c : RenderContext) (w : World) : (w.enter c).At c := rfl

theorem At.activeContext (h : w.At c) : w.activeContext? = some c := by
  rw [activeContext?, h]
  rfl

theorem At.activeMeta (h : w.At c) : w.activeMeta = w.metadata := by
  rw [World.activeMeta, h]
  exact if_pos rfl

theorem At.withActiveMeta (h : w.At c) (entries : Meta) :
    w.withActiveMeta entries = { w with metadata := entries } := by
  rw [World.withActiveMeta, h]
  exact if_pos rfl

theorem At.currentLocale (h : w.At c) : Function.currentLocale w = w.metadata.locale := by
  rw [Function.currentLocale, h.activeMeta]

structure Inside (R : World → World → Prop) (c c' : RenderContext) (w w' : World) : Prop where
  related : R w w'
  left : w.At c
  right : w'.At c'

end World

theorem Run.Matches.inside {α β : Type} {R : World → World → Prop} {Q : α → β → Prop}
    {c c' : RenderContext} {m : Run α} {m' : Run β}
    (around : ∀ w w' k k', R w w' → R { w with contexts := k } { w' with contexts := k' })
    (h : Matches (World.Inside R c c') m m' Q) : Matches R (Run.within c m) (Run.within c' m') Q :=
  .within (fun w w' related => ⟨around _ _ _ _ related, w.atEnter c, w'.atEnter c'⟩)
    (fun _ _ inside => around _ _ _ _ inside.related) h

/- A function of the host program does nothing but to change the metadata of the render and to make
an object. -/
theorem Host.onApply (h : Host) {c : RenderContext} {w : World} (active : w.At c) (name : String)
    (args : List Value) :
    (h.apply name args).on w =
      ((h.call name args (some c) w.metadata w.objects).1,
        { w with
          metadata := (h.call name args (some c) w.metadata w.objects).2
          objects := w.objects + 1 }) := by
  unfold apply
  rw [Run.onBindOk (Run.onGet w), active.activeContext, active.activeMeta]
  cases h.call name args (some c) w.metadata w.objects with
  | mk answer entries =>
    have changed : (set { w.withActiveMeta entries with objects := w.objects + 1 } : Run Unit).on w =
        (.ok (), { w.withActiveMeta entries with objects := w.objects + 1 }) := rfl
    dsimp only
    rw [Run.onBindOk changed, active.withActiveMeta]
    cases answer <;> rfl

/-- What functions are made of goes together. -/
structure Function.Together (R : World → World → Prop) (b : Bounds) (h : Host)
    (t t' : Translator) : Prop where
  logs : ∀ w w' l, R w w' → R { w with logs := l :: w.logs } { w' with logs := l :: w'.logs }
  host : ∀ name args, (∀ a ∈ args, b.value a) →
    Run.Matches R (h.apply name args) (h.apply name args) b.Same
  translate : ∀ w w' args, R w w' → (∀ a ∈ args, b.value a) →
    Agree b.Same (translateArgs t (currentLocale w) args) (translateArgs t' (currentLocale w') args)
  plural : ∀ w w' args, R w w' → (∀ a ∈ args, b.value a) →
    Agree b.Same (pluralArgs t (currentLocale w) args) (pluralArgs t' (currentLocale w') args)

section
variable {R : World → World → Prop} {b : Bounds} {h : Host} {t t' : Translator}
  (together : Function.Together R b h t t')
include together

theorem Host.holdsTogether (name : String) {v : Value} (given : b.value v) :
    Run.Matches R (h.holds name v) (h.holds name v) Eq := by
  unfold holds
  split
  · exact .pure rfl
  · refine (together.host name [v] fun a member => ?_).bind fun v v' same => ?_
    · rw [List.mem_singleton.mp member]
      exact given
    · rw [same.1]
      exact .pure rfl

namespace Builtin

omit together in
theorem passingTogether {test : Value → Run Bool}
    (tests : ∀ x, b.value x → Run.Matches R (test x) (test x) Eq) {xs : List Value}
    (each : ∀ x ∈ xs, b.value x) :
    Run.Matches R (passing test xs) (passing test xs)
      fun ys ys' => ys' = ys ∧ ∀ y ∈ ys, b.value y := by
  induction xs with
  | nil => exact .pure ⟨rfl, List.forall_mem_nil _⟩
  | cons x xs ih =>
    rw [passing]
    obtain ⟨first, later⟩ := List.forall_mem_cons.mp each
    refine (tests x first).bind fun kept kept' same => (ih later).bind fun ys ys' more => ?_
    obtain ⟨rfl, held⟩ := more
    subst same
    cases kept with
    | false => exact .pure ⟨rfl, held⟩
    | true => exact .pure ⟨rfl, List.forall_mem_cons.mpr ⟨first, held⟩⟩

omit together in
theorem applyToAllTogether {f : Value → Run Value}
    (makes : ∀ x, b.value x → Run.Matches R (f x) (f x) b.Same) {xs : List Value}
    (each : ∀ x ∈ xs, b.value x) :
    Run.Matches R (applyToAll f xs) (applyToAll f xs)
      fun ys ys' => ys' = ys ∧ ∀ y ∈ ys, b.value y := by
  induction xs with
  | nil => exact .pure ⟨rfl, List.forall_mem_nil _⟩
  | cons x xs ih =>
    rw [applyToAll]
    obtain ⟨first, later⟩ := List.forall_mem_cons.mp each
    refine (makes x first).bind fun y y' same => (ih later).bind fun ys ys' more => .pure ?_
    obtain ⟨rfl, held⟩ := more
    obtain ⟨rfl, made⟩ := same
    exact ⟨rfl, List.forall_mem_cons.mpr ⟨made, held⟩⟩

theorem callerTogether (closed : Value.Closed b.value) {key : Value} {c : Caller}
    (found : caller? h key = some c) :
    (∀ x, b.value x → Run.Matches R (c.test x) (c.test x) Eq) ∧
      ∀ x, b.value x → Run.Matches R (c.make x) (c.make x) b.Same := by
  unfold caller? at found
  split at found
  · rename_i name _
    cases found
    refine ⟨fun x given => Host.holdsTogether together name given, fun x given => ?_⟩
    exact together.host name [x] (List.forall_mem_singleton.mpr given)
  · rename_i f
    split at found
    · cases found
      have made : ∀ x, b.value x → Run.Matches R (h.method f x) (h.method f x) b.Same :=
        fun x given => .ofExcept (.same fun v result => by
          obtain ⟨w, _, rfl⟩ := okMap result
          exact closed.made given w.2)
      refine ⟨fun x given => ?_, made⟩
      simp only [map_eq_pure_bind]
      refine (made x given).bind fun v v' same => ?_
      rw [same.1]
      exact .pure rfl
    · contradiction
  · contradiction

theorem applyTogether (closed : Value.Closed b.value) (law : Value.TakesEscaped b.value)
    (f : Builtin) {args : List Value} (given : ∀ a ∈ args, b.value a) :
    Run.Matches R (f.apply h args) (f.apply h args) b.Same := by
  have list : ∀ {m : Run (List Value)}, Run.Matches R m m (fun ys ys' => ys' = ys ∧
      ∀ y ∈ ys, b.value y) → Run.Matches R (Value.list <$> m) (Value.list <$> m) b.Same := by
    intro m matched
    simp only [map_eq_pure_bind]
    exact matched.bind fun ys ys' ⟨same, held⟩ =>
      .pure ⟨congrArg Value.list same, closed.list ys held⟩
  have evaluated : ∀ f : Builtin, Run.Matches R (Run.ofExcept (f.evaluate h args))
      (Run.ofExcept (f.evaluate h args)) b.Same := fun f =>
    .ofExcept (.same fun v found => evaluateHolds closed law h f given found)
  unfold apply
  split
  · exact .throw _
  · split
    · split
      · rename_i v key _ _ c xs found items
        exact list (passingTogether (callerTogether together closed found).1
          (closed.items _ xs (given _ List.mem_cons_self) items))
      · exact evaluated _
    · split
      · rename_i v key _ _ c xs found items
        exact list (applyToAllTogether (callerTogether together closed found).2
          (closed.items _ xs (given _ List.mem_cons_self) items))
      · exact evaluated _
    · exact fun w w' related => ⟨together.logs w w' _ related, .ok ⟨rfl, given _ List.mem_cons_self⟩⟩
    · exact evaluated _

end Builtin

theorem Function.applyTogether (closed : Value.Closed b.value) (law : Value.TakesEscaped b.value)
    (f : Function) {args : List Value} (given : ∀ a ∈ args, b.value a) :
    Run.Matches R (f.apply h t args) (f.apply h t' args) b.Same := by
  cases f with
  | builtin f => exact Builtin.applyTogether together closed law f given
  | translate =>
    intro w w' related
    unfold apply
    dsimp only
    rw [Run.onBindOk (Run.onGet w), Run.onBindOk (Run.onGet w')]
    exact Run.Matches.ofExcept (together.translate w w' args related given) w w' related
  | translatePlural =>
    intro w w' related
    unfold apply
    dsimp only
    rw [Run.onBindOk (Run.onGet w), Run.onBindOk (Run.onGet w')]
    exact Run.Matches.ofExcept (together.plural w w' args related given) w w' related
  | host name => exact together.host name args given

end

/- What functions of the host program keep, all functions do. -/
theorem Function.applyKept {P : World → Prop} {b : Bounds} {h : Host}
    (closed : Value.Closed b.value) (law : Value.TakesEscaped b.value)
    (logs : ∀ w l, P w → P { w with logs := l })
    (host : ∀ name args, (∀ a ∈ args, b.value a) → Run.Keeps P (h.apply name args) b.value)
    (t : Translator) (f : Function) {args : List Value} (given : ∀ a ∈ args, b.value a) :
    Run.Keeps P (f.apply h t args) b.value := by
  -- a function does the same in one world as in that world itself
  have together : Function.Together (fun w w' => w' = w ∧ P w) b h t t := {
    logs := by
      rintro _ w l ⟨rfl, inv⟩
      exact ⟨rfl, logs _ _ inv⟩
    host := by
      rintro name args given _ w ⟨rfl, inv⟩
      obtain ⟨kept, result⟩ := host name args given w inv
      exact ⟨⟨rfl, kept⟩, .same result⟩
    translate := by
      rintro _ w args ⟨rfl, _⟩ given
      exact .same fun v found => translateHolds closed given found
    plural := by
      rintro _ w args ⟨rfl, _⟩ _
      exact .same fun v found => pluralHolds closed found }
  intro w inv
  obtain ⟨⟨_, kept⟩, results⟩ := applyTogether together closed law f given w w ⟨rfl, inv⟩
  refine ⟨kept, fun v found => ?_⟩
  rw [found] at results
  cases results with
  | ok same => exact same.2

end Medley
