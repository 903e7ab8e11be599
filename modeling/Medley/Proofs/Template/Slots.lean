import Mathlib.Data.List.Induction
import Medley.Template.Slots

/-! Where a component's children go. Each child goes to the one slot that it or its tag names, and
the slots hold what was sent to them: all of it, once, and in the order of the children. -/
namespace Medley.Slots

def Names (props : List (String × Value)) (key s : String) : Prop :=
  ∃ v, props.lookup key = some v ∧ v.string? = some s ∧ s ≠ ""

inductive Goes : Node Value → String → Prop
  | wrapper {pos props children s} (named : Names props "name" s) :
      Goes (.component pos Node.slotTag props children) s
  | wrapperUnnamed {pos props children} (unnamed : ∀ s, ¬ Names props "name" s) :
      Goes (.component pos Node.slotTag props children) defaultSlot
  | component {pos name props children s} (other : name ≠ Node.slotTag)
      (named : Names props "slot" s) : Goes (.component pos name props children) s
  | componentUnnamed {pos name props children} (other : name ≠ Node.slotTag)
      (unnamed : ∀ s, ¬ Names props "slot" s) : Goes
      (.component pos name props children) defaultSlot
  | plain {n} (other : ∀ pos name props children, n ≠ .component pos name props children) :
      Goes n defaultSlot

variable {props : List (String × Value)} {key s : String} {n : Node Value} {buckets : Buckets}
  {nodes : List (Node Value)}

theorem namedSome : named? props key = some s ↔ Names props key s := by
  unfold named? Names
  cases props.lookup key with
  | none => simp
  | some v => simp [Option.filter_eq_some_iff]

theorem namedNone : named? props key = none ↔ ∀ s, ¬ Names props key s := by
  simp only [Option.eq_none_iff_forall_ne_some, ← namedSome, ne_eq]

theorem namedOr : (named? props key).getD defaultSlot = s ↔
    Names props key s ∨ (∀ t, ¬ Names props key t) ∧ s = defaultSlot := by
  rw [← namedSome, ← namedNone]
  cases named? props key with
  | none => simp [eq_comm]
  | some t => simp

theorem goesIff : Goes n s ↔ target n = s := by
  constructor
  · intro goes
    cases goes with
    | wrapper named => simpa [target] using namedOr.mpr (.inl named)
    | wrapperUnnamed unnamed => simpa [target] using namedOr.mpr (.inr ⟨unnamed, rfl⟩)
    | component other named => simpa [target, other] using namedOr.mpr (.inl named)
    | componentUnnamed other unnamed =>
      simpa [target, other] using namedOr.mpr (.inr ⟨unnamed, rfl⟩)
    | plain other =>
      cases n with
      | component pos name props children => exact absurd rfl (other pos name props children)
      | _ => rfl
  · rintro rfl
    cases n with
    | component pos name props children =>
      by_cases tag : name = Node.slotTag
      · subst tag
        rw [target, if_pos rfl]
        rcases namedOr.mp (Eq.refl ((named? props "name").getD defaultSlot)) with named | ⟨none, same⟩
        · exact .wrapper named
        · rw [same]
          exact .wrapperUnnamed none
      · rw [target, if_neg tag]
        rcases namedOr.mp (Eq.refl ((named? props "slot").getD defaultSlot)) with named | ⟨none, same⟩
        · exact .component tag named
        · rw [same]
          exact .componentUnnamed tag none
    | _ => exact .plain (by simp)

instance : DecidablePred (Goes · s) := fun _ => decidable_of_iff _ goesIff.symm

theorem addKeys : (add buckets key nodes).map Prod.fst =
    if key ∈ buckets.map Prod.fst then buckets.map Prod.fst else buckets.map Prod.fst ++ [key] := by
  induction buckets with
  | nil => rfl
  | cons b buckets ih =>
    rw [add]
    by_cases here : b.1 = key
    · simp [here]
    · by_cases later : key ∈ buckets.map Prod.fst <;>
        simp [here, later, ih, Ne.symm here, List.mem_cons]

theorem addWhole : ((add buckets key nodes).flatMap Prod.snd).Perm
    (buckets.flatMap Prod.snd ++ nodes) := by
  induction buckets with
  | nil => simp [add]
  | cons b buckets ih =>
    rw [add]
    split
    · simp only [List.flatMap_cons, List.append_assoc]
      exact List.perm_append_comm.append_left b.2
    · simp only [List.flatMap_cons, List.append_assoc]
      exact ih.append_left b.2

/- A bucket was there for another key, was there and has grown, or is new. -/
theorem addBucket (apart : (buckets.map Prod.fst).Nodup) {b : String × List (Node Value)}
    (member : b ∈ add buckets key nodes) :
    (b ∈ buckets ∧ b.1 ≠ key) ∨ (∃ ns, (key, ns) ∈ buckets ∧ b = (key, ns ++ nodes)) ∨
      (key ∉ buckets.map Prod.fst ∧ b = (key, nodes)) := by
  induction buckets with
  | nil => exact .inr (.inr ⟨by simp, List.mem_singleton.mp member⟩)
  | cons d buckets ih =>
    obtain ⟨fresh, apart⟩ := List.nodup_cons.mp apart
    rw [add] at member
    split at member
    · rename_i here
      rcases List.mem_cons.mp member with rfl | later
      · exact .inr (.inl ⟨d.2, by rw [← here]; exact List.mem_cons_self, by rw [here]⟩)
      · refine .inl ⟨List.mem_cons_of_mem d later, fun same => fresh ?_⟩
        rw [here, ← same]
        exact List.mem_map_of_mem later
    · rename_i apartKey
      rcases List.mem_cons.mp member with rfl | later
      · exact .inl ⟨List.mem_cons_self, apartKey⟩
      · rcases ih apart later with ⟨old, other⟩ | ⟨ns, old, grown⟩ | ⟨new, made⟩
        · exact .inl ⟨List.mem_cons_of_mem d old, other⟩
        · exact .inr (.inl ⟨ns, List.mem_cons_of_mem d old, grown⟩)
        · exact .inr (.inr ⟨by simpa [Ne.symm apartKey] using new, made⟩)

/-- The buckets hold what was sent by these children. -/
structure Sorts (children : List (Node Value)) (buckets : Buckets) : Prop where
  apart : (buckets.map Prod.fst).Nodup
  keys : ∀ key, key ∈ buckets.map Prod.fst ↔ key = defaultSlot ∨ ∃ n ∈ children, Goes n key
  sent : ∀ b ∈ buckets, b.2 = (children.filter (Goes · b.1)).flatMap contribution
  whole : (buckets.flatMap Prod.snd).Perm (children.flatMap contribution)

theorem sortsNothing : Sorts [] [(defaultSlot, [])] :=
  ⟨by simp, by simp, by simp, by simp⟩

theorem Sorts.next {seen : List (Node Value)} (h : Sorts seen buckets) (n : Node Value) :
    Sorts (seen ++ [n]) (add buckets (target n) (contribution n)) where
  apart := by
    rw [addKeys]
    split
    · exact h.apart
    · exact List.nodup_append.mpr ⟨h.apart, by simp, by grind⟩
  keys key := by
    have either : (∃ m ∈ seen ++ [n], Goes m key) ↔ (∃ m ∈ seen, Goes m key) ∨ target n = key := by
      simp [or_and_right, exists_or, goesIff]
    rw [either, ← or_assoc, ← h.keys key, addKeys]
    split
    · rename_i there
      exact ⟨.inl, fun found => found.elim id fun same => same ▸ there⟩
    · simp [eq_comm]
  sent b member := by
    rw [List.filter_append, List.flatMap_append]
    rcases addBucket h.apart member with ⟨old, other⟩ | ⟨ns, old, rfl⟩ | ⟨new, rfl⟩
    · have away : ¬ Goes n b.1 := fun goes => other (goesIff.mp goes).symm
      simp [h.sent b old, away]
    · have goes : Goes n (target n) := goesIff.mpr rfl
      have before : ns = _ := h.sent _ old
      simp [before, goes]
    · have goes : Goes n (target n) := goesIff.mpr rfl
      have unsent : seen.filter (Goes · (target n)) = [] := by
        rw [List.filter_eq_nil_iff]
        intro m inside sent
        exact new ((h.keys _).mpr (.inr ⟨m, inside, of_decide_eq_true sent⟩))
      simp [unsent, goes]
  whole := by
    rw [List.flatMap_append]
    refine addWhole.trans ?_
    simpa using h.whole.append_right (contribution n)

theorem sortsChildren (children : List (Node Value)) : Sorts children (collect children) := by
  induction children using List.reverseRecOn with
  | nil => exact sortsNothing
  | append_singleton seen n ih =>
    rw [collect, List.foldl_append]
    exact ih.next n

theorem childrenSorted (level : Nat) (children : List (Node Value)) (scope : Scope) :
    ∃ buckets, Sorts children buckets ∧ fragments level children scope =
      .map (buckets.map fun b => (.text b.1, .fragment level b.2 scope)) := by
  refine ⟨collect children, sortsChildren children, ?_⟩
  simp [fragments, Value.ofLayer, Value.named]

example : (collect [.text .start "a",
      .component .start "Slot" [("name", .text "side")] [.text .start "s"],
      .component .start "Badge" [("slot", .text "side")] [],
      .component .start "Badge" [] []]).map (fun b => (b.1, b.2.length)) =
    [("default", 2), ("side", 2)] := rfl

end Medley.Slots
