import Mathlib.Data.List.Basic
import Medley.Value.Sorting

/-! Sorting makes up no items: whatever the comparisons answer, the items of the sorted list are
items of the list that was sorted. -/
namespace Medley

theorem okBind {ε β γ : Type} {x : Except ε β} {f : β → Except ε γ} {c : γ}
    (h : (x >>= f) = .ok c) : ∃ b, x = .ok b ∧ f b = .ok c := by
  cases x with
  | error e => contradiction
  | ok b => exact ⟨b, rfl, h⟩

theorem okMap {ε β γ : Type} {x : Except ε β} {f : β → γ} {c : γ} (h : x.map f = .ok c) :
    ∃ b, x = .ok b ∧ f b = c := by
  cases x with
  | error e => contradiction
  | ok b => exact ⟨b, rfl, Except.ok.inj h⟩

namespace Sorting
variable {α : Type}

theorem takeRunMember {lt : Before α} {xs run rest : List α} (h : takeRun lt xs = .ok (run, rest)) :
    ∀ x, x ∈ run ∨ x ∈ rest → x ∈ xs := by
  unfold takeRun at h
  split at h
  · cases h
    simp
  · cases h
    simp
  · rename_i x y tail
    have parts : ∀ n z, (z ∈ tail.take n ∨ z ∈ tail.drop n) → z ∈ tail := fun n z member =>
      member.elim List.mem_of_mem_take List.mem_of_mem_drop
    obtain ⟨falls, _, h⟩ := okBind h
    split at h
    · obtain ⟨n, _, h⟩ := okBind h
      cases h
      intro z member
      simp only [List.mem_reverse, List.mem_cons] at member ⊢
      have := parts n z
      tauto
    · obtain ⟨n, _, h⟩ := okBind h
      cases h
      intro z member
      simp only [List.mem_cons] at member ⊢
      have := parts n z
      tauto

theorem insertAllMember {lt : Before α} {xs : List α} {sorted result : Array α}
    (h : insertAll lt sorted xs = .ok result) : ∀ x ∈ result, x ∈ sorted ∨ x ∈ xs := by
  induction xs generalizing sorted with
  | nil =>
    cases h
    exact fun x member => .inl member
  | cons y ys ih =>
    obtain ⟨i, _, h⟩ := okBind h
    intro x member
    rcases ih h x member with here | later
    · rw [Array.insertIdxIfInBounds] at here
      split at here
      · rcases Array.mem_insertIdx.mp here with rfl | old
        · exact .inr List.mem_cons_self
        · exact .inl old
      · exact .inl here
    · exact .inr (List.mem_cons_of_mem y later)

theorem mergeFromMember {lt : Before α} {fuel : Nat} {xs ys result : List α}
    (h : mergeFrom lt fuel xs ys = .ok result) : ∀ x ∈ result, x ∈ xs ∨ x ∈ ys := by
  induction fuel generalizing xs ys result with
  | zero =>
    cases h
    exact fun x member => List.mem_append.mp member
  | succ fuel ih =>
    cases xs with
    | nil =>
      simp only [mergeFrom] at h
      cases h
      exact fun x member => .inr member
    | cons x xs =>
      cases ys with
      | nil =>
        simp only [mergeFrom] at h
        cases h
        exact fun x member => .inl member
      | cons y ys =>
        obtain ⟨falls, _, h⟩ := okBind h
        split at h
        · obtain ⟨rest, found, h⟩ := okBind h
          cases h
          intro z member
          rcases List.mem_cons.mp member with rfl | later
          · exact .inr List.mem_cons_self
          · exact (ih found z later).imp_right (List.mem_cons_of_mem y)
        · obtain ⟨rest, found, h⟩ := okBind h
          cases h
          intro z member
          rcases List.mem_cons.mp member with rfl | later
          · exact .inl List.mem_cons_self
          · exact (ih found z later).imp_left (List.mem_cons_of_mem x)

theorem sortFromMember {lt : Before α} {least fuel : Nat} {done xs result : List α}
    (h : sortFrom lt least fuel done xs = .ok result) : ∀ x ∈ result, x ∈ done ∨ x ∈ xs := by
  induction fuel generalizing done xs with
  | zero =>
    cases h
    exact fun x member => .inl member
  | succ fuel ih =>
    cases xs with
    | nil =>
      simp only [sortFrom] at h
      cases h
      exact fun x member => .inl member
    | cons y ys =>
      obtain ⟨⟨run, rest⟩, taken, h⟩ := okBind h
      obtain ⟨piece, inserted, h⟩ := okBind h
      obtain ⟨merged, joined, h⟩ := okBind h
      have parts := takeRunMember taken
      intro x member
      rcases ih h x member with early | late
      · rcases mergeFromMember joined x early with old | new
        · exact .inl old
        · rcases insertAllMember inserted x (Array.mem_toList_iff.mp new) with first | more
          · exact .inr (parts x (.inl (by simpa using first)))
          · exact .inr (parts x (.inr (List.mem_of_mem_take more)))
      · exact .inr (parts x (.inr (List.mem_of_mem_drop late)))

theorem sortMember {lt : Before α} {xs result : List α} (h : sort lt xs = .ok result) :
    ∀ x ∈ result, x ∈ xs := fun x member =>
  (sortFromMember h x member).resolve_left List.not_mem_nil

end Sorting
end Medley
