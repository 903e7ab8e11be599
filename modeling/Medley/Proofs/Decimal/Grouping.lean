import Medley.Decimal.Fixed

/-! The text of a whole number with places after the point: its digits, which may stand in groups of
three, and zeros. -/
namespace Medley.Decimal

/-- A comma before every three digits from the right, as long as digits are left before them. -/
inductive InThrees : List Char → List Char → Prop where
  | first {ds} (some : ds ≠ []) (short : ds.length ≤ 3) : InThrees ds ds
  | next {ds text} (before : InThrees ds text) (a b c : Char) :
      InThrees (ds ++ [a, b, c]) (text ++ [',', a, b, c])

namespace InThrees
variable {ds s t : List Char}

theorem some (h : InThrees ds s) : 0 < ds.length := by
  cases h with
  | first some => exact List.length_pos_iff.mpr some
  | next => simp

theorem unique (h : InThrees ds s) (other : InThrees ds t) : s = t := by
  induction h generalizing t with
  | first _ short =>
    cases other with
    | first => rfl
    | next before =>
      have digits := before.some
      rw [List.length_append, List.length_cons, List.length_cons, List.length_cons] at short
      omega
  | @next ds s before a b c ih =>
    generalize whole : ds ++ [a, b, c] = all at other
    cases other with
    | first _ short =>
      have digits := before.some
      rw [← whole, List.length_append, List.length_cons, List.length_cons, List.length_cons] at short
      omega
    | next before =>
      obtain ⟨rfl, same⟩ := List.append_inj' whole rfl
      cases same
      rw [ih before]

end InThrees

theorem groupedInThrees {ds : List Char} (some : ds ≠ []) : InThrees ds (grouped ds) := by
  have backwards : ∀ ds : List Char, ds ≠ [] → InThrees ds.reverse (groupFrom ds).reverse := by
    intro ds
    fun_induction groupFrom ds with
    | case1 a b c d rest ih =>
      intro _
      have threes := (ih (List.cons_ne_nil d rest)).next c b a
      simpa using threes
    | case2 ds long =>
      intro some
      refine .first (by simpa using some) ?_
      rw [List.length_reverse]
      match ds with
      | [] | [_] | [_, _] | [_, _, _] => simp
      | a :: b :: c :: d :: rest => exact (long a b c d rest rfl).elim
  have threes := backwards ds.reverse (by simpa using some)
  rwa [List.reverse_reverse] at threes

theorem natTextSome (n : Nat) : natText n ≠ [] := Nat.toDigits_ne_nil

theorem zerosNone : zeros 0 = [] := rfl

theorem fixedWhole (group : Bool) (n : Nat) :
    fixedText group 0 n = if group then grouped (natText n) else natText n := by
  have some := List.length_pos_iff.mpr (natTextSome n)
  rw [fixedText, show 0 + 1 - (natText n).length = 0 by omega, zerosNone]
  simp

theorem hundredfoldText {n : Nat} (some : 0 < n) : natText (n * 100) = natText n ++ ['0', '0'] := by
  have digit : Nat.toDigits 10 0 = ['0'] := rfl
  have tens := Nat.toDigits_append_toDigits (b := 10) (n := n) (d := 0) (by decide) some (by decide)
  have hundreds := Nat.toDigits_append_toDigits (b := 10) (n := 10 * n) (d := 0) (by decide)
    (by omega) (by decide)
  rw [Nat.add_zero, digit] at tens hundreds
  rw [natText, natText, show n * 100 = 10 * (10 * n) by omega, ← hundreds, ← tens]
  simp

theorem fixedHundredths (n : Nat) :
    fixedText true 2 (n * 100) = grouped (natText n) ++ ['.', '0', '0'] := by
  rcases Nat.eq_zero_or_pos n with rfl | some
  · rfl
  have digits := List.length_pos_iff.mpr (natTextSome n)
  have length : (natText n ++ ['0', '0']).length = (natText n).length + 2 := by simp
  rw [fixedText, hundredfoldText some, length,
    show 2 + 1 - ((natText n).length + 2) = 0 by omega, zerosNone]
  simp

end Medley.Decimal
