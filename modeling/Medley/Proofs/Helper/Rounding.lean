import Medley.Helper.Numbers
import Medley.Proofs.Decimal.Rounding

/-! Integers rounded before the point, as a helper does it. The result is the nearest multiple of the
power of ten; an integer that is too long to be written is refused, and so is a quotient that needs
too many digits. -/
namespace Medley
open Decimal

namespace Number

theorem placeNear {places : Int} (low : places.natAbs ≤ 999) : place places = .ok (-places) := by
  have near : ¬ 2 * (highestPlace + precision) < (places.natAbs : Int) := by
    unfold highestPlace precision
    omega
  have under : ¬ highestPlace < -places := by
    unfold highestPlace
    omega
  have above : max (-places) lowestPlace = -places := by
    unfold lowestPlace
    omega
  rw [place, Amount.placeOf, if_neg near, if_neg under, above]

theorem roundLong {n places : Int} (low : places.natAbs ≤ 999)
    (long : digitLimit < digitCount n.natAbs) :
    (int n).roundTo places = .error .unwritableInteger := by
  simp only [roundTo, placeNear low, bind, Except.bind, if_pos long]
  rfl

theorem roundShort {n places : Int} (low : places.natAbs ≤ 999)
    (short : digitCount n.natAbs ≤ digitLimit) : (int n).roundTo places =
      match (Amount.ofInt n).roundTo (-places) with
      | .error _ => .error .roundedTooLong
      | .ok a => .ok (if places ≤ 0 then int a.toInt else float a.toFloat) := by
  simp only [roundTo, placeNear low, bind, Except.bind, pure, Except.pure,
    if_neg (Nat.not_lt_of_le short)]
  rfl

theorem roundBefore {n : Int} {k : Nat} (low : k ≤ 999)
    (short : digitCount n.natAbs ≤ digitLimit) : (int n).roundTo (-k) =
      if digitCount (Amount.divHalfUp n.natAbs (10 ^ k)) ≤ precision
      then .ok (int (signed (n < 0) (Amount.divHalfUp n.natAbs (10 ^ k)) * (10 ^ k : Nat)))
      else .error .roundedTooLong := by
  have before : -(k : Int) ≤ 0 := by omega
  rw [roundShort (by omega) short, Int.neg_neg, Amount.roundToPower]
  by_cases fits : digitCount (Amount.divHalfUp n.natAbs (10 ^ k)) ≤ precision
  · simp only [if_pos fits, if_pos before, Amount.toInt, Amount.tensNat]
    by_cases negative : n < 0 <;> simp [signed, negative]
  · simp only [if_neg fits]

end Number

namespace Helper

theorem roundInt {n places : Int} (low : places.natAbs ≤ 999) :
    round (.int n) (.int places) = (Number.int n).roundTo places := by
  simp only [round, Value.toWhole, Value.toNumber, Number.whole, Number.placeNear low, bind,
    Except.bind]

/- The quotient that is rounded to, and what becomes of it. -/
theorem roundQuotient {n : Int} {k : Nat} (low : k ≤ 999)
    (short : digitCount n.natAbs ≤ digitLimit) :
    ∃ q : Int, Nearest n (10 ^ k : Nat) (q * (10 ^ k : Nat)) ∧
      round (.int n) (.int (-k)) =
        if digitCount q.natAbs ≤ precision then .ok (.int (q * (10 ^ k : Nat)))
        else .error .roundedTooLong := by
  refine ⟨_, Amount.signedNearest n (Nat.pow_pos (by decide)), ?_⟩
  rw [roundInt (by omega), Number.roundBefore low short]
  by_cases negative : n < 0 <;> simp [signed, negative]

theorem roundedShort {n r : Int} {k : Nat} (low : k ≤ 999)
    (rounded : round (.int n) (.int (-k)) = .ok (.int r)) : digitCount n.natAbs ≤ digitLimit := by
  by_contra long
  rw [roundInt (by omega), Number.roundLong (by omega) (Nat.lt_of_not_le long)] at rounded
  contradiction

theorem roundedIff {n r : Int} {k : Nat} (low : k ≤ 999) :
    round (.int n) (.int (-k)) = .ok (.int r) ↔
      digitCount n.natAbs ≤ digitLimit ∧ ∃ q : Int, digitCount q.natAbs ≤ precision ∧
        r = q * (10 ^ k : Nat) ∧ Nearest n (10 ^ k : Nat) r := by
  constructor
  · intro rounded
    have short := roundedShort low rounded
    obtain ⟨q, nearest, result⟩ := roundQuotient low short
    rw [rounded] at result
    split at result
    · rename_i fits
      cases result
      exact ⟨short, q, fits, rfl, nearest⟩
    · contradiction
  · rintro ⟨short, q, fits, rfl, nearest⟩
    obtain ⟨p, other, result⟩ := roundQuotient low short
    have same : p = q := by
      have equal := other.unique nearest
      exact Int.eq_of_mul_eq_mul_right (by positivity) equal
    rw [result, same, if_pos fits]

/-- What rounding to a multiple of 10^k comes to: for every integer that can be written it gives the
nearest one, or refuses it for its quotient, and is odd, monotone and idempotent where it gives one. -/
structure Rounds (k : Nat) : Prop where
  nearest : ∀ n : Int, digitCount n.natAbs ≤ digitLimit →
    ∃ q : Int, Nearest n (10 ^ k : Nat) (q * (10 ^ k : Nat)) ∧
      (round (.int n) (.int (-k))).mapError Fault.kind =
        if digitCount q.natAbs ≤ precision then .ok (.int (q * (10 ^ k : Nat)))
        else .error "InvalidOperation"
  refused : ∀ n : Int, digitLimit < digitCount n.natAbs →
    (round (.int n) (.int (-k))).mapError Fault.kind = .error "ValueError"
  odd : ∀ n r : Int, round (.int n) (.int (-k)) = .ok (.int r) →
    round (.int (-n)) (.int (-k)) = .ok (.int (-r))
  monotone : ∀ m n r s : Int, m ≤ n → round (.int m) (.int (-k)) = .ok (.int r) →
    round (.int n) (.int (-k)) = .ok (.int s) → r ≤ s
  settled : ∀ n r : Int, round (.int n) (.int (-k)) = .ok (.int r) →
    round (.int r) (.int (-k)) = .ok (.int r)

theorem roundsOdd {n r : Int} {k : Nat} (low : k ≤ 999)
    (rounded : round (.int n) (.int (-k)) = .ok (.int r)) :
    round (.int (-n)) (.int (-k)) = .ok (.int (-r)) := by
  obtain ⟨short, q, fits, made, nearest⟩ := (roundedIff low).mp rounded
  refine (roundedIff low).mpr ⟨by rwa [Int.natAbs_neg], -q, by rwa [Int.natAbs_neg], ?_, nearest.neg⟩
  rw [made, Int.neg_mul]

theorem roundsSettled {n r : Int} {k : Nat} (low : k ≤ 999)
    (rounded : round (.int n) (.int (-k)) = .ok (.int r)) :
    round (.int r) (.int (-k)) = .ok (.int r) := by
  obtain ⟨_, q, fits, made, nearest⟩ := (roundedIff low).mp rounded
  have short : digitCount r.natAbs ≤ precision + k := by
    rw [digitCountLe (by simp [precision]), made, Int.natAbs_mul, Int.natAbs_natCast, Nat.pow_add]
    exact Nat.mul_lt_mul_of_pos_right ((digitCountLe (by decide)).mp fits) (Nat.pow_pos (by decide))
  refine (roundedIff low).mpr ⟨?_, q, fits, made, .self nearest.multiple⟩
  unfold precision at short
  unfold digitLimit
  omega

theorem integersRounded (k : Nat) (low : k ≤ 999) : Rounds k where
  nearest n short := by
    obtain ⟨q, nearest, result⟩ := roundQuotient low short
    refine ⟨q, nearest, ?_⟩
    rw [result]
    split <;> rfl
  refused n long := by
    rw [roundInt (by omega), Number.roundLong (by omega) long]
    rfl
  odd _ _ := roundsOdd low
  monotone m n r s le first second := by
    obtain ⟨_, _, _, _, lower⟩ := (roundedIff low).mp first
    obtain ⟨_, _, _, _, upper⟩ := (roundedIff low).mp second
    exact lower.mono upper le
  settled _ _ := roundsSettled low

theorem carriedRounded : 1 ≤ 999 ∧ round (.int 995) (.int (-(1 : Nat))) = .ok (.int 1000) ∧
    round (.int (-995)) (.int (-(1 : Nat))) = .ok (.int (-1000)) := by
  have carried : round (.int 995) (.int (-(1 : Nat))) = .ok (.int 1000) := rfl
  exact ⟨by decide, carried, (integersRounded 1 (by decide)).odd 995 1000 carried⟩

theorem someLong {k : Nat} (some : 0 < k) : ∃ n : Int, k < digitCount n.natAbs := by
  refine ⟨(10 ^ k : Nat), ?_⟩
  rw [Int.natAbs_natCast, ← Nat.not_le, digitCountLe some]
  exact Nat.lt_irrefl _

/- An integer that is too long to be written is refused for that, and not for its quotient. -/
theorem longUnrounded : ¬ ∀ (n : Int) (k : Nat), k ≤ 999 →
    (∃ r, round (.int n) (.int (-k)) = .ok (.int r)) ∨
      (round (.int n) (.int (-k))).mapError Fault.kind = .error "InvalidOperation" := by
  intro every
  obtain ⟨n, long⟩ := someLong (k := digitLimit) (by decide)
  have refused : (Number.int n).roundTo (-(0 : Nat)) = _ := Number.roundLong (by decide) long
  rcases every n 0 (by decide) with ⟨r, rounded⟩ | kind
  · rw [roundInt (by decide), refused] at rounded
    contradiction
  · rw [roundInt (by decide), refused] at kind
    simp [Except.mapError, Fault.kind] at kind

end Helper
end Medley
