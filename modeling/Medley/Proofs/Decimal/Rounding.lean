import Mathlib.Data.Int.Order.Basic
import Mathlib.Tactic.Linarith
import Mathlib.Tactic.Ring
import Medley.Decimal.Rounded

/-! Integers rounded to a power of ten. What rounding half away from zero means is said for any unit
by distances alone; rounding an amount to a place gives that, unless it needs too many digits. -/
namespace Medley.Decimal

/-- A multiple of the unit that no other is nearer to, of two equally near the one away from zero. -/
structure Nearest (n unit r : Int) : Prop where
  multiple : unit ∣ r
  near : ∀ s, unit ∣ s → (n - r).natAbs ≤ (n - s).natAbs
  away : ∀ s, unit ∣ s → (n - s).natAbs = (n - r).natAbs → s.natAbs ≤ r.natAbs

namespace Nearest
variable {m n unit r s : Int}

theorem neg (h : Nearest n unit r) : Nearest (-n) unit (-r) where
  multiple := (Int.dvd_neg).mpr h.multiple
  near s multiple := by
    have other := h.near (-s) ((Int.dvd_neg).mpr multiple)
    omega
  away s multiple same := by
    have other := h.away (-s) ((Int.dvd_neg).mpr multiple)
    omega

theorem mono (first : Nearest m unit r) (second : Nearest n unit s) (le : m ≤ n) : r ≤ s := by
  have low := first.near s second.multiple
  have high := second.near r first.multiple
  have lowAway := first.away s second.multiple
  have highAway := second.away r first.multiple
  -- Were `s` below `r`, both would be in the middle of the two, and so the middle would be zero.
  have zero := first.near 0 (Int.dvd_zero unit)
  omega

theorem unique (first : Nearest n unit r) (second : Nearest n unit s) : r = s :=
  Int.le_antisymm (first.mono second (Int.le_refl n)) (second.mono first (Int.le_refl n))

theorem self (multiple : unit ∣ r) : Nearest r unit r :=
  ⟨multiple, fun s _ => by omega, fun s _ same => by omega⟩

/- A multiple that is at most half a unit too high, and less than half a unit too low. -/
theorem ofBounds {q d : Nat} (positive : 0 ≤ n) (low : 2 * (q : Int) * d ≤ 2 * n + d)
    (high : 2 * n < 2 * (q : Int) * d + d) : Nearest n d (q * d) where
  multiple := Int.dvd_mul_left _ _
  near s multiple := by
    obtain ⟨t, rfl⟩ := multiple
    have apart := apart q t d
    rw [Int.mul_assoc] at low high
    omega
  away s multiple same := by
    obtain ⟨t, rfl⟩ := multiple
    have apart := apart q t d
    have whole : 0 ≤ (q : Int) * d := by positivity
    rw [Int.mul_assoc] at low high
    omega
where
  apart (q : Nat) (t : Int) (d : Nat) :
      (d : Int) * t = q * d ∨ (d : Int) * t + d ≤ q * d ∨ (q : Int) * d + d ≤ d * t := by
    rcases lt_trichotomy t q with below | rfl | above
    · exact .inr (.inl (by nlinarith))
    · exact .inl (Int.mul_comm _ _)
    · exact .inr (.inr (by nlinarith))

end Nearest

theorem digitCountLe {n k : Nat} (some : 0 < k) : digitCount n ≤ k ↔ n < 10 ^ k :=
  Nat.length_toDigits_le_iff (by decide) some

theorem digitCountPos (n : Nat) : 0 < digitCount n := Nat.length_toDigits_pos

namespace Amount

theorem halfUpBounds {n d : Nat} (unit : 0 < d) :
    2 * divHalfUp n d * d ≤ 2 * n + d ∧ 2 * n < 2 * divHalfUp n d * d + d := by
  have low := Nat.div_mul_le_self (2 * n + d) (2 * d)
  have high := Nat.lt_div_mul_add (a := 2 * n + d) (show 0 < 2 * d by omega)
  have scaled : divHalfUp n d * (2 * d) = 2 * divHalfUp n d * d := by ring
  rw [← divHalfUp, scaled] at low high
  omega

theorem halfUpOne (n : Nat) : divHalfUp n 1 = n := by
  unfold divHalfUp
  omega

theorem halfUpSmall {n d : Nat} (small : 2 * n < d) : divHalfUp n d = 0 :=
  Nat.div_eq_of_lt (by omega)

theorem halfUpLarge {n d k : Nat} (unit : 0 < d) (large : k * d ≤ n) : k ≤ divHalfUp n d := by
  rw [divHalfUp, Nat.le_div_iff_mul_le (by omega)]
  nlinarith

theorem signedNearest (n : Int) {d : Nat} (unit : 0 < d) :
    Nearest n d (signed (n < 0) (divHalfUp n.natAbs d) * d) := by
  obtain ⟨low, high⟩ := halfUpBounds (n := n.natAbs) unit
  have size : Nearest n.natAbs d (divHalfUp n.natAbs d * d) :=
    .ofBounds (by omega) (by exact_mod_cast low) (by exact_mod_cast high)
  by_cases negative : n < 0
  · have turned := size.neg
    rw [show -(n.natAbs : Int) = n by omega] at turned
    simpa [signed, negative] using turned
  · rw [show (n.natAbs : Int) = n by omega] at size
    simpa [signed, negative] using size

theorem tensNat (k : Nat) : tens k = 10 ^ k := rfl

/- Rounding to a place before the point is refused exactly where the quotient is too long. -/
theorem roundToPower (n : Int) (k : Nat) : (ofInt n).roundTo k =
    if digitCount (divHalfUp n.natAbs (10 ^ k)) ≤ precision
    then .ok ⟨n < 0, divHalfUp n.natAbs (10 ^ k), k⟩ else .error .tooManyDigits := by
  have power : 0 < 10 ^ k := Nat.pow_pos (by decide)
  have coefficient : (ofInt n).coefficient = n.natAbs := rfl
  have exponent : (ofInt n).exponent = 0 := rfl
  have sign : (ofInt n).negative = decide (n < 0) := rfl
  rw [roundTo, coefficient, exponent, sign]
  dsimp only
  split
  · rename_i zero
    have none : divHalfUp n.natAbs (10 ^ k) = 0 := halfUpSmall (by omega)
    rw [none, if_pos (by decide)]
  · rename_i some
    split
    · rename_i long
      have large : 10 ^ precision * 10 ^ k ≤ n.natAbs := by
        rw [← Nat.pow_add]
        by_contra small
        have few := (digitCountLe (by simp [precision])).mpr (Nat.lt_of_not_le small)
        omega
      have refused : ¬ digitCount (divHalfUp n.natAbs (10 ^ k)) ≤ precision := by
        rw [digitCountLe (by decide)]
        exact Nat.not_lt_of_le (halfUpLarge power large)
      rw [if_neg refused]
    · rename_i fits
      split
      · rename_i short
        have count := digitCountPos n.natAbs
        have below : n.natAbs < 10 ^ (k - 1) := (digitCountLe (by omega)).mp (by omega)
        have less : 10 * 10 ^ (k - 1) = 10 ^ k := by
          rw [← Nat.pow_succ', Nat.succ_eq_add_one, show k - 1 + 1 = k by omega]
        have none : divHalfUp n.natAbs (10 ^ k) = 0 := halfUpSmall (by omega)
        rw [none, if_pos (by decide)]
      · rename_i reaches
        cases k with
        | zero => simp [halfUpOne, tens]
        | succ k =>
          have before : ¬ (0 : Int) ≤ 0 - ((k + 1 : Nat) : Int) := by omega
          have unit : tens (-(0 - ((k + 1 : Nat) : Int))) = 10 ^ (k + 1) := by
            rw [Int.zero_sub, Int.neg_neg, tensNat]
          rw [if_neg before, unit]

theorem roundToFraction (n : Int) (p : Nat) (room : n.natAbs * 10 ^ p < 10 ^ precision) :
    (ofInt n).roundTo (-p) = .ok ⟨n < 0, n.natAbs * 10 ^ p, -p⟩ := by
  have coefficient : (ofInt n).coefficient = n.natAbs := rfl
  have exponent : (ofInt n).exponent = 0 := rfl
  have sign : (ofInt n).negative = decide (n < 0) := rfl
  rw [roundTo, coefficient, exponent, sign]
  dsimp only
  split
  · rename_i zero
    rw [zero, Nat.zero_mul]
  · rename_i some
    have shift : (0 : Int) - -(p : Int) = p := by omega
    have fits : ¬ (precision : Int) < digitCount n.natAbs + p := by
      intro long
      have many : ¬ n.natAbs < 10 ^ (precision - p) := by
        by_cases wide : p < precision
        · rw [← digitCountLe (by omega)]
          omega
        · rw [show precision - p = 0 by omega, Nat.pow_zero]
          omega
      have back : 10 ^ precision ≤ 10 ^ (precision - p) * 10 ^ p := by
        rw [← Nat.pow_add]
        exact Nat.pow_le_pow_right (by decide) (by omega)
      have scaled := Nat.mul_le_mul_right (10 ^ p) (Nat.le_of_not_lt many)
      omega
    have reaches : ¬ (digitCount n.natAbs : Int) + p < 0 := by omega
    rw [shift, if_neg fits, if_neg reaches, if_pos (Int.natCast_nonneg p), tensNat,
      if_pos ((digitCountLe (by decide)).mpr room)]

end Amount
end Medley.Decimal
