import Mathlib.Algebra.Order.Ring.Nat
import Mathlib.Data.List.Basic
import Mathlib.Tactic.Linarith
import Medley.Decimal.Fixed

/-! Whole numbers as binary floating-point values. A value has room for 53 binary digits; a whole
number with more of them is rounded to that many, a half to the even neighbour. -/
namespace Medley.Decimal
open Float.Model Float.Model.UnpackedFloat

theorem halfEvenScaled (n d : Nat) {c : Nat} (scale : 0 < c) :
    divHalfEven (n * c) (d * c) = divHalfEven n d := by
  have quotient : n * c / (d * c) = n / d := Nat.mul_div_mul_right n d scale
  have rest : 2 * (n * c % (d * c)) = 2 * (n % d) * c := by
    rw [Nat.mul_mod_mul_right, Nat.mul_assoc]
  have order : compare (2 * (n % d) * c) (d * c) = compare (2 * (n % d)) d := by
    rcases lt_trichotomy (2 * (n % d)) d with less | same | more
    · rw [Nat.compare_eq_lt.mpr less, Nat.compare_eq_lt]
      exact Nat.mul_lt_mul_of_pos_right less scale
    · rw [same]
      simp
    · rw [Nat.compare_eq_gt.mpr more, Nat.compare_eq_gt]
      exact Nat.mul_lt_mul_of_pos_right more scale
  simp only [divHalfEven, quotient, rest, order]

theorem halfEvenWhole (n : Nat) {d : Nat} (unit : 0 < d) : divHalfEven (n * d) d = n := by
  have scaled := halfEvenScaled n 1 unit
  rw [Nat.one_mul] at scaled
  rw [scaled, divHalfEven, Nat.mod_one, Nat.div_one]
  rfl

/-- What is left of a mantissa after some of its digits were shifted out: the quotient, and where the
remainder lies in the divisor. -/
structure Cut (em : ExtendedMantissa) (m d : Nat) : Prop where
  whole : em.mantissa = m / d
  half : em.roundBit = decide (d ≤ 2 * (m % d))
  below : em.stickyBit = decide (2 * (m % d) ≠ 0 ∧ 2 * (m % d) ≠ d)

namespace Cut
variable {em : ExtendedMantissa} {m d : Nat}

theorem start (m : Nat) : Cut (.ofMantissaAndAccuracy m .exact) m 1 := by
  constructor <;> simp [ExtendedMantissa.ofMantissaAndAccuracy, Nat.mod_one]

theorem next (h : Cut em m d) (unit : 0 < d) : Cut em.shiftRightOne m (d * 2) := by
  have rest : m % (d * 2) = m % d + d * (m / d % 2) := Nat.mod_mul
  have less := Nat.mod_lt m unit
  have digit : m / d % 2 = 0 ∨ m / d % 2 = 1 := by omega
  refine ⟨?_, ?_, ?_⟩
  · simp only [ExtendedMantissa.shiftRightOne, h.whole, Nat.div_div_eq_div_mul]
  · rcases digit with zero | one
    · simp [ExtendedMantissa.shiftRightOne, h.whole, zero, rest]
      omega
    · simp [ExtendedMantissa.shiftRightOne, h.whole, one, rest]
      omega
  · rw [Bool.eq_iff_iff]
    rcases digit with zero | one
    · simp only [ExtendedMantissa.shiftRightOne, h.half, h.below, rest, zero, Bool.or_eq_true,
        decide_eq_true_eq]
      omega
    · simp only [ExtendedMantissa.shiftRightOne, h.half, h.below, rest, one, Bool.or_eq_true,
        decide_eq_true_eq]
      omega

theorem shifted (h : Cut em m d) (unit : 0 < d) (k : Nat) : Cut (em >>> k) m (d * 2 ^ k) := by
  change Cut (k.repeat ExtendedMantissa.shiftRightOne em) m (d * 2 ^ k)
  induction k with
  | zero => simpa [Nat.repeat] using h
  | succ k ih =>
    rw [Nat.repeat, Nat.pow_succ, ← Nat.mul_assoc]
    exact ih.next (Nat.mul_pos unit (Nat.two_pow_pos k))

theorem rounded (h : Cut em m d) (unit : 0 < d) : em.roundedMantissa = divHalfEven m d := by
  obtain ⟨mantissa, roundBit, stickyBit⟩ := em
  obtain ⟨whole, half, below⟩ := h
  dsimp only at whole half below
  have less := Nat.mod_lt m unit
  subst whole
  rw [divHalfEven]
  cases roundBit <;> cases stickyBit <;> simp at half below <;>
    simp only [ExtendedMantissa.roundedMantissa, ExtendedMantissa.accuracy,
      Accuracy.roundToNearestEven]
  · rw [Nat.compare_eq_lt.mpr half]
  · rw [Nat.compare_eq_lt.mpr half]
  · rw [Nat.compare_eq_eq.mpr (by omega)]
    dsimp only
    split <;> omega
  · rw [Nat.compare_eq_gt.mpr (by omega)]

end Cut

theorem log2Scaled {n : Nat} (some : 0 < n) (j : Nat) : (n * 2 ^ j).log2 = n.log2 + j := by
  have low := Nat.log2_self_le (Nat.ne_of_gt some)
  have high := Nat.lt_log2_self (n := n)
  rw [Nat.log2_eq_iff (Nat.ne_of_gt (Nat.mul_pos some (Nat.two_pow_pos j))),
    show n.log2 + j + 1 = n.log2 + 1 + j by omega, Nat.pow_add, Nat.pow_add]
  exact ⟨Nat.mul_le_mul_right _ low, Nat.mul_lt_mul_of_pos_right high (Nat.two_pow_pos j)⟩

/- The place of the last binary digit that there is room for. -/
def lastPlace (n : Nat) : Nat := n.log2 - 52

def kept (n : Nat) : Nat := divHalfEven n (2 ^ lastPlace n) * 2 ^ lastPlace n

theorem keptShort {n : Nat} (short : n.log2 ≤ 52) : kept n = n := by
  have last : lastPlace n = 0 := by
    unfold lastPlace
    omega
  simpa [kept, last] using halfEvenWhole n (d := 1) (by decide)

/- A mantissa with all its digits, and the whole number that it stands for with an exponent. -/
structure Fills (m : Nat) (e : Int) (n : Nat) : Prop where
  full : m.log2 = 52
  low : -52 ≤ e
  high : e ≤ 971
  value : m * twos e = n * twos (-e)

theorem twosNone {e : Int} (none : e ≤ 0) : twos e = 1 := by
  rw [twos, show e.toNat = 0 by omega, Nat.pow_eq, Nat.pow_zero]

theorem shiftExact (m : Nat) (e : Int) : shiftToTargetExponent Format.binary64 m e .exact =
    (ExtendedMantissa.ofMantissaAndAccuracy m .exact >>>
        (max ((m.log2 : Int) + e - 52) (-1074) - e).toNat,
      e + (max ((m.log2 : Int) + e - 52) (-1074) - e).toNat) := by
  have target : Format.binary64.targetExponent (totalExponent m e) =
      max ((m.log2 : Int) + e - 52) (-1074) := by
    change max ((m.log2 : Int) + 1 + e - 53) (-1074) = _
    omega
  rw [shiftToTargetExponent, target]
  rfl

theorem shiftNothing {m : Nat} {e : Int} (small : m.log2 ≤ 52) (low : -1074 ≤ e) :
    shiftToTargetExponent Format.binary64 m e .exact =
      (.ofMantissaAndAccuracy m .exact, e) := by
  have none : (max ((m.log2 : Int) + e - 52) (-1074) - e).toNat = 0 := by omega
  rw [shiftExact, none]
  simp [HShiftRight.hShiftRight, Nat.repeat]

theorem shiftCarry {e : Int} (low : -1074 ≤ e) :
    shiftToTargetExponent Format.binary64 (2 ^ 53) e .exact =
      (⟨2 ^ 52, false, false⟩, e + 1) := by
  have one : (max (((2 ^ 53).log2 : Int) + e - 52) (-1074) - e).toNat = 1 := by
    rw [Nat.log2_two_pow]
    omega
  rw [shiftExact, one]
  rfl

theorem halfEvenBetween (n d : Nat) : n / d ≤ divHalfEven n d ∧ divHalfEven n d ≤ n / d + 1 := by
  unfold divHalfEven
  dsimp only
  split
  · omega
  · omega
  · split <;> omega

theorem halfEvenFull {m : Nat} (full : 52 ≤ m.log2) :
    2 ^ 52 ≤ divHalfEven m (2 ^ (m.log2 - 52)) ∧ divHalfEven m (2 ^ (m.log2 - 52)) ≤ 2 ^ 53 := by
  have some : m ≠ 0 := by
    rintro rfl
    simp at full
  obtain ⟨low, high⟩ := halfEvenBetween m (2 ^ (m.log2 - 52))
  have unit := Nat.two_pow_pos (m.log2 - 52)
  have least : 2 ^ 52 ≤ m / 2 ^ (m.log2 - 52) := by
    rw [Nat.le_div_iff_mul_le unit, ← Nat.pow_add, show 52 + (m.log2 - 52) = m.log2 by omega]
    exact Nat.log2_self_le some
  have most : m / 2 ^ (m.log2 - 52) < 2 ^ 53 := by
    rw [Nat.div_lt_iff_lt_mul unit, ← Nat.pow_add,
      show 53 + (m.log2 - 52) = m.log2 + 1 by omega]
    exact Nat.lt_log2_self
  omega

/- Rounding shifts the mantissa until 53 digits are left, and once more where that carries over. -/
theorem roundShifted (s : Sign) {m : Nat} {e : Int} (full : 52 ≤ m.log2)
    (low : -1022 ≤ (m.log2 : Int) + e) :
    ∃ r f some, roundWithAccuracy Format.binary64 s m e .exact = .finite s r f some ∧
      r.log2 = 52 ∧ (f = e + (m.log2 - 52 : Nat) ∨ f = e + (m.log2 - 52 : Nat) + 1) ∧
      r * 2 ^ (f - (e + (m.log2 - 52 : Nat))).toNat = divHalfEven m (2 ^ (m.log2 - 52)) := by
  have shift : (max ((m.log2 : Int) + e - 52) (-1074) - e).toNat = m.log2 - 52 := by omega
  have cut := ((Cut.start m).shifted (by decide) (m.log2 - 52)).rounded
    (Nat.mul_pos (by decide) (Nat.two_pow_pos _))
  rw [Nat.one_mul] at cut
  obtain ⟨least, most⟩ := halfEvenFull full
  have above : -1074 ≤ e + (m.log2 - 52 : Nat) := by omega
  rw [roundWithAccuracy, shiftExact, shift]
  dsimp only
  rw [cut]
  generalize divHalfEven m (2 ^ (m.log2 - 52)) = r at *
  rcases Nat.lt_or_eq_of_le most with fits | rfl
  · have digits : r.log2 = 52 := (Nat.log2_eq_iff (by omega)).mpr ⟨least, fits⟩
    have some : r ≠ 0 := by omega
    rw [shiftNothing (by omega) above]
    refine ⟨r, _, Nat.pos_of_ne_zero some, ?_, digits, .inl rfl, ?_⟩
    · exact dif_neg some
    · rw [Int.sub_self, Int.toNat_zero, Nat.pow_zero, Nat.mul_one]
  · rw [shiftCarry above]
    refine ⟨2 ^ 52, _, by decide, rfl, Nat.log2_two_pow, .inr rfl, ?_⟩
    rw [show e + (m.log2 - 52 : Nat) + 1 - (e + (m.log2 - 52 : Nat)) = 1 by omega]
    rfl

theorem roundFills (s : Sign) {n j : Nat} (some : 0 < n) (full : 52 ≤ n.log2 + j)
    (small : n.log2 ≤ 1022) :
    ∃ m e h, roundWithAccuracy Format.binary64 s (n * 2 ^ j) (-j) .exact = .finite s m e h ∧
      Fills m e (kept n) := by
  have digits := log2Scaled some j
  obtain ⟨r, f, h, rounded, filled, place, value⟩ :=
    roundShifted s (m := n * 2 ^ j) (e := -j) (by omega) (by omega)
  refine ⟨r, f, h, rounded, filled, by omega, by omega, ?_⟩
  rw [digits] at place value
  -- With too many digits the exponent rises and some are lost, with fewer all of them are left.
  by_cases wide : 52 ≤ n.log2
  · have unit : 2 ^ (n.log2 + j - 52) = 2 ^ lastPlace n * 2 ^ j := by
      rw [← Nat.pow_add, lastPlace, show n.log2 + j - 52 = n.log2 - 52 + j by omega]
    rw [unit, halfEvenScaled _ _ (Nat.two_pow_pos j)] at value
    have back : twos (-f) = 1 := twosNone (by omega)
    have split : twos f = 2 ^ (f - (-j + (n.log2 + j - 52 : Nat))).toNat * 2 ^ lastPlace n := by
      rw [← Nat.pow_add, twos, lastPlace, Nat.pow_eq]
      congr 1
      omega
    rw [back, split, ← Nat.mul_assoc, value, Nat.mul_one]
    rfl
  · have last : lastPlace n = 0 := by
      unfold lastPlace
      omega
    have whole : n * 2 ^ j = n * 2 ^ (52 - n.log2) * 2 ^ (n.log2 + j - 52) := by
      rw [Nat.mul_assoc, ← Nat.pow_add, show 52 - n.log2 + (n.log2 + j - 52) = j by omega]
    have same : kept n = n := keptShort (by omega)
    rw [whole, halfEvenWhole _ (Nat.two_pow_pos _)] at value
    rw [same]
    have forth : twos f = 1 := twosNone (by omega)
    have split : 2 ^ (52 - n.log2) =
        twos (-f) * 2 ^ (f - (-j + (n.log2 + j - 52 : Nat))).toNat := by
      rw [twos, Nat.pow_eq, ← Nat.pow_add]
      congr 1
      omega
    rw [split, ← Nat.mul_assoc] at value
    rw [forth, Nat.mul_one]
    exact Nat.eq_of_mul_eq_mul_right (Nat.two_pow_pos _) value

/- No multiple is nearer than the rounded one, which is even if another is as near. -/
theorem halfEvenNearest (n k : Nat) {d : Nat} (unit : 0 < d) :
    ((n : Int) - (divHalfEven n d * d : Nat)).natAbs ≤ ((n : Int) - (k * d : Nat)).natAbs ∧
      (k ≠ divHalfEven n d → ((n : Int) - (k * d : Nat)).natAbs =
        ((n : Int) - (divHalfEven n d * d : Nat)).natAbs → divHalfEven n d % 2 = 0) := by
  have whole := Nat.div_add_mod n d
  have rest := Nat.mod_lt n unit
  have down : n / d * d = d * (n / d) := Nat.mul_comm _ _
  have up : (n / d + 1) * d = d * (n / d) + d := by rw [Nat.succ_mul, down]
  -- The two multiples around the number, and those beyond them.
  have either : (k + 1) * d ≤ d * (n / d) ∨ k = n / d ∨ k = n / d + 1 ∨
      (n / d + 2) * d ≤ k * d := by
    rcases Nat.lt_trichotomy k (n / d) with below | same | above
    · exact .inl (down ▸ Nat.mul_le_mul_right d below)
    · exact .inr (.inl same)
    · rcases Nat.eq_or_lt_of_le above with next | beyond
      · exact .inr (.inr (.inl next.symm))
      · exact .inr (.inr (.inr (Nat.mul_le_mul_right d beyond)))
  rw [Nat.succ_mul, Nat.add_mul, down] at either
  unfold divHalfEven
  dsimp only
  split
  · rename_i order
    rw [Nat.compare_eq_lt] at order
    rcases either with below | rfl | rfl | beyond <;> omega
  · rename_i order
    rw [Nat.compare_eq_gt] at order
    rcases either with below | rfl | rfl | beyond <;> omega
  · rename_i order
    rw [Nat.compare_eq_eq] at order
    split <;> rcases either with below | rfl | rfl | beyond <;> omega

def HasRoom (n : Nat) : Prop := ∃ m e, m < 2 ^ 53 ∧ n = m * 2 ^ e

theorem shortRoom {n : Nat} (short : n < 2 ^ 53) : HasRoom n :=
  ⟨n, 0, short, (Nat.mul_one n).symm⟩

theorem keptRoom (n : Nat) : HasRoom (kept n) := by
  by_cases wide : 52 ≤ n.log2
  · rcases Nat.lt_or_eq_of_le (halfEvenFull wide).2 with fits | carry
    · exact ⟨_, lastPlace n, fits, rfl⟩
    · refine ⟨2 ^ 52, lastPlace n + 1, by decide, ?_⟩
      rw [kept, lastPlace, carry, ← Nat.pow_add, ← Nat.pow_add, ← Nat.add_assoc, Nat.add_right_comm]
  · rw [keptShort (by omega)]
    exact shortRoom (Nat.lt_log2_self.trans_le (Nat.pow_le_pow_right (by decide) (by omega)))

theorem HasRoom.multiple {n v : Nat} (room : HasRoom v) (large : 2 ^ n.log2 ≤ v) :
    ∃ k, v = k * 2 ^ lastPlace n := by
  obtain ⟨m, e, short, rfl⟩ := room
  have less : n.log2 < 53 + e := by
    rw [← Nat.pow_lt_pow_iff_right (a := 2) (by decide), Nat.pow_add]
    exact Nat.lt_of_le_of_lt large (Nat.mul_lt_mul_of_pos_right short (Nat.two_pow_pos e))
  refine ⟨m * 2 ^ (e - lastPlace n), ?_⟩
  rw [Nat.mul_assoc, ← Nat.pow_add, Nat.sub_add_cancel (by unfold lastPlace; omega)]

/- The nearest number that there is room for, of two equally near the one with an even last digit. -/
structure NearestRoom (n r : Nat) : Prop where
  room : HasRoom r
  near : ∀ v, HasRoom v → ((n : Int) - r).natAbs ≤ ((n : Int) - v).natAbs
  even : ∀ v, HasRoom v → v ≠ r → ((n : Int) - v).natAbs = ((n : Int) - r).natAbs →
    2 ^ (lastPlace n + 1) ∣ r

/- A number with fewer digits is not nearer than the least with as many. -/
theorem fewerDigits {n v : Nat} (fewer : v < 2 ^ n.log2) (some : 0 < n) :
    ((n : Int) - kept n).natAbs < ((n : Int) - v).natAbs := by
  have power : HasRoom (2 ^ n.log2) := ⟨1, n.log2, by decide, (Nat.one_mul _).symm⟩
  obtain ⟨k, top⟩ := power.multiple (Nat.le_refl _)
  have nearest := (halfEvenNearest n k (Nat.two_pow_pos (lastPlace n))).1
  have below := Nat.log2_self_le (Nat.ne_of_gt some)
  rw [← top] at nearest
  unfold kept
  omega

theorem keptNearest (n : Nat) : NearestRoom n (kept n) := by
  rcases Nat.eq_zero_or_pos n with rfl | some
  · have zero : kept 0 = 0 := keptShort (by decide)
    exact ⟨keptRoom 0, fun v _ => by omega, fun v _ other same => by omega⟩
  refine ⟨keptRoom n, fun v room => ?_, fun v room other same => ?_⟩
  · rcases Nat.lt_or_ge v (2 ^ n.log2) with fewer | large
    · exact Nat.le_of_lt (fewerDigits fewer some)
    · obtain ⟨k, rfl⟩ := room.multiple large
      exact (halfEvenNearest n k (Nat.two_pow_pos _)).1
  · rcases Nat.lt_or_ge v (2 ^ n.log2) with fewer | large
    · have farther := fewerDigits fewer some
      omega
    · obtain ⟨k, rfl⟩ := room.multiple large
      have parity := (halfEvenNearest n k (Nat.two_pow_pos _)).2 (by rintro rfl; exact other rfl) same
      rw [Nat.pow_succ, Nat.mul_comm]
      exact Nat.mul_dvd_mul_right (Nat.dvd_of_mod_eq_zero parity) _

theorem keptExact (n : Nat) : kept n = n ↔ HasRoom n := by
  constructor
  · intro same
    exact same ▸ keptRoom n
  · intro room
    have nearest := (keptNearest n).near n room
    omega

end Medley.Decimal
