import Mathlib.Tactic.Ring
import Medley.Decimal.Rounded
import Medley.Proofs.Decimal.Bits
import Medley.Proofs.Decimal.Doubles

/-! Whole numbers turned into floats, as they stand and as so many hundredths. Either way the float
holds what there is room for of the number. -/
namespace Medley.Decimal
open Float.Model Float.Model.UnpackedFloat

/- The float stands for a whole number. -/
inductive Holds (x : Float) (s : Sign) : Nat → Prop where
  | zero (unpacked : x.toModel.unpack = .zero s) : Holds x s 0
  | finite {m e n} (some : 0 < m) (unpacked : x.toModel.unpack = .finite s m e some)
      (fills : Fills m e n) : Holds x s n

theorem Fills.unpacked {m n : Nat} {e : Int} (h : Fills m e n) (s : Sign) (some : 0 < m) :
    (Float.Model.pack (.finite s m e some)).unpack = .finite s m e some := by
  have low := h.low
  exact unpackPack s some h.full (by omega) h.high

/-- The float that a whole number with zeros behind it is rounded to. -/
inductive Rounded (n : Nat) : Float → Prop where
  | of (j : Nat) (full : 52 ≤ n.log2 + j) : Rounded n
      ⟨.pack (roundWithAccuracy Format.binary64 .positive (n * 2 ^ j) (-j) .exact)⟩

theorem Binary.roundWhole {b : Binary} {n : Nat} (value : b.m * twos b.q = n * twos (-b.q))
    (places : Nat) : b.roundPlaces places = n * tens places := by
  rw [roundPlaces, value, Nat.mul_right_comm]
  exact halfEvenWhole _ (Nat.two_pow_pos _)

namespace Holds
variable {x : Float} {s : Sign} {n : Nat}

theorem ofRounded (some : 0 < n) (small : n.log2 ≤ 1022) (h : Rounded n x) :
    Holds x .positive (kept n) := by
  obtain ⟨j, full⟩ := h
  obtain ⟨m, e, h, rounded, fills⟩ := roundFills .positive some full small
  refine .finite h ?_ fills
  rw [rounded]
  exact fills.unpacked .positive h

theorem neg (h : Holds x s n) : Holds (-x) (-s) n := by
  change Holds ⟨.pack x.toModel.unpack.neg⟩ (-s) n
  cases h with
  | zero unpacked =>
    refine .zero ?_
    rw [unpacked]
    exact unpackPackZero (-s)
  | finite some unpacked fills =>
    refine .finite some ?_ fills
    rw [unpacked]
    exact fills.unpacked (-s) some

theorem abs (h : Holds x s n) : Holds x.abs .positive n := by
  change Holds ⟨.pack x.toModel.unpack.abs⟩ .positive n
  cases h with
  | zero unpacked =>
    refine .zero ?_
    rw [unpacked]
    exact unpackPackZero .positive
  | finite some unpacked fills =>
    refine .finite some ?_ fills
    rw [unpacked]
    exact fills.unpacked .positive some

theorem places (h : Holds x s n) : ∃ b, Parts.ofFloat x = .finite (isMinus s) b ∧
    ∀ places, b.roundPlaces places = n * tens places := by
  rw [Parts.ofFloatUnpacked]
  cases h with
  | zero unpacked =>
    rw [unpacked]
    refine ⟨⟨0, -1074, false⟩, rfl, Binary.roundWhole ?_⟩
    rw [Nat.zero_mul, Nat.zero_mul]
  | finite some unpacked fills =>
    rw [unpacked]
    exact ⟨_, rfl, Binary.roundWhole fills.value⟩

end Holds

theorem Fills.short {m n : Nat} {e : Int} (h : Fills m e n) (short : n < 2 ^ 53) :
    ∃ j : Nat, e = -j ∧ m = n * 2 ^ j := by
  have least : 2 ^ 52 ≤ m := by
    rw [← h.full]
    exact Nat.log2_self_le (by rintro rfl; exact absurd h.full (by decide))
  have value := h.value
  rcases Int.lt_or_le 0 e with positive | le
  · have forth : 2 ^ 1 ≤ twos e := Nat.pow_le_pow_right (by decide) (by omega)
    have back : twos (-e) = 1 := twosNone (by omega)
    have large := Nat.mul_le_mul least forth
    rw [back] at value
    omega
  · rw [twosNone le, Nat.mul_one] at value
    exact ⟨(-e).toNat, by omega, value⟩

theorem shortLog2 {n : Nat} (short : n < 2 ^ 53) : n.log2 ≤ 52 := by
  rcases Nat.eq_zero_or_pos n with rfl | some
  · decide
  · have := (Nat.log2_lt (Nat.ne_of_gt some)).mpr short
    omega

theorem shortRounded {n : Nat} (some : 0 < n) (short : n < 2 ^ 53) :
    Rounded n n.toUInt64.toFloat := by
  have word : n.toUInt64.toNat = n := by
    rw [Nat.toUInt64, UInt64.toNat_ofNat', Nat.mod_eq_of_lt]
    omega
  have log := shortLog2 short
  have positive : compare (n : Int) 0 = .gt := by
    rw [compare_gt_iff_gt]
    omega
  have target : Format.binary64.targetExponent (totalExponent n 0) = (n.log2 : Int) - 52 := by
    simp only [Format.targetExponent, totalExponent, Format.mantissaBits, Format.minExponent]
    norm_num
    omega
  have shift : (-((n.log2 : Int) - 52)).toNat = 52 - n.log2 := by omega
  have rounded : UnpackedFloat.ofUInt64 Format.binary64 n.toUInt64 =
      roundWithAccuracy Format.binary64 .positive (n * 2 ^ (52 - n.log2)) (-(52 - n.log2 : Nat))
        .exact := by
    rw [UnpackedFloat.ofUInt64, word, UnpackedFloat.ofNat, UnpackedFloat.ofInt,
      UnpackedFloat.normalize, positive]
    simp only [UnpackedFloat.round, decreaseExponent, Int.toNat_natCast, target,
      Nat.shiftLeft_eq, Int.zero_sub, shift]
  change Rounded n ⟨.pack (UnpackedFloat.ofUInt64 Format.binary64 n.toUInt64)⟩
  rw [rounded]
  exact .of _ (by omega)

theorem shortUnpacked {n : Nat} (some : 0 < n) (short : n < 2 ^ 53) :
    ∃ (j : Nat) (h : 0 < n * 2 ^ j), n.toUInt64.toFloat.toModel.unpack =
      .finite .positive (n * 2 ^ j) (-j) h ∧ (n * 2 ^ j).log2 = 52 := by
  have log := shortLog2 short
  have held := Holds.ofRounded some (by omega) (shortRounded some short)
  rw [keptShort log] at held
  cases held with
  | zero => omega
  | finite h unpacked fills =>
    obtain ⟨j, rfl, rfl⟩ := fills.short short
    exact ⟨j, h, unpacked, fills.full⟩

theorem log2Hundredfold {n : Nat} (some : 0 < n) : (n * 100).log2 ≤ n.log2 + 7 := by
  have below := Nat.lt_log2_self (n := n)
  have factor : 2 ^ (n.log2 + 1 + 7) = 2 ^ (n.log2 + 1) * 128 := Nat.pow_add _ _ _
  have := (Nat.log2_lt (n := n * 100) (k := n.log2 + 1 + 7) (by omega)).mpr (by omega)
  omega

theorem unpackedOne : (Float.ofBits 0x3FF0000000000000).toModel.unpack =
    .finite .positive (2 ^ 52) (-52) (by decide) := rfl

theorem unpackedHundred : (Float.ofBits 0x4059000000000000).toModel.unpack =
    .finite .positive (100 * 2 ^ 46) (-46) (by decide) := rfl

theorem wholeRounded {n : Nat} (some : 0 < n) : Rounded n (Float.ofScientific n false 0) := by
  by_cases short : n < 2 ^ 53
  · obtain ⟨j, h, unpacked, full⟩ := shortUnpacked some short
    rw [log2Scaled some] at full
    have product : n.toUInt64.toFloat * Float.ofBits 0x3FF0000000000000 =
        ⟨.pack (roundWithAccuracy Format.binary64 .positive (n * 2 ^ (j + 52))
          (-(j + 52 : Nat)) .exact)⟩ := by
      change (⟨.pack (UnpackedFloat.mul _ _ _)⟩ : Float) = _
      rw [unpacked, unpackedOne, UnpackedFloat.mul, Nat.mul_assoc, ← Nat.pow_add]
      congr 3
      omega
    rw [Float.ofScientific, dif_pos ⟨short, by decide⟩]
    change Rounded n (n.toUInt64.toFloat * Float.ofBits 0x3FF0000000000000)
    rw [product]
    exact .of _ (by omega)
  · have past : ¬ (0 : Int) > 2 ^ Format.binary64.exponentBits := by decide
    have near : ¬ (0 : Int) < -((2 ^ Format.binary64.exponentBits : Int) + n.log2) := by
      change ¬ (0 : Int) < -((2 ^ 11 : Int) + n.log2)
      omega
    have product : Float.Model.ofScientific n 0 =
        .pack (roundWithAccuracy Format.binary64 .positive (n * 2 ^ 53) (-(53 : Nat)) .exact) := by
      rw [Float.Model.ofScientific, UnpackedFloat.ofScientific, dif_neg (Nat.ne_of_gt some),
        if_neg past, if_neg near, if_pos (Int.le_refl 0), UnpackedFloat.mul, Nat.shiftLeft_eq,
        show Int.toNat 0 = 0 from rfl, Nat.pow_zero, Nat.mul_one]
      rfl
    rw [Float.ofScientific, dif_neg (fun fast => short fast.1)]
    change Rounded n ⟨Float.Model.ofScientific n 0⟩
    rw [product]
    exact .of _ (by omega)

/- A quotient that comes out even. -/
theorem divWhole {m₁ m₂ q : Nat} {e₁ e₂ t : Int} (divisor : 0 < m₂)
    (target : min (e₁ - e₂) (max ((m₁.log2 : Int) + e₁ - m₂.log2 - e₂ - 53) (-1074)) = t)
    (whole : m₁ * 2 ^ (e₁ - e₂ - t).toNat = q * m₂) :
    divCore Format.binary64 m₁ e₁ m₂ e₂ = (q, t, .exact) := by
  have same : min (e₁ - e₂) (Format.binary64.targetExponent
      (totalExponent m₁ e₁ - totalExponent m₂ e₂)) = t := by
    rw [← target]
    simp only [Format.targetExponent, totalExponent, Format.mantissaBits, Format.minExponent]
    norm_num
    omega
  simp only [divCore, same, Nat.shiftLeft_eq, whole, Nat.mul_div_left q divisor,
    Nat.mul_mod_left, accuracyOfFraction, if_pos]

theorem hundredthsShort {n : Nat} (some : 0 < n) (short : n * 100 < 2 ^ 53) :
    Rounded n (Float.ofScientific (n * 100) true 2) := by
  have more := log2Hundredfold some
  obtain ⟨j, h, unpacked, full⟩ := shortUnpacked (by omega) short
  have scaled := log2Scaled (n := n * 100) (by omega) j
  rw [full] at scaled
  have hundred : (100 * 2 ^ 46).log2 = 52 := by decide
  have divided : divCore Format.binary64 (n * 100 * 2 ^ j) (-j) (100 * 2 ^ 46) (-46) =
      (n * 2 ^ (j + 7), -(j : Int) - 7, .exact) := by
    refine divWhole (by decide) ?_ ?_
    · rw [full, hundred]
      omega
    · rw [show (-j : Int) - -46 - (-j - 7) = 53 by omega, Nat.pow_add]
      change n * 100 * 2 ^ j * 2 ^ 53 = _
      ring
  have quotient : (n * 100).toUInt64.toFloat / Float.ofBits 0x4059000000000000 =
      ⟨.pack (roundWithAccuracy Format.binary64 .positive (n * 2 ^ (j + 7))
        (-(j + 7 : Nat)) .exact)⟩ := by
    change (⟨.pack (UnpackedFloat.div _ _ _)⟩ : Float) = _
    rw [unpacked, unpackedHundred, UnpackedFloat.div, divided]
    dsimp only
    congr 3
    omega
  rw [Float.ofScientific, dif_pos ⟨short, by decide⟩]
  change Rounded n ((n * 100).toUInt64.toFloat / Float.ofBits 0x4059000000000000)
  rw [quotient]
  exact .of _ (by omega)

theorem hundredthsLong {n : Nat} (long : ¬ n * 100 < 2 ^ 53) :
    Rounded n (Float.ofScientific (n * 100) true 2) := by
  have more := log2Hundredfold (n := n) (by omega)
  have past : ¬ (-2 : Int) > 2 ^ Format.binary64.exponentBits := by decide
  have near : ¬ (-2 : Int) < -((2 ^ Format.binary64.exponentBits : Int) + (n * 100).log2) := by
    change ¬ (-2 : Int) < -((2 ^ 11 : Int) + (n * 100).log2)
    omega
  have hundred : (10 ^ 2).log2 = 6 := by decide
  have divided : divCore Format.binary64 (n * 100) 0 (10 ^ 2) 0 =
      (n * 2 ^ (59 - (n * 100).log2), -((59 - (n * 100).log2 : Nat) : Int), .exact) := by
    refine divWhole (by decide) ?_ ?_
    · rw [hundred]
      omega
    · rw [show (0 - 0 - -((59 - (n * 100).log2 : Nat) : Int)).toNat = 59 - (n * 100).log2 by omega]
      exact Nat.mul_right_comm _ _ _
  have quotient : Float.Model.ofScientific (n * 100) (-2) =
      .pack (roundWithAccuracy Format.binary64 .positive (n * 2 ^ (59 - (n * 100).log2))
        (-(59 - (n * 100).log2 : Nat)) .exact) := by
    rw [Float.Model.ofScientific, UnpackedFloat.ofScientific, dif_neg (by omega), if_neg past,
      if_neg near, if_neg (by decide), UnpackedFloat.div, show (-(-2 : Int)).toNat = 2 from rfl,
      divided]
    rfl
  rw [Float.ofScientific, dif_neg (fun fast => long fast.1)]
  change Rounded n ⟨Float.Model.ofScientific (n * 100) (-2)⟩
  rw [quotient]
  exact .of _ (by omega)

theorem hundredthsRounded {n : Nat} (some : 0 < n) :
    Rounded n (Float.ofScientific (n * 100) true 2) := by
  by_cases short : n * 100 < 2 ^ 53
  · exact hundredthsShort some short
  · exact hundredthsLong short

namespace Holds

theorem signed {x : Float} {n : Nat} (h : Holds x .positive n) (negative : Bool) :
    ∃ s, isMinus s = negative ∧ Holds (if negative then -x else x) s n := by
  cases negative with
  | false => exact ⟨.positive, rfl, h⟩
  | true => exact ⟨.negative, rfl, h.neg⟩

theorem fixed {x : Float} {s : Sign} {n : Nat} (h : Holds x s n) (group : Bool) (places : Nat) :
    floatFixed group places x = signText (isMinus s) ++ fixedText group places (n * tens places) := by
  obtain ⟨b, parts, whole⟩ := h.places
  rw [floatFixed, parts]
  dsimp only
  rw [whole]

end Holds

theorem floatOfIntHeld (n : Int) (small : n.natAbs.log2 ≤ 1022) :
    ∃ s, isMinus s = decide (n < 0) ∧ Holds (floatOfInt n) s (kept n.natAbs) := by
  have held : Holds (Float.ofScientific n.natAbs false 0) .positive (kept n.natAbs) := by
    rcases Nat.eq_zero_or_pos n.natAbs with zero | some
    · rw [zero]
      exact .zero rfl
    · exact .ofRounded some small (wholeRounded some)
  simpa [floatOfInt] using held.signed (decide (n < 0))

theorem hundredthsHeld (negative : Bool) (n : Nat) (small : n.log2 ≤ 1022) :
    Holds (Amount.toFloat ⟨negative, n * 100, -2⟩).abs .positive (kept n) := by
  have held : Holds (if n * 100 = 0 then 0.0 else Float.ofScientific (n * 100) true 2)
      .positive (kept n) := by
    rcases Nat.eq_zero_or_pos n with rfl | some
    · exact .zero rfl
    · rw [if_neg (by omega)]
      exact .ofRounded some small (hundredthsRounded some)
  obtain ⟨s, _, held⟩ := held.signed negative
  exact held.abs

end Medley.Decimal
