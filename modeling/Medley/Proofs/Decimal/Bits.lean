import Mathlib
import Medley.Decimal.Binary

/-! The bits of a binary floating-point value. Taking them apart is the same as unpacking the value,
and a value with a full mantissa is unpacked as it was packed. -/
namespace Medley.Decimal
open Float.Model Float.Model.UnpackedFloat

theorem exponentBits (b : UInt64) : ((b >>> 52) &&& 0x7FF).toNat = b.toNat / 2 ^ 52 % 2 ^ 11 := by
  rw [UInt64.toNat_and, UInt64.toNat_shiftRight]
  change b.toNat >>> 52 &&& (2 ^ 11 - 1) = _
  rw [Nat.and_two_pow_sub_one_eq_mod, Nat.shiftRight_eq_div_pow]

theorem mantissaBits (b : UInt64) : (b &&& 0xFFFFFFFFFFFFF).toNat = b.toNat % 2 ^ 52 := by
  rw [UInt64.toNat_and]
  change b.toNat &&& (2 ^ 52 - 1) = _
  rw [Nat.and_two_pow_sub_one_eq_mod]

theorem signBit (b : UInt64) : (b >>> 63 == 1) = decide (b.toNat / 2 ^ 63 = 1) := by
  rw [Bool.eq_iff_iff, beq_iff_eq, decide_eq_true_eq, ← UInt64.toNat_inj, UInt64.toNat_shiftRight]
  change b.toNat >>> 63 = 1 ↔ _
  rw [Nat.shiftRight_eq_div_pow]

theorem unpackedExponent (b : UInt64) :
    (@unpackExponent Format.binary64 b.toBitVec).toNat = b.toNat / 2 ^ 52 % 2 ^ 11 := by
  simp [unpackExponent, Nat.shiftRight_eq_div_pow]

theorem unpackedMantissa (b : UInt64) :
    (@unpackMantissa Format.binary64 b.toBitVec).toNat = b.toNat % 2 ^ 52 := by
  simp [unpackMantissa]

theorem unpackedSign (b : UInt64) :
    (@unpackSign Format.binary64 b.toBitVec).toNat = b.toNat / 2 ^ 63 := by
  have := b.toNat_lt
  simp [unpackSign, Nat.shiftRight_eq_div_pow]
  omega

theorem implicitBit (f : BitVec 52) : (1#1 ++ f).toNat = 2 ^ 52 + f.toNat := by
  rw [BitVec.toNat_append, ← Nat.shiftLeft_add_eq_or_of_lt f.isLt]
  rfl

def isMinus : Sign → Bool
  | .negative => true
  | .positive => false

theorem isMinusBit (s : BitVec 1) : isMinus (Sign.ofBitVec s) = decide (s.toNat = 1) := by
  have bit : s.toNat = 0 ∨ s.toNat = 1 := by
    have := s.isLt
    omega
  rcases bit with zero | one
  · rw [show s = 0#1 from BitVec.eq_of_toNat_eq zero]
    rfl
  · rw [show s = 1#1 from BitVec.eq_of_toNat_eq one]
    rfl

def Parts.ofUnpacked : UnpackedFloat → Parts
  | .notANumber => .nan
  | .infinity s => .infinite (isMinus s)
  | .zero s => .finite (isMinus s) ⟨0, -1074, false⟩
  | .finite s m e _ => .finite (isMinus s) ⟨m, e, m = 2 ^ 52 && -1074 < e⟩

theorem Parts.ofFloatUnpacked (x : Float) : Parts.ofFloat x = .ofUnpacked x.toModel.unpack := by
  rw [Parts.ofFloat, Float.toBits, Float.Model.unpack]
  generalize x.toModel.toBits = b
  have ones : @unpackExponent Format.binary64 b.toBitVec = -1#_ ↔
      b.toNat / 2 ^ 52 % 2 ^ 11 = 0x7FF := by
    rw [← BitVec.toNat_inj, unpackedExponent]
    rfl
  have zeros : @unpackExponent Format.binary64 b.toBitVec = 0#_ ↔
      b.toNat / 2 ^ 52 % 2 ^ 11 = 0 := by
    rw [← BitVec.toNat_inj, unpackedExponent]
    rfl
  have empty : @unpackMantissa Format.binary64 b.toBitVec = 0#_ ↔
      b.toNat % 2 ^ 52 = 0 := by
    rw [← BitVec.toNat_inj, unpackedMantissa]
    rfl
  rw [Parts.ofBits, signBit, exponentBits, mantissaBits, UnpackedFloat.unpack]
  simp only [ones, zeros, empty, unpackedExponent]
  split
  · split
    · simp [ofUnpacked, isMinusBit, unpackedSign]
    · rfl
  · have bias : (Format.binary64.exponentBias + Format.binary64.mantissaBitsWithoutImplicit : Int) =
      1075 := rfl
    -- A value with the least exponent has no digit before its fraction, every other one has a one.
    split
    · rename_i subnormal
      split
      · rename_i zero
        simp only [ofUnpacked, isMinusBit, unpackedSign, zero]
      · have small : ¬ b.toNat % 2 ^ 52 = 2 ^ 52 := by omega
        simp only [ofUnpacked, isMinusBit, unpackedSign, unpackedMantissa, subnormal, bias, small]
        rfl
    · have whole : (b.toNat % 2 ^ 52 = 0) = (2 ^ 52 + b.toNat % 2 ^ 52 = 2 ^ 52) := by
        rw [eq_iff_iff]
        omega
      simp only [ofUnpacked, isMinusBit, unpackedSign, implicitBit, unpackedMantissa, bias, whole]
      have place : 1 < b.toNat / 2 ^ 52 % 2 ^ 11 ↔
          (-1074 : Int) < (b.toNat / 2 ^ 52 % 2 ^ 11 : Nat) - 1075 := by omega
      rw [decide_eq_decide.mpr place]
      rfl

theorem packedSign {spec : Format} (s : Sign) (e : BitVec spec.exponentBits)
    (f : BitVec spec.mantissaBitsWithoutImplicit) :
    unpackSign (packComponents spec s e f) = s.toBitVec := by
  apply BitVec.eq_of_getLsbD_eq
  intro i bit
  obtain rfl : i = 0 := by omega
  simp [unpackSign, packComponents, BitVec.getLsbD_append, BitVec.getElem_append]

theorem ofToBitVec (s : Sign) : Sign.ofBitVec s.toBitVec = s := by
  cases s <;> rfl

theorem unpackPackZero (s : Sign) : (Float.Model.pack (.zero s)).unpack = .zero s := by
  cases s <;> rfl

theorem unpackPack (s : Sign) {m : Nat} {e : Int} (some : 0 < m) (full : m.log2 = 52)
    (low : -1074 ≤ e) (high : e ≤ 971) :
    (Float.Model.pack (.finite s m e some)).unpack = .finite s m e some := by
  obtain ⟨least, most⟩ := (Nat.log2_eq_iff (Nat.ne_of_gt some)).mp full
  have bias : e + Format.binary64.exponentBias + Format.binary64.mantissaBitsWithoutImplicit =
      e + 1075 := by
    change e + 1023 + 52 = e + 1075
    omega
  have field : (BitVec.ofNat 11 (e + 1075).toNat).toNat = (e + 1075).toNat := by
    rw [BitVec.toNat_ofNat, Nat.mod_eq_of_lt (by omega)]
  have ones : ¬ BitVec.ofNat 11 (e + 1075).toNat = -1#11 := by
    rw [← BitVec.toNat_inj, field]
    change ¬ (e + 1075).toNat = 2047
    omega
  have zeros : ¬ BitVec.ofNat 11 (e + 1075).toNat = 0#11 := by
    rw [← BitVec.toNat_inj, field]
    change ¬ (e + 1075).toNat = 0
    omega
  have mantissa : (1#1 ++ BitVec.ofNat 52 m).toNat = m := by
    rw [implicitBit, BitVec.toNat_ofNat]
    omega
  have packed : UnpackedFloat.pack Format.binary64 (.finite s m e some) =
      packComponents Format.binary64 s (BitVec.ofNat 11 (e + 1075).toNat) (BitVec.ofNat 52 m) := by
    simp only [UnpackedFloat.pack, bias]
    rw [if_neg (by omega), if_pos (by rw [full]; rfl)]
  rw [Float.Model.unpack, Float.Model.pack]
  dsimp only
  rw [packed, UnpackedFloat.unpack]
  simp only [unpackMantissa_packComponents, unpackExponent_packComponents, packedSign, ofToBitVec]
  rw [if_neg ones, if_neg zeros]
  simp only [mantissa, field]
  congr 1
  change ((e + 1075).toNat : Int) - (1023 + 52) = e
  omega

end Medley.Decimal
