import Medley.Encoding.Utf8

/-! Characters and their bytes. The first byte of a character says how many follow it, each of
these has the highest of its two bits alone, and no second byte is one that the first may not have
behind it; so every character is read back from its bytes, whatever stands behind them. -/
namespace Medley.Encoding.Utf8

theorem byteValue {n : Nat} (low : n < 0x100) : n.toUInt8.toNat = n := by
  simp [Nat.toUInt8, Nat.mod_eq_of_lt low]

theorem scalarBounds (c : Char) : c.toNat < 0xD800 ∨ 0xDFFF < c.toNat ∧ c.toNat < 0x110000 := by
  have valid := c.valid
  simpa [UInt32.isValidChar, Nat.isValidChar] using valid

theorem lowSix (n : Nat) : continues (0x80 + n % 0x40) = true := by
  simp only [continues, Bool.and_eq_true, decide_eq_true_eq]
  omega

theorem tailFirst {first owed value second : Nat} (goes : continuesAfter first second = true)
    (rest : List Nat) : tail first (owed + 1) value 1 (second :: rest) =
      tail first owed (value * 0x40 + (second - 0x80)) 2 rest := by
  simp [tail, goes]

theorem tailNext {first owed value seen b : Nat} (later : seen ≠ 1) (goes : continues b = true)
    (rest : List Nat) : tail first (owed + 1) value seen (b :: rest) =
      tail first owed (value * 0x40 + (b - 0x80)) (seen + 1) rest := by
  simp [tail, goes, later]

/- One case for each number of bytes. A surrogate would be refused behind 0xED, so here the
characters have to be scalar values. -/
theorem nextEncoded (c : Char) (rest : Bytes) : ∃ b bs, encodeChar c = b :: bs ∧
    next b (bs ++ rest) = .char c (bs.length + 1) := by
  have scalar := scalarBounds c
  have low : ∀ m : Nat, (0x80 + m % 0x40).toUInt8.toNat = 0x80 + m % 0x40 := fun m =>
    byteValue (by omega)
  unfold encodeChar
  dsimp only
  generalize whole : c.toNat = n at scalar
  have back : Char.ofNat n = c := whole ▸ Char.ofNat_toNat c
  by_cases one : n < 0x80
  · refine ⟨_, [], if_pos one, ?_⟩
    rw [next, byteValue (by omega)]
    simp [one, back]
  by_cases two : n < 0x800
  · refine ⟨_, _, by rw [if_neg one, if_pos two], ?_⟩
    have lead : (0xC0 + n / 0x40).toUInt8.toNat = 0xC0 + n / 0x40 := byteValue (by omega)
    have second : continuesAfter (0xC0 + n / 0x40) (0x80 + n % 0x40) = true := by
      simp [continuesAfter, lowSix]
      omega
    have value : (0xC0 + n / 0x40 - 0xC0) * 0x40 + (0x80 + n % 0x40 - 0x80) = n := by omega
    simp only [next, lead, List.cons_append, List.nil_append, List.take_succ_cons, List.map_cons,
      low]
    rw [if_neg (by omega), if_neg (by omega), if_pos (by omega), tailFirst second, tail, value,
      back]
    rfl
  by_cases three : n < 0x10000
  · refine ⟨_, _, by rw [if_neg one, if_neg two, if_pos three], ?_⟩
    have lead : (0xE0 + n / 0x1000).toUInt8.toNat = 0xE0 + n / 0x1000 := byteValue (by omega)
    have second : continuesAfter (0xE0 + n / 0x1000) (0x80 + n / 0x40 % 0x40) = true := by
      simp [continuesAfter, lowSix]
      omega
    have value : ((0xE0 + n / 0x1000 - 0xE0) * 0x40 + (0x80 + n / 0x40 % 0x40 - 0x80)) * 0x40 +
        (0x80 + n % 0x40 - 0x80) = n := by omega
    simp only [next, lead, List.cons_append, List.nil_append, List.take_succ_cons, List.map_cons,
      low]
    rw [if_neg (by omega), if_neg (by omega), if_neg (by omega), if_pos (by omega),
      tailFirst second, tailNext (by decide) (lowSix _), tail, value, back]
    rfl
  · refine ⟨_, _, by rw [if_neg one, if_neg two, if_neg three], ?_⟩
    have lead : (0xF0 + n / 0x40000).toUInt8.toNat = 0xF0 + n / 0x40000 := byteValue (by omega)
    have second : continuesAfter (0xF0 + n / 0x40000) (0x80 + n / 0x1000 % 0x40) = true := by
      simp [continuesAfter, lowSix]
      omega
    have value : (((0xF0 + n / 0x40000 - 0xF0) * 0x40 + (0x80 + n / 0x1000 % 0x40 - 0x80)) * 0x40 +
        (0x80 + n / 0x40 % 0x40 - 0x80)) * 0x40 + (0x80 + n % 0x40 - 0x80) = n := by omega
    simp only [next, lead, List.cons_append, List.nil_append, List.take_succ_cons, List.map_cons,
      low]
    rw [if_neg (by omega), if_neg (by omega), if_neg (by omega), if_neg (by omega),
      if_pos (by omega), tailFirst second, tailNext (by decide) (lowSix _),
      tailNext (by decide) (lowSix _), tail, value, back]
    rfl

theorem lossySkip (bs rest : Bytes) :
    decodeLossyFrom bs.length (bs ++ rest) = decodeLossyFrom 0 rest := by
  induction bs with
  | nil => rfl
  | cons b bs ih => exact ih

theorem lossyEncoded (s : List Char) : decodeLossy (encode s) = s := by
  unfold decodeLossy
  induction s with
  | nil => rfl
  | cons c s ih =>
    obtain ⟨b, bs, bytes, read⟩ := nextEncoded c (encode s)
    have whole : encode (c :: s) = b :: (bs ++ encode s) := by
      rw [encode, List.flatMap_cons, bytes, List.cons_append, encode]
    rw [whole, decodeLossyFrom, read]
    dsimp only
    rw [Nat.add_sub_cancel, lossySkip, ih]

end Medley.Encoding.Utf8
