import Medley.Helper.Texts
import Medley.Proofs.Encoding.Utf8
import Medley.Proofs.Text.Pieces

/-! Percent-encoding and back. What is written is ASCII alone, so it is read as one run, and every
group in it as the byte that it stands for; a percent sign of the text is a group like any other
and is decoded once. -/
namespace Medley.Text.Percent
open Encoding (Bytes)

def Plain (c : Char) : Prop :=
  isAsciiLetter c ∨ isAsciiDigit c ∨ c ∈ ['-', '_', '.', '!', '~', '*', '\'', '(', ')']

def UpperHex (c : Char) : Prop := '0' ≤ c ∧ c ≤ '9' ∨ 'A' ≤ c ∧ c ≤ 'F'

/-- Characters that stand for themselves and groups of a percent sign with two digits, in any
order. -/
inductive Written : List Char → Prop where
  | nil : Written []
  | plain {c s} (plain : Plain c) (rest : Written s) : Written (c :: s)
  | byte {h l s} (high : UpperHex h) (low : UpperHex l) (rest : Written s) :
      Written ('%' :: h :: l :: s)

theorem hexDigits : ∀ d < 16,
    UpperHex (hexDigit true d) ∧ hexValue? (hexDigit true d) = some d := by
  unfold UpperHex
  decide

theorem encodeByteDigits (b : UInt8) :
    encodeByte b = ['%', hexDigit true (b.toNat / 16 % 16), hexDigit true (b.toNat % 16)] := rfl

theorem unreservedPlain {c : Char} (h : unreserved c = true) : Plain c := by
  simp only [unreserved, Bool.or_eq_true, List.contains_iff_mem] at h
  rcases h with (letter | digit) | mark
  · exact .inl letter
  · exact .inr (.inl digit)
  · exact .inr (.inr (by simpa using mark))

theorem plainAscii {c : Char} (h : Plain c) : c.toNat < 0x80 ∧ c ≠ '%' := by
  rcases h with letter | digit | mark
  · simp only [isAsciiLetter, Bool.or_eq_true, Bool.and_eq_true, decide_eq_true_eq] at letter
    refine ⟨?_, fun same => by subst same; revert letter; decide⟩
    rcases letter with ⟨_, high⟩ | ⟨_, high⟩
    · exact Nat.lt_of_le_of_lt high (by decide)
    · exact Nat.lt_of_le_of_lt high (by decide)
  · simp only [isAsciiDigit, Bool.and_eq_true, decide_eq_true_eq] at digit
    refine ⟨Nat.lt_of_le_of_lt digit.2 (by decide), fun same => by subst same; revert digit; decide⟩
  · exact eachOf (p := fun c => c.toNat < 0x80 ∧ c ≠ '%') (by decide) c mark

theorem hexAscii {c : Char} (h : UpperHex c) : c.toNat < 0x80 := by
  rcases h with ⟨_, high⟩ | ⟨_, high⟩
  · exact Nat.lt_of_le_of_lt high (by decide)
  · exact Nat.lt_of_le_of_lt high (by decide)

theorem writtenAscii {s : List Char} (h : Written s) : ∀ c ∈ s, isAscii c = true := by
  induction h with
  | nil => simp
  | plain plain rest ih => simpa [isAscii, (plainAscii plain).1] using ih
  | byte high low rest ih => simpa [isAscii, hexAscii high, hexAscii low] using ih

theorem writtenBytes (bs : Bytes) {s : List Char} (rest : Written s) :
    Written (bs.flatMap encodeByte ++ s) := by
  induction bs with
  | nil => exact rest
  | cons b bs ih =>
    rw [List.flatMap_cons, encodeByteDigits, List.append_assoc]
    exact .byte (hexDigits _ (Nat.mod_lt _ (by decide))).1
      (hexDigits _ (Nat.mod_lt _ (by decide))).1
      ih

theorem encodeWritten (s : List Char) : Written (encode s) := by
  induction s with
  | nil => exact .nil
  | cons c s ih =>
    rw [encode, List.flatMap_cons, encodeChar, ← encode]
    split
    · rename_i plain
      exact .plain (unreservedPlain plain) ih
    · exact writtenBytes _ ih

theorem bytesPlain {c : Char} (plain : Plain c) (s : List Char) :
    bytesFrom 0 (c :: s) = c.toNat.toUInt8 :: bytesFrom 0 s := by
  rw [bytesFrom]
  exact (plainAscii plain).2

theorem bytesGroup (b : UInt8) (s : List Char) :
    bytesFrom 0 (encodeByte b ++ s) = b :: bytesFrom 0 s := by
  have size : b.toNat < 256 := b.toNat_lt
  have high := (hexDigits (b.toNat / 16 % 16) (Nat.mod_lt _ (by decide))).2
  have low := (hexDigits (b.toNat % 16) (Nat.mod_lt _ (by decide))).2
  have value : 16 * (b.toNat / 16 % 16) + b.toNat % 16 = b.toNat := by omega
  simp only [encodeByteDigits, List.cons_append, List.nil_append, bytesFrom, high, low, value]
  simp [Nat.toUInt8]

theorem bytesGroups (bs : Bytes) (s : List Char) :
    bytesFrom 0 (bs.flatMap encodeByte ++ s) = bs ++ bytesFrom 0 s := by
  induction bs with
  | nil => rfl
  | cons b bs ih => rw [List.flatMap_cons, List.append_assoc, bytesGroup, ih, List.cons_append]

theorem bytesEncoded (s : List Char) : bytesFrom 0 (encode s) = Encoding.Utf8.encode s := by
  induction s with
  | nil => rfl
  | cons c s ih =>
    rw [encode, List.flatMap_cons, encodeChar, ← encode, Encoding.Utf8.encode, List.flatMap_cons,
      ← Encoding.Utf8.encode]
    split
    · rename_i unreserved
      have plain := unreservedPlain unreserved
      have single : Encoding.Utf8.encodeChar c = [c.toNat.toUInt8] := if_pos (plainAscii plain).1
      rw [List.singleton_append, bytesPlain plain, ih, single, List.singleton_append]
    · rw [bytesGroups, ih]

theorem decodeAscii {s : List Char} (ascii : ∀ c ∈ s, isAscii c = true) (run : List Char) :
    decodeFrom run s = Encoding.Utf8.decodeLossy (bytesFrom 0 (run.reverse ++ s)) := by
  induction s generalizing run with
  | nil => rw [decodeFrom, List.append_nil]
  | cons c s ih =>
    rw [decodeFrom, if_pos (ascii c List.mem_cons_self),
      ih (fun d member => ascii d (List.mem_cons_of_mem c member)), List.reverse_cons,
      List.append_assoc, List.singleton_append]

theorem decodeEncode (s : List Char) : decode (encode s) = s := by
  rw [decode, decodeAscii (writtenAscii (encodeWritten s)), List.reverse_nil, List.nil_append,
    bytesEncoded, Encoding.Utf8.lossyEncoded]

/- Without a percent sign nothing was encoded. -/
theorem encodeSame {s : List Char} (absent : '%' ∉ encode s) : encode s = s := by
  induction s with
  | nil => rfl
  | cons c s ih =>
    have whole : encode (c :: s) = encodeChar c ++ encode s := List.flatMap_cons ..
    rw [whole] at absent ⊢
    obtain ⟨first, rest⟩ := not_or.mp (mt List.mem_append.mpr absent)
    unfold encodeChar at first ⊢
    split at first
    · rename_i plain
      rw [if_pos plain, ih rest, List.singleton_append]
    · obtain ⟨b, bs, bytes, _⟩ := Encoding.Utf8.nextEncoded c []
      rw [bytes, List.flatMap_cons, encodeByteDigits] at first
      exact absurd List.mem_cons_self first

end Medley.Text.Percent

namespace Medley.Helper
open Text

theorem urlDecodeEncoded (s : String) :
    urlDecode (.text (String.ofList (Percent.encode s.toList))) = .ok (.text s) := by
  unfold urlDecode
  simp only [Value.display, String.toList_ofList, List.contains_iff_mem]
  split
  · simp [mapText, Value.output, Value.isWritable, Value.display, Except.map,
      Percent.decodeEncode]
  · rename_i absent
    rw [Percent.encodeSame absent]
    simp [stringify, Value.output, Value.isWritable, displayed, Except.map, Value.display]

theorem addressesRestored (s : String) : ∃ e : String, urlEncode (.text s) = .ok (.text e) ∧
    Percent.Written e.toList ∧ urlDecode (.text e) = .ok (.text s) := by
  refine ⟨String.ofList (Percent.encode s.toList), rfl, ?_, urlDecodeEncoded s⟩
  rw [String.toList_ofList]
  exact Percent.encodeWritten s.toList

end Medley.Helper
