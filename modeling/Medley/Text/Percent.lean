import Medley.Encoding.Utf8
import Medley.Text.Characters
import Medley.Text.Word

/-!
Percent-encoding of text. Letters, digits and the marks `-_.!~*'()` stand for themselves;
every other character becomes its UTF-8 bytes, each a percent sign and two upper-case
hexadecimal digits. Decoding works on each run of ASCII by itself: the bytes of a run are
read as UTF-8 with U+FFFD for what is none, and a percent sign without two digits stays.
-/
namespace Medley.Text.Percent
open Encoding (Bytes)

def unreserved (c : Char) : Bool :=
  isAsciiLetter c || isAsciiDigit c || "-_.!~*'()".toList.contains c

def encodeByte (b : UInt8) : List Char := '%' :: hexFixed true 2 b.toNat

def encodeChar (c : Char) : List Char :=
  if unreserved c then [c] else (Encoding.Utf8.encodeChar c).flatMap encodeByte

def encode (s : List Char) : List Char := s.flatMap encodeChar

/- The bytes that a run of ASCII stands for; `skip` characters belong to the last one. -/
def bytesFrom : Nat → List Char → Bytes
  | _, [] => []
  | skip + 1, _ :: rest => bytesFrom skip rest
  | 0, '%' :: rest => match rest with
    | h :: l :: _ => match hexValue? h, hexValue? l with
      | some h, some l => (16 * h + l).toUInt8 :: bytesFrom 2 rest
      | _, _ => 0x25 :: bytesFrom 0 rest
    | _ => 0x25 :: bytesFrom 0 rest
  | 0, c :: rest => c.toNat.toUInt8 :: bytesFrom 0 rest

def isAscii (c : Char) : Bool := c.toNat < 0x80

/- `run` is the run of ASCII being read, last character first. -/
def decodeFrom (run : List Char) : List Char → List Char
  | [] => Encoding.Utf8.decodeLossy (bytesFrom 0 run.reverse)
  | c :: rest =>
      if isAscii c then decodeFrom (c :: run) rest
      else Encoding.Utf8.decodeLossy (bytesFrom 0 run.reverse) ++ c :: decodeFrom [] rest

def decode (s : List Char) : List Char := decodeFrom [] s

end Medley.Text.Percent
