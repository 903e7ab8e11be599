import Medley.Encoding.Utf8
import Medley.Fault
import Medley.Text.Characters
import Medley.Text.Letters

/-!
Bytes read and written as text in an encoding known by name. What is no text in its encoding
is refused with the place where it begins.
-/
namespace Medley
open Text (hexFixed)

inductive Encoding where
  | utf8
  -- UTF-8 with a mark in front, which reading leaves out where it stands
  | markedUtf8
  | ascii
  | latin1
  -- UTF-16 whose mark says which byte comes first
  | utf16
  | utf16Little
  | utf16Big
  deriving DecidableEq, Repr

namespace Encoding

def names : List (String × Encoding) :=
  [("utf-8", utf8), ("utf8", utf8), ("u8", utf8), ("utf-8-sig", markedUtf8),
   ("ascii", ascii), ("us-ascii", ascii), ("646", ascii),
   ("latin-1", latin1), ("latin1", latin1), ("latin", latin1), ("l1", latin1),
   ("iso-8859-1", latin1), ("iso8859-1", latin1), ("8859", latin1), ("cp819", latin1),
   ("utf-16", utf16), ("utf16", utf16), ("u16", utf16),
   ("utf-16-le", utf16Little), ("utf-16le", utf16Little),
   ("utf-16-be", utf16Big), ("utf-16be", utf16Big)]

/-- The encoding of a name; case does not count, and blanks and low lines are dashes. -/
def ofName (name : String) : Except Fault Encoding :=
  let word := (Text.lower name.toList).map fun c => if c = '_' || c = ' ' then '-' else c
  match names.lookup (String.ofList word) with
  | some e => .ok e
  | none => .error (.unknownEncoding name)

def cannotDecode (codec : String) (start width : Nat) (first : UInt8) (reason : String) : Fault :=
  let what :=
    if width = 1 then s!"byte 0x{String.ofList (hexFixed false 2 first.toNat)} in position {start}"
    else s!"bytes in position {start}-{start + width - 1}"
  .undecodable s!"'{codec}' codec can't decode {what}: {reason}"

def escapedChar (c : Char) : String :=
  String.ofList <|
    if c.toNat < 0x100 then '\\' :: 'x' :: hexFixed false 2 c.toNat
    else if c.toNat < 0x10000 then '\\' :: 'u' :: hexFixed false 4 c.toNat
    else '\\' :: 'U' :: hexFixed false 8 c.toNat

def cannotEncode (codec : String) (start width : Nat) (first : Char) (limit : Nat) : Fault :=
  let what :=
    if width = 1 then s!"character '{escapedChar first}' in position {start}"
    else s!"characters in position {start}-{start + width - 1}"
  .unencodable s!"'{codec}' codec can't encode {what}: ordinal not in range({limit})"

namespace Utf8

def Reason.text : Reason → String
  | .invalidStart => "invalid start byte"
  | .invalidContinuation => "invalid continuation byte"
  | .unexpectedEnd => "unexpected end of data"

def decodeText (bytes : Bytes) : Except Medley.Fault (List Char) :=
  match decode bytes with
  | .ok cs => .ok cs
  | .error f => .error (cannotDecode "utf-8" f.start f.width f.first f.reason.text)

end Utf8

/- Too short a file for the mark, but a part of it, is no text at all. -/
def decodeMarked : Bytes → Except Fault (List Char)
  | [0xEF] | [0xEF, 0xBB] => .ok []
  | 0xEF :: 0xBB :: 0xBF :: rest => Utf8.decodeText rest
  | bytes => Utf8.decodeText bytes

def decodeAscii (offset : Nat) : Bytes → Except Fault (List Char)
  | [] => .ok []
  | b :: rest =>
      if b < 0x80 then (decodeAscii (offset + 1) rest).map (Char.ofNat b.toNat :: ·)
      else .error (cannotDecode "ascii" offset 1 b "ordinal not in range(128)")

def unit (big : Bool) (a b : UInt8) : Nat :=
  if big then a.toNat * 0x100 + b.toNat else b.toNat * 0x100 + a.toNat

def codec16 (big : Bool) : String := if big then "utf-16-be" else "utf-16-le"

def isHighHalf (n : Nat) : Bool := 0xD800 ≤ n && n < 0xDC00

def isLowHalf (n : Nat) : Bool := 0xDC00 ≤ n && n < 0xE000

def decode16 (big : Bool) (offset : Nat) : Bytes → Except Fault (List Char)
  | [] => .ok []
  | [a] => .error (cannotDecode (codec16 big) offset 1 a "truncated data")
  | a :: b :: rest =>
      let n := unit big a b
      if isLowHalf n then .error (cannotDecode (codec16 big) offset 2 a "illegal encoding")
      else if isHighHalf n then match rest with
        | c :: d :: after =>
            let m := unit big c d
            if isLowHalf m then
              (decode16 big (offset + 4) after).map
                (Char.ofNat (0x10000 + (n - 0xD800) * 0x400 + (m - 0xDC00)) :: ·)
            else .error (cannotDecode (codec16 big) offset 2 a "illegal UTF-16 surrogate")
        | short =>
            .error (cannotDecode (codec16 big) offset (2 + short.length) a "unexpected end of data")
      else (decode16 big (offset + 2) rest).map (Char.ofNat n :: ·)

/- Without a mark the low byte comes first, but then the text is refused after all. -/
def decodeMarked16 : Bytes → Except Fault (List Char)
  | 0xFF :: 0xFE :: rest => decode16 false 2 rest
  | 0xFE :: 0xFF :: rest => decode16 true 2 rest
  | bytes => do
      let cs ← decode16 false 0 bytes
      if bytes.length < 2 then .ok cs else .error .missingByteOrderMark

def decode (e : Encoding) (bytes : Bytes) : Except Fault (List Char) :=
  match e with
  | utf8 => Utf8.decodeText bytes
  | markedUtf8 => decodeMarked bytes
  | ascii => decodeAscii 0 bytes
  | latin1 => .ok (bytes.map fun b => Char.ofNat b.toNat)
  | utf16 => decodeMarked16 bytes
  | utf16Little => decode16 false 0 bytes
  | utf16Big => decode16 true 0 bytes

def encodeBelow (codec : String) (limit : Nat) (s : List Char) : Except Fault Bytes :=
  let fits (c : Char) : Bool := c.toNat < limit
  match s.dropWhile fits with
  | [] => .ok (s.map fun c => c.toNat.toUInt8)
  | c :: rest =>
      let start := (s.takeWhile fits).length
      let width := ((c :: rest).takeWhile fun c => !fits c).length
      .error (cannotEncode codec start width c limit)

def unitBytes (big : Bool) (n : Nat) : Bytes :=
  if big then [(n / 0x100).toUInt8, (n % 0x100).toUInt8]
  else [(n % 0x100).toUInt8, (n / 0x100).toUInt8]

def encodeChar16 (big : Bool) (c : Char) : Bytes :=
  let n := c.toNat
  if n < 0x10000 then unitBytes big n
  else
    unitBytes big (0xD800 + (n - 0x10000) / 0x400) ++ unitBytes big (0xDC00 + (n - 0x10000) % 0x400)

def encode (e : Encoding) (s : List Char) : Except Fault Bytes :=
  match e with
  | utf8 => .ok (Utf8.encode s)
  | markedUtf8 => .ok (0xEF :: 0xBB :: 0xBF :: Utf8.encode s)
  | ascii => encodeBelow "ascii" 128 s
  | latin1 => encodeBelow "latin-1" 256 s
  | utf16 => .ok (0xFF :: 0xFE :: s.flatMap (encodeChar16 false))
  | utf16Little => .ok (s.flatMap (encodeChar16 false))
  | utf16Big => .ok (s.flatMap (encodeChar16 true))

end Encoding
end Medley
