import Medley.Encoding.Utf8
import Medley.Text.Characters

/-!
Bytes written as text. Base 64 makes four characters of three bytes, and equals signs fill the last
group. The 128-bit message digest is written in hexadecimal: the message is followed by a one bit,
zeros and its length in bits, and each block of 64 bytes is mixed into four words in 64 rounds.
-/
namespace Medley.Text.Base64
open Encoding (Bytes)

def letter (n : Nat) : Char :=
  if n < 26 then Char.ofNat (0x41 + n)
  else if n < 52 then Char.ofNat (0x61 + (n - 26))
  else if n < 62 then Char.ofNat (0x30 + (n - 52))
  else if n = 62 then '+' else '/'

def encode : Bytes → List Char
  | [] => []
  | [a] =>
      let n := a.toNat * 0x10
      [letter (n / 0x40), letter (n % 0x40), '=', '=']
  | [a, b] =>
      let n := (a.toNat * 0x100 + b.toNat) * 4
      [letter (n / 0x1000), letter (n / 0x40 % 0x40), letter (n % 0x40), '=']
  | a :: b :: c :: rest =>
      let n := (a.toNat * 0x100 + b.toNat) * 0x100 + c.toNat
      letter (n / 0x40000) :: letter (n / 0x1000 % 0x40) :: letter (n / 0x40 % 0x40) ::
        letter (n % 0x40) :: encode rest

end Medley.Text.Base64

namespace Medley.Text.Digest
open Encoding (Bytes)

/-- The whole parts of 2^32 times the absolute sine of 1 to 64. -/
def sines : List UInt32 :=
  [0xD76AA478, 0xE8C7B756, 0x242070DB, 0xC1BDCEEE, 0xF57C0FAF, 0x4787C62A, 0xA8304613, 0xFD469501,
   0x698098D8, 0x8B44F7AF, 0xFFFF5BB1, 0x895CD7BE, 0x6B901122, 0xFD987193, 0xA679438E, 0x49B40821,
   0xF61E2562, 0xC040B340, 0x265E5A51, 0xE9B6C7AA, 0xD62F105D, 0x02441453, 0xD8A1E681, 0xE7D3FBC8,
   0x21E1CDE6, 0xC33707D6, 0xF4D50D87, 0x455A14ED, 0xA9E3E905, 0xFCEFA3F8, 0x676F02D9, 0x8D2A4C8A,
   0xFFFA3942, 0x8771F681, 0x6D9D6122, 0xFDE5380C, 0xA4BEEA44, 0x4BDECFA9, 0xF6BB4B60, 0xBEBFBC70,
   0x289B7EC6, 0xEAA127FA, 0xD4EF3085, 0x04881D05, 0xD9D4D039, 0xE6DB99E5, 0x1FA27CF8, 0xC4AC5665,
   0xF4292244, 0x432AFF97, 0xAB9423A7, 0xFC93A039, 0x655B59C3, 0x8F0CCC92, 0xFFEFF47D, 0x85845DD1,
   0x6FA87E4F, 0xFE2CE6E0, 0xA3014314, 0x4E0811A1, 0xF7537E82, 0xBD3AF235, 0x2AD7D2BB, 0xEB86D391]

def shifts : List UInt32 :=
  [7, 12, 17, 22, 5, 9, 14, 20, 4, 11, 16, 23, 6, 10, 15, 21]

structure Words where
  a : UInt32
  b : UInt32
  c : UInt32
  d : UInt32

def start : Words := ⟨0x67452301, 0xEFCDAB89, 0x98BADCFE, 0x10325476⟩

def rotate (x n : UInt32) : UInt32 := (x <<< n) ||| (x >>> (32 - n))

def round (block : Array UInt32) (w : Words) (i : Nat) (sine : UInt32) : Words :=
  let (f, g) :=
    if i < 16 then ((w.b &&& w.c) ||| (~~~w.b &&& w.d), i)
    else if i < 32 then ((w.d &&& w.b) ||| (~~~w.d &&& w.c), (5 * i + 1) % 16)
    else if i < 48 then (w.b ^^^ w.c ^^^ w.d, (3 * i + 5) % 16)
    else (w.c ^^^ (w.b ||| ~~~w.d), (7 * i) % 16)
  let x := w.a + f + sine + block.getD g 0
  ⟨w.d, w.b + rotate x (shifts.getD (i / 16 * 4 + i % 4) 0), w.b, w.c⟩

def mix (w : Words) (block : Array UInt32) : Words :=
  let w' := sines.zipIdx.foldl (fun acc (sine, i) => round block acc i sine) w
  ⟨w.a + w'.a, w.b + w'.b, w.c + w'.c, w.d + w'.d⟩

def littleEndian : Nat → Nat → Bytes
  | 0, _ => []
  | count + 1, n => (n % 256).toUInt8 :: littleEndian count (n / 256)

def pad (message : Bytes) : Bytes :=
  let zeros := (119 - message.length % 64) % 64
  message ++ 0x80 :: List.replicate zeros 0 ++ littleEndian 8 (message.length * 8)

def toWords : Bytes → List UInt32
  | a :: b :: c :: d :: rest =>
      (a.toUInt32 ||| (b.toUInt32 <<< 8) ||| (c.toUInt32 <<< 16) ||| (d.toUInt32 <<< 24)) ::
        toWords rest
  | _ => []

def blocks : Nat → List UInt32 → List (Array UInt32)
  | 0, _ => []
  | count + 1, words => (words.take 16).toArray :: blocks count (words.drop 16)

def digest (message : Bytes) : Bytes :=
  let words := toWords (pad message)
  let w := (blocks (words.length / 16) words).foldl mix start
  [w.a, w.b, w.c, w.d].flatMap fun x => littleEndian 4 x.toNat

def hexadecimal (message : Bytes) : List Char :=
  (digest message).flatMap fun b => hexFixed false 2 b.toNat

end Medley.Text.Digest
