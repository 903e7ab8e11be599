/-!
Sets of characters, and the characters that are digits: decimal ones of every script (Unicode 14)
and those of base sixteen.
-/
namespace Medley.Text

/- Closed ranges of code points, ascending and apart. A lookup stops at the first range that begins
beyond the character. -/

abbrev Ranges := List (Nat × Nat)

def Ranges.contains : Ranges → Nat → Bool
  | [], _ => false
  | (lo, hi) :: rest, n => if n < lo then false else n ≤ hi || Ranges.contains rest n

/-- Each range ends after it begins and the next one begins later still. -/
def Ranges.ascending : Ranges → Bool
  | [] => true
  | [(lo, hi)] => lo ≤ hi
  | (lo, hi) :: (lo', hi') :: rest =>
      lo ≤ hi && hi + 1 < lo' && Ranges.ascending ((lo', hi') :: rest)

def Ranges.count (rs : Ranges) : Nat := rs.foldl (fun n r => n + (r.2 + 1 - r.1)) 0

/- Each script's ten digits stand together in order, so the table holds their zeros. -/

def digitZeros : List Nat :=
  [0x30, 0x660, 0x6F0, 0x7C0, 0x966, 0x9E6, 0xA66, 0xAE6, 0xB66, 0xBE6, 0xC66, 0xCE6, 0xD66,
   0xDE6, 0xE50, 0xED0, 0xF20, 0x1040, 0x1090, 0x17E0, 0x1810, 0x1946, 0x19D0, 0x1A80, 0x1A90,
   0x1B50, 0x1BB0, 0x1C40, 0x1C50, 0xA620, 0xA8D0, 0xA900, 0xA9D0, 0xA9F0, 0xAA50, 0xABF0, 0xFF10,
   0x104A0, 0x10D30, 0x11066, 0x110F0, 0x11136, 0x111D0, 0x112F0, 0x11450, 0x114D0, 0x11650,
   0x116C0, 0x11730, 0x118E0, 0x11950, 0x11C50, 0x11D50, 0x11DA0, 0x16A60, 0x16AC0, 0x16B50,
   0x1D7CE, 0x1D7D8, 0x1D7E2, 0x1D7EC, 0x1D7F6, 0x1E140, 0x1E2F0, 0x1E950, 0x1FBF0]

def digitValue? (c : Char) : Option Nat :=
  let n := c.toNat
  if n < 0x80 then if 0x30 ≤ n && n ≤ 0x39 then some (n - 0x30) else none
  else (digitZeros.find? fun z => z ≤ n && n < z + 10).map fun z => n - z

def isDigit (c : Char) : Bool := (digitValue? c).isSome

def hexDigit (upper : Bool) (n : Nat) : Char :=
  if n < 10 then Char.ofNat (0x30 + n)
  else Char.ofNat ((if upper then 0x41 else 0x61) + (n - 10))

/- The lowest `width` digits of `n`, the highest of them first. -/
def hexFixed (upper : Bool) : Nat → Nat → List Char
  | 0, _ => []
  | width + 1, n => hexFixed upper width (n / 16) ++ [hexDigit upper (n % 16)]

def hexValue? (c : Char) : Option Nat :=
  if '0' ≤ c && c ≤ '9' then some (c.toNat - 0x30)
  else if 'a' ≤ c && c ≤ 'f' then some (c.toNat - 0x61 + 10)
  else if 'A' ≤ c && c ≤ 'F' then some (c.toNat - 0x41 + 10)
  else none

end Medley.Text
