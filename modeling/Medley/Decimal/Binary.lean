/-!
Binary floating-point values taken apart exactly. A finite value is m · 2^q with its sign;
`narrow` says that the gap to the value below is half the gap to the value above.
-/
namespace Medley.Decimal

/- 2^k and 10^k, and 1 for a negative k. -/
def twos (k : Int) : Nat := Nat.pow 2 k.toNat

def tens (k : Int) : Nat := Nat.pow 10 k.toNat

structure Binary where
  m : Nat
  q : Int
  narrow : Bool
  deriving DecidableEq, Repr

inductive Parts where
  | nan
  | infinite (negative : Bool)
  | finite (negative : Bool) (value : Binary)
  deriving DecidableEq, Repr

namespace Parts

def ofBits (bits : UInt64) : Parts :=
  let negative := bits >>> 63 == 1
  let e := ((bits >>> 52) &&& 0x7FF).toNat
  let f := (bits &&& 0xFFFFFFFFFFFFF).toNat
  if e = 0x7FF then if f = 0 then .infinite negative else .nan
  else if e = 0 then .finite negative ⟨f, -1074, false⟩
  else .finite negative ⟨twos 52 + f, (e : Int) - 1075, f = 0 && 1 < e⟩

def ofFloat (x : Float) : Parts := ofBits x.toBits

end Parts

namespace Binary

def whole (b : Binary) : Nat := if 0 ≤ b.q then b.m * twos b.q else b.m / twos (-b.q)

def isWhole (b : Binary) : Bool := 0 ≤ b.q || b.m % twos (-b.q) == 0

end Binary

def signed (negative : Bool) (n : Nat) : Int := if negative then -(n : Int) else n

/-- The float nearest to an integer, the even one of two; infinite beyond the range. -/
def floatOfInt (n : Int) : Float :=
  let x := Float.ofScientific n.natAbs false 0
  if n < 0 then -x else x

/- The order of a finite value and an integer, compared exactly. -/
def compareInt (negative : Bool) (b : Binary) (n : Int) : Ordering :=
  compare (signed negative b.m * twos b.q) (n * twos (-b.q))

end Medley.Decimal
