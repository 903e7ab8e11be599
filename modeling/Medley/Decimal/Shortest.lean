import Medley.Decimal.Binary

/-!
The fewest decimal digits that read back to a binary value. For each number of digits the two
neighbours of the value on that decimal grid are tried; the first grid with a neighbour
inside the rounding interval wins, of two the nearer, of two equally near the even one.
-/
namespace Medley.Decimal

/-- digits · 10^exponent -/
structure Digits where
  digits : Nat
  exponent : Int
  deriving DecidableEq, Repr

def compareScaled (a : Nat) (i : Int) (n : Nat) (j : Int) : Ordering :=
  compare (a * tens i * twos (-j)) (n * twos j * tens (-i))

namespace Binary

/- The decimal lies among the reals that round to the value; the ends of that interval
belong to it when m is even. -/
def readsBack (b : Binary) (d : Digits) : Bool :=
  let lo := if b.narrow then 4 * b.m - 1 else 4 * b.m - 2
  let hi := 4 * b.m + 2
  let even := b.m % 2 == 0
  let atLo := compareScaled d.digits d.exponent lo (b.q - 2)
  let atHi := compareScaled d.digits d.exponent hi (b.q - 2)
  (atLo == .gt || (even && atLo == .eq)) && (atHi == .lt || (even && atHi == .eq))

def floorAt (b : Binary) (k : Int) : Nat :=
  b.m * twos b.q * tens (-k) / (twos (-b.q) * tens k)

/- The least k with value < 10^k; the logarithm to base two gives a first guess below it, from which
the search goes on. -/
def scaleFrom (b : Binary) : Nat → Int → Int
  | 0, k => k
  | fuel + 1, k => if compareScaled 1 k b.m b.q == .gt then k else b.scaleFrom fuel (k + 1)

def scale (b : Binary) : Int :=
  b.scaleFrom 4 (((b.m.log2 : Int) + b.q) * 30103 / 100000 - 1)

/- A neighbour of the value on the grid of 10^k that reads back, on the grids of 10^k, 10^(k-1), …
in turn. -/
def candidate? (b : Binary) (k : Int) : Option Digits :=
  let n := b.floorAt k
  let below : Digits := ⟨n, k⟩
  let above : Digits := ⟨n + 1, k⟩
  match b.readsBack below, b.readsBack above with
  | false, false => none
  | true, false => some below
  | false, true => some above
  | true, true => match compareScaled (2 * n + 1) k (2 * b.m) b.q with
    | .gt => some below
    | .lt => some above
    | .eq => if n % 2 = 0 then some below else some above

def searchFrom (b : Binary) : Nat → Int → Option Digits
  | 0, _ => none
  | fuel + 1, k => match b.candidate? k with
    | some d => some d
    | none => b.searchFrom fuel (k - 1)

def exactDigits (b : Binary) : Digits :=
  if 0 ≤ b.q then ⟨b.m * twos b.q, 0⟩ else ⟨b.m * Nat.pow 5 (-b.q).toNat, b.q⟩

end Binary

/- Zeros at the end move into the exponent. -/
def Digits.stripFrom : Nat → Digits → Digits
  | 0, d => d
  | fuel + 1, d =>
      if d.digits % 10 = 0 then Digits.stripFrom fuel ⟨d.digits / 10, d.exponent + 1⟩ else d

def Digits.strip (d : Digits) : Digits := if d.digits = 0 then ⟨0, 0⟩ else d.stripFrom 400

def Binary.shortest (b : Binary) : Digits :=
  if b.m = 0 then ⟨0, 0⟩
  else ((b.searchFrom 17 (b.scale - 1)).getD b.exactDigits).strip

end Medley.Decimal
