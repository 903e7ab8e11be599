import Medley.Decimal.Shortest

/-!
How numbers are written. A float has the fewest digits that read back to it: with a point
from 0.0001 up to below 10^16, and otherwise one digit before the point and an exponent of
at least two digits with its sign.
-/
namespace Medley.Decimal

def natText (n : Nat) : List Char := Nat.toDigits 10 n

def intText (n : Int) : List Char :=
  if n < 0 then '-' :: natText n.natAbs else natText n.natAbs

def zeros (n : Nat) : List Char := List.replicate n '0'

/-- The digits with the point after the first `point` of them, if that many there are. -/
def pointed (ds : List Char) (point : Int) : List Char :=
  if point ≤ 0 then '0' :: '.' :: zeros (-point).toNat ++ ds
  else if ds.length ≤ point.toNat then ds ++ zeros (point.toNat - ds.length) ++ ['.', '0']
  else ds.take point.toNat ++ '.' :: ds.drop point.toNat

def exponentText (e : Int) : List Char :=
  let ds := natText e.natAbs
  (if e < 0 then '-' else '+') :: zeros (2 - ds.length) ++ ds

def Digits.text (d : Digits) : List Char :=
  let ds := natText d.digits
  let lead : Int := d.exponent + ds.length - 1
  if -4 ≤ lead && lead < 16 then pointed ds (lead + 1)
  else
    (match ds with
      | [] => []
      | [c] => [c]
      | c :: rest => c :: '.' :: rest) ++ 'e' :: exponentText lead

def signText (negative : Bool) : List Char := if negative then ['-'] else []

def floatText (x : Float) : List Char :=
  match Parts.ofFloat x with
  | .nan => "nan".toList
  | .infinite negative => signText negative ++ "inf".toList
  | .finite negative b => signText negative ++ b.shortest.text

end Medley.Decimal
