import Medley.Decimal.Written

/-!
Decimals of at most 28 digits, rounded to a given place. A half goes away from zero. Places
run from 10^999999 down to 10^-1000026; a result that needs a 29th digit is refused.
-/
namespace Medley.Decimal

/-- (-1)^negative · coefficient · 10^exponent. Zero keeps its sign. -/
structure Amount where
  negative : Bool
  coefficient : Nat
  exponent : Int
  deriving DecidableEq, Repr

inductive Refusal where
  | tooManyDigits
  | placeTooHigh
  deriving DecidableEq, Repr

def precision : Nat := 28
def highestPlace : Int := 999999
def lowestPlace : Int := -1000026

def digitCount (n : Nat) : Nat := (natText n).length

namespace Amount

def ofInt (n : Int) : Amount := ⟨n < 0, n.natAbs, 0⟩

def ofBinary (negative : Bool) (b : Binary) : Amount :=
  let d := b.shortest
  ⟨negative, d.digits, d.exponent⟩

/- n / d to the nearest integer, a half upwards. -/
def divHalfUp (n d : Nat) : Nat := (2 * n + d) / (2 * d)

def roundTo (a : Amount) (place : Int) : Except Refusal Amount :=
  if a.coefficient = 0 then .ok ⟨a.negative, 0, place⟩
  else
    let shift := a.exponent - place
    let size : Int := digitCount a.coefficient + shift
    if precision < size then .error .tooManyDigits
    else if size < 0 then .ok ⟨a.negative, 0, place⟩
    else
      let c :=
        if 0 ≤ shift then a.coefficient * tens shift
        else divHalfUp a.coefficient (tens (-shift))
      if digitCount c ≤ precision then .ok ⟨a.negative, c, place⟩ else .error .tooManyDigits

/- The place of the last of so many digits after the point; before it for a negative number. -/
def placeOf (places : Int) : Except Refusal Int :=
  if 2 * (highestPlace + precision) < places.natAbs then .error .tooManyDigits
  else if highestPlace < -places then .error .placeTooHigh
  else .ok (max (-places) lowestPlace)

def toInt (a : Amount) : Int := signed a.negative (a.coefficient * tens a.exponent)

def toFloat (a : Amount) : Float :=
  let x :=
    if a.coefficient = 0 then 0.0
    else Float.ofScientific a.coefficient (a.exponent < 0) a.exponent.natAbs
  if a.negative then -x else x

end Amount
end Medley.Decimal
