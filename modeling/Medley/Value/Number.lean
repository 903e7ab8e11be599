import Medley.Decimal.Fixed
import Medley.Decimal.Read
import Medley.Decimal.Rounded
import Medley.Fault
import Medley.Text.Quoted
import Medley.Value.Basic

/-!
Numbers among the values: integers of any size and floats. They compare exactly.
-/
namespace Medley
open Decimal

inductive Number where
  | int (n : Int)
  | float (x : Float)

namespace Number

def toValue : Number → Value
  | int n => .int n
  | float x => .float x

/- The order of two numbers; none if one of them is not a number. -/
def compare? : Number → Number → Option Ordering
  | int a, int b => some (compare a b)
  | float x, int b => match Parts.ofFloat x with
    | .nan => none
    | .infinite negative => some (if negative then .lt else .gt)
    | .finite negative m => some (compareInt negative m b)
  | int a, float y => match Parts.ofFloat y with
    | .nan => none
    | .infinite negative => some (if negative then .gt else .lt)
    | .finite negative m => some (compareInt negative m a).swap
  | float x, float y =>
      if x < y then some .lt else if y < x then some .gt else if x == y then some .eq else none

def isNegative (n : Number) : Bool := n.compare? (int 0) == some .lt

def whole : Number → Except Fault Int
  | int n => .ok n
  | float x => match Parts.ofFloat x with
    | .nan => .error .nanNotWhole
    | .infinite _ => .error .infinityNotWhole
    | .finite negative b => .ok (signed negative b.whole)

def isWhole : Number → Bool
  | int _ => true
  | float x => match Parts.ofFloat x with
    | .finite _ b => b.isWhole
    | _ => false

def isFiniteFloat (x : Float) : Bool :=
  match Parts.ofFloat x with
  | .finite .. => true
  | _ => false

def toFloat : Number → Except Fault Float
  | float x => .ok x
  | int n =>
      let x := floatOfInt n
      if isFiniteFloat x then .ok x else .error .integerTooLarge

def hundredfold : Number → Number
  | int n => int (n * 100)
  | float x => float (x * 100.0)

/- The last place that is kept with so many places after the point. -/
def place (places : Int) : Except Fault Int :=
  match Amount.placeOf places with
  | .ok place => .ok place
  | .error .tooManyDigits => .error .roundedTooLong
  | .error .placeTooHigh => .error .placeTooHigh

/-- Rounded half away from zero to so many places after the point: an integer where there
are none, otherwise a float. -/
def roundTo (n : Number) (places : Int) : Except Fault Number := do
  let place ← place places
  let amount? ← match n with
    | int n =>
        if digitLimit < digitCount n.natAbs then throw .unwritableInteger
        else pure (some (Amount.ofInt n))
    | float x => match Parts.ofFloat x with
      | .nan => pure none
      | .infinite _ => throw .roundedTooLong
      | .finite negative b => pure (some (Amount.ofBinary negative b))
  match amount? with
  | none => if places ≤ 0 then throw .nanNotRounded else pure (float notANumber)
  | some amount => match amount.roundTo place with
    | .error _ => throw .roundedTooLong
    | .ok amount => pure (if places ≤ 0 then int amount.toInt else float amount.toFloat)

def abs : Number → Number
  | int n => int n.natAbs
  | float x => float (Float.abs x)

/- With so many places after the point, digits grouped in threes or not. -/
def fixed (group : Bool) (places : Int) (n : Number) : Except Fault String :=
  if places < 0 then .error .missingPlaces
  else do return String.ofList (floatFixed group places.toNat (← n.toFloat))

end Number

namespace Value

/- A boolean counts as zero or one. -/
def number? : Value → Option Number
  | bool b => some (.int (if b then 1 else 0))
  | int n => some (.int n)
  | float x => some (.float x)
  | nan _ => some (.float notANumber)
  | _ => none

def markupShown (s : String) : String :=
  "Markup(" ++ String.ofList (Text.quoted s.toList) ++ ")"

/- What a helper takes for a number: nothing counts as zero, and text is read. -/
def toNumber : Value → Except Fault Number
  | int n => .ok (.int n)
  | float x => .ok (.float x)
  | nan _ => .ok (.float notANumber)
  | bool b => .ok (.float (if b then 1.0 else 0.0))
  | null | undefined => .ok (.int 0)
  | text s =>
      if s.isEmpty then .ok (.int 0)
      else match readFloat s.toList with
        | some x => .ok (.float x)
        | none => .error (.notNumber (String.ofList (Text.quoted s.toList)))
  | markup s =>
      if s.isEmpty then .ok (.int 0)
      else match readFloat s.toList with
        | some x => .ok (.float x)
        | none => .error (.notNumber (markupShown s))
  | bytes bs =>
      match if bs.all (· < 0x80) then readFloat (bs.map fun b => Char.ofNat b.toNat) else none with
      | some x => .ok (.float x)
      | none => .error (.notNumber (String.ofList (Text.quotedBytes bs)))
  | v => .error (.notNumeric v.kind)

def toWhole (v : Value) : Except Fault Int := do (← v.toNumber).whole

end Value
end Medley
