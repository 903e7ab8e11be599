import Medley.Text.Letters
import Medley.Value.Written

/-!
Helpers for numbers: rounding half away from zero, and fixed places after the point.
-/
namespace Medley.Helper

def round (v decimals : Value) : Except Fault Number := do
  let places ← decimals.toWhole
  let _ ← Number.place places
  (← v.toNumber).roundTo places

def formatNumber (v decimals : Value) : Except Fault String := do
  let places ← decimals.toWhole
  let _ ← Number.place places
  let n ← (← v.toNumber).roundTo places
  n.fixed false places

def percent (v decimals : Value) : Except Fault String := do
  let places ← decimals.toWhole
  let n ← (← v.toNumber).hundredfold.roundTo places
  return (← n.fixed false places) ++ "%"

def currencySigns : List (String × String) :=
  [("USD", "$"), ("EUR", "€"), ("GBP", "£"), ("JPY", "¥"), ("CNY", "¥"), ("INR", "₹"),
   ("KRW", "₩"), ("CAD", "CA$"), ("AUD", "A$"), ("CHF", "CHF ")]

def wholeCurrencies : List String := ["JPY", "KRW"]

def currencyCode (v : Value) : Except Fault String := do
  let code := String.ofList (Text.upper (← v.output).toList)
  return if code.isEmpty then "USD" else code

/-- An amount of money, digits grouped in threes; a currency without a sign shows its code. -/
def formatPrice (v currency : Value) : Except Fault String := do
  let code ← currencyCode currency
  let amount ← v.toNumber
  let places := if code ∈ wholeCurrencies then 0 else 2
  let body ← (← amount.roundTo places).abs.fixed true places
  let minus := if amount.isNegative then "-" else ""
  return match currencySigns.lookup code with
  | some sign => minus ++ sign ++ body
  | none => minus ++ code ++ " " ++ body

def compareNumbers (holds : Ordering → Bool) (a b : Value) : Except Fault Bool := do
  let m ← a.toNumber
  let n ← b.toNumber
  return (m.compare? n).any holds

end Medley.Helper
