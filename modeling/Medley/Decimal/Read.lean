import Medley.Decimal.Binary
import Medley.Text.Blank
import Medley.Text.Characters

/-!
Numbers read from text. Blanks around a number (the separators U+001C to U+001F apart) are
passed over, digits may be those of any script, and one low line may stand between two
digits. An integer has at most 4300 digits.
-/
namespace Medley.Decimal
open Text

def isNumberBlank (c : Char) : Bool := isBlank c && !(0x1C ≤ c.toNat && c.toNat ≤ 0x1F)

/- Digits with low lines between them, as values, and what follows. `after` says that a digit has
just been read. -/
def readDigits (after : Bool) : List Char → List Nat × List Char
  | [] => ([], [])
  | '_' :: c :: rest =>
      if after && isDigit c then readDigits after (c :: rest) else ([], '_' :: c :: rest)
  | c :: rest => match digitValue? c with
    | some d => let (ds, rest') := readDigits true rest; (d :: ds, rest')
    | none => ([], c :: rest)

def ofDigits (ds : List Nat) : Nat := ds.foldl (fun n d => 10 * n + d) 0

def readSign : List Char → Bool × List Char
  | '-' :: rest => (true, rest)
  | '+' :: rest => (false, rest)
  | s => (false, s)

def digitLimit : Nat := 4300

inductive IntFault where
  | malformed
  | tooLong (digits : Nat)
  deriving DecidableEq, Repr

def readInt (s : List Char) : Except IntFault Int :=
  let (negative, s) := readSign (trimChars isNumberBlank s)
  match readDigits false s with
  | ([], _) => .error .malformed
  | (ds, []) =>
      if digitLimit < ds.length then .error (.tooLong ds.length)
      else .ok (signed negative (ofDigits ds))
  | _ => .error .malformed

def asciiLower (s : List Char) : List Char := s.map Char.toLower

def readExponent : List Char → Option (Int × List Char)
  | c :: rest =>
      if c = 'e' || c = 'E' then
        let (negative, rest) := readSign rest
        match readDigits false rest with
        | ([], _) => none
        | (ds, rest) => some (signed negative (ofDigits ds), rest)
      else none
  | [] => none

/-- whole . fraction · 10^exponent, rounded to the nearest float. An exponent that is 400
beyond the number of digits decides the value alone. -/
def assemble (whole fraction : List Nat) (exponent : Int) : Float :=
  let n := ofDigits (whole ++ fraction)
  let e := exponent - fraction.length
  let bound : Int := whole.length + fraction.length + 400
  if n = 0 then 0.0
  else if e < 0 then Float.ofScientific n true (min (-e) bound).toNat
  else Float.ofScientific n false (min e bound).toNat

def readUnsigned (s : List Char) : Option Float :=
  let (whole, rest) := readDigits false s
  let (fraction, rest) := match rest with
    | '.' :: more => readDigits false more
    | _ => ([], rest)
  if whole.isEmpty && fraction.isEmpty then none
  else match rest with
    | [] => some (assemble whole fraction 0)
    | _ => match readExponent rest with
      | some (e, []) => some (assemble whole fraction e)
      | _ => none

def infinity : Float := Float.ofBits 0x7FF0000000000000
def notANumber : Float := Float.ofBits 0x7FF8000000000000

def readFloat (s : List Char) : Option Float :=
  let (negative, s) := readSign (trimChars isNumberBlank s)
  let word := asciiLower s
  let x :=
    if word = "inf".toList || word = "infinity".toList then some infinity
    else if word = "nan".toList then some notANumber
    else readUnsigned s
  x.map fun x => if negative then -x else x

end Medley.Decimal
