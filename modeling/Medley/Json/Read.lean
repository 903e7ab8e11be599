import Medley.Text.Word
import Medley.Value.Equality

/-!
JSON texts read as values. The words `NaN`, `Infinity` and `-Infinity` are numbers, and the
last of several entries with one name counts, at the place of the first. Where a text is no
JSON, the refusal says what was expected and how many characters were left at that place.
-/
namespace Medley.Json
open Text (hexValue?)

inductive Expected where
  | value
  | name
  | colon
  | comma
  | closingQuote
  | printable
  | escape
  | unicodeEscape
  | ending
  | noByteOrderMark
  deriving DecidableEq, Repr

namespace Expected

def text : Expected → String
  | value => "Expecting value"
  | name => "Expecting property name enclosed in double quotes"
  | colon => "Expecting ':' delimiter"
  | comma => "Expecting ',' delimiter"
  | closingQuote => "Unterminated string starting at"
  | printable => "Invalid control character at"
  | escape => "Invalid \\escape"
  | unicodeEscape => "Invalid \\uXXXX escape"
  | ending => "Extra data"
  | noByteOrderMark => "Unexpected UTF-8 BOM (decode using utf-8-sig)"

end Expected

inductive Refusal where
  | expected (what : Expected) (left : Nat)
  | longInteger (digits : Nat)
  deriving DecidableEq, Repr

def isSpace (c : Char) : Bool := c = ' ' || c = '\t' || c = '\n' || c = '\r'

def skip (s : List Char) : List Char := s.dropWhile isSpace

theorem skip_length_le (s : List Char) : (skip s).length ≤ s.length :=
  (List.dropWhile_sublist isSpace).length_le

def escape? : Char → Option Char
  | '"' => some '"'
  | '\\' => some '\\'
  | '/' => some '/'
  | 'b' => some '\x08'
  | 'f' => some '\x0C'
  | 'n' => some '\n'
  | 'r' => some '\r'
  | 't' => some '\t'
  | _ => none

def hex4? (a b c d : Char) : Option Nat := do
  return (((← hexValue? a) * 16 + (← hexValue? b)) * 16 + (← hexValue? c)) * 16 + (← hexValue? d)

/- Half of a pair that stands alone is no character. -/
def unitChar (n : Nat) : Char := if 0xD800 ≤ n && n < 0xE000 then '\uFFFD' else Char.ofNat n

/- The second half of a pair, if it is written next. At least one character follows an escape. -/
def lowHalf? : List Char → Except Refusal (Option Nat)
  | '\\' :: 'u' :: a :: b :: c :: d :: _ :: rest => match hex4? a b c d with
    | none => .error (.expected .unicodeEscape (rest.length + 6))
    | some n => .ok (if 0xDC00 ≤ n && n < 0xE000 then some n else none)
  | _ => .ok none

/- The text after an opening quote, which had `left` characters from it on, up to the closing quote,
and what follows; `skipped` characters belong to an escape already read. -/
def readText (left : Nat) : Nat → List Char → Except Refusal (List Char × List Char)
  | _, [] => .error (.expected .closingQuote left)
  | skipped + 1, _ :: rest => readText left skipped rest
  | 0, '"' :: rest => .ok ([], rest)
  | 0, '\\' :: rest => match rest with
    | [] => .error (.expected .closingQuote left)
    | 'u' :: more => match more with
      | a :: b :: c :: d :: e :: after => match hex4? a b c d with
        | none => .error (.expected .unicodeEscape rest.length)
        | some n => do
            let low ← if 0xD800 ≤ n && n < 0xDC00 then lowHalf? (e :: after) else .ok none
            let (c, width) := match low with
              | some m => (Char.ofNat (0x10000 + (n - 0xD800) * 0x400 + (m - 0xDC00)), 11)
              | none => (unitChar n, 5)
            let (cs, rest') ← readText left width rest
            return (c :: cs, rest')
      | _ => .error (.expected .unicodeEscape rest.length)
    | letter :: _ => match escape? letter with
      | none => .error (.expected .escape (rest.length + 1))
      | some c => do
          let (cs, rest') ← readText left 1 rest
          return (c :: cs, rest')
  | 0, c :: rest =>
      if c.toNat < 0x20 then .error (.expected .printable (rest.length + 1))
      else do
        let (cs, rest') ← readText left 0 rest
        return (c :: cs, rest')

def digitsLength (s : List Char) : Nat := (s.takeWhile Text.isAsciiDigit).length

def fractionLength : List Char → Nat
  | '.' :: rest => if digitsLength rest = 0 then 0 else 1 + digitsLength rest
  | _ => 0

def exponentLength : List Char → Nat
  | c :: rest =>
      if c = 'e' || c = 'E' then
        let sign := match rest with
          | '+' :: _ | '-' :: _ => 1
          | _ => 0
        let digits := digitsLength (rest.drop sign)
        if digits = 0 then 0 else 1 + sign + digits
      else 0
  | [] => 0

/-- How many characters at the front are a number, and whether it is an integer. -/
def numberLength (s : List Char) : Nat × Bool :=
  let sign := if s.head? = some '-' then 1 else 0
  let whole := match s.drop sign with
    | '0' :: _ => 1
    | rest => digitsLength rest
  if whole = 0 then (0, true)
  else
    let fraction := fractionLength (s.drop (sign + whole))
    let exponent := exponentLength (s.drop (sign + whole + fraction))
    (sign + whole + fraction + exponent, fraction + exponent = 0)

def words : List (List Char × Value) :=
  [("null".toList, .null), ("true".toList, .bool true), ("false".toList, .bool false),
   ("NaN".toList, .nan 0), ("Infinity".toList, .float Decimal.infinity),
   ("-Infinity".toList, .float (-Decimal.infinity))]

def scalar (s : List Char) : Except Refusal (Value × Nat) :=
  match words.find? fun w => w.1.isPrefixOf s with
  | some (word, v) => .ok (v, word.length)
  | none => match numberLength s with
    | (0, _) => .error (.expected .value s.length)
    | (n, true) => match Decimal.readInt (s.take n) with
      | .ok i => .ok (.int i, n)
      | .error (.tooLong digits) => .error (.longInteger digits)
      | .error .malformed => .error (.expected .value s.length)
    | (n, false) => .ok (.float ((Decimal.readFloat (s.take n)).getD 0.0), n)

/- A value with what follows it, which is less than it was read from. -/
structure Found (α : Type) (bound : Nat) where
  value : α
  rest : List Char
  shorter : rest.length < bound

/- The cut is tested: every value takes at least one character. -/
def found {α : Type} (value : α) (rest : List Char) (bound : Nat) :
    Except Refusal (Found α bound) :=
  if h : rest.length < bound then .ok ⟨value, rest, h⟩ else .error (.expected .value bound)

def nameOf (s : List Char) : Except Refusal (Found String s.length) :=
  match s with
  | '"' :: rest => do
      let (cs, after) ← readText (rest.length + 1) 0 rest
      found (String.ofList cs) after (rest.length + 1)
  | s => .error (.expected .name s.length)

mutual

def readValue (s : List Char) : Except Refusal (Found Value s.length) :=
  match s with
  | [] => .error (.expected .value 0)
  | '"' :: rest => do
      let (cs, after) ← readText (rest.length + 1) 0 rest
      found (.text (String.ofList cs)) after (rest.length + 1)
  | '[' :: rest => match h : skip rest with
    | ']' :: after => found (.list []) after (rest.length + 1)
    | first :: more => do
        have : (first :: more).length < rest.length + 1 := by
          have := skip_length_le rest; rw [h] at this; omega
        let items ← readItems (first :: more)
        return ⟨.list items.value, items.rest, by have := items.shorter; simp_all; omega⟩
    | [] => .error (.expected .value 0)
  | '\x7b' :: rest => match h : skip rest with
    | '\x7d' :: after => found (.map []) after (rest.length + 1)
    | more => do
        have : more.length < rest.length + 1 := by
          have := skip_length_le rest; rw [h] at this; omega
        let entries ← readEntries more
        return ⟨Value.ofEntries entries.value, entries.rest, by
          have := entries.shorter; simp_all; omega⟩
  | c :: rest => do
      let (v, n) ← scalar (c :: rest)
      found v ((c :: rest).drop n) (c :: rest).length
termination_by (s.length, 0)

/- Items or entries up to the bracket or brace that ends them; one begins here. -/
def readItems (s : List Char) : Except Refusal (Found (List Value) s.length) := do
  let item ← readValue s
  match h : skip item.rest with
  | ']' :: after =>
      return ⟨[item.value], after, by
        have := skip_length_le item.rest; have := item.shorter; simp_all; omega⟩
  | ',' :: after =>
      have : (skip after).length < s.length := by
        have := skip_length_le item.rest; have := item.shorter; have := skip_length_le after
        simp_all; omega
      let items ← readItems (skip after)
      return ⟨item.value :: items.value, items.rest, Nat.lt_trans items.shorter this⟩
  | rest => .error (.expected .comma rest.length)
termination_by (s.length, 1)

def readEntries (s : List Char) : Except Refusal (Found (List (Value × Value)) s.length) := do
  let name ← nameOf s
  match hn : skip name.rest with
  | ':' :: after =>
      have hs : (skip after).length < s.length := by
        have := skip_length_le name.rest; have := name.shorter; have := skip_length_le after
        simp_all; omega
      let v ← readValue (skip after)
      match hv : skip v.rest with
      | '\x7d' :: after' =>
          return ⟨[(.text name.value, v.value)], after', by
            have := skip_length_le v.rest; have := v.shorter; simp_all; omega⟩
      | ',' :: after' =>
          have : (skip after').length < s.length := by
            have := skip_length_le v.rest; have := v.shorter; have := skip_length_le after'
            simp_all; omega
          let entries ← readEntries (skip after')
          return ⟨(.text name.value, v.value) :: entries.value, entries.rest,
            Nat.lt_trans entries.shorter this⟩
      | rest => .error (.expected .comma rest.length)
  | rest => .error (.expected .colon rest.length)
termination_by (s.length, 1)

end

def read (s : List Char) : Except Refusal Value := do
  if s.head? = some '\uFEFF' then .error (.expected .noByteOrderMark s.length)
  let v ← readValue (skip s)
  match skip v.rest with
  | [] => return v.value
  | rest => .error (.expected .ending rest.length)

def Refusal.fault (source : List Char) : Refusal → Fault
  | longInteger digits => .longInteger digits
  | expected what left =>
      let index := source.length - left
      let before := source.take index
      let line := before.count '\n' + 1
      let column := (before.reverse.takeWhile (· ≠ '\n')).length + 1
      .invalidJson s!"{what.text}: line {line} column {column} (char {index})"

end Medley.Json
