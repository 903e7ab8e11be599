import Medley.Calendar.Moment
import Medley.Text.Word

/-!
Moments read from text: a date as year, month and day or as year, week and weekday, with
dashes or without; then, after any one character, hours, minutes, seconds and a fraction; then
an offset or `Z`. All digits are ASCII. An ended text reads as the character NUL.
-/
namespace Medley.Calendar
open Text (isAsciiDigit)

def peek : List Char → Char
  | [] => '\x00'
  | c :: _ => c

def takeDigits : Nat → Nat → List Char → Option (Nat × List Char)
  | 0, n, s => some (n, s)
  | count + 1, n, c :: rest =>
      if isAsciiDigit c then takeDigits count (10 * n + (c.toNat - 0x30)) rest else none
  | _ + 1, _, [] => none

/- How many characters the date takes; any one character follows it. -/
def dateLength (s : List Char) : Option Nat :=
  let len := s.length
  let charAt (i : Nat) : Char := s.getD i '\x00'
  if len < 7 then none
  else if len = 7 then some 7
  else if charAt 4 = '-' then
    if charAt 5 = 'W' then
      if 8 < len && charAt 8 = '-' then
        if len = 9 then none
        else if 10 < len && isAsciiDigit (charAt 10) then some 8
        else some 10
      else some 8
    else some 10
  else if charAt 4 = 'W' then
    let digitsEnd := 7 + ((s.drop 7).takeWhile isAsciiDigit).length
    if digitsEnd < 9 then some digitsEnd
    else if digitsEnd % 2 = 0 then some 7 else some 8
  else some 8

def takeDash (dashes : Bool) (s : List Char) : Option (List Char) :=
  if dashes then match s with
    | '-' :: rest => some rest
    | _ => none
  else some s

def readDate (s : List Char) : Option Day := do
  let (year, s) ← takeDigits 4 0 s
  let dashes := peek s = '-'
  let s := if dashes then s.drop 1 else s
  if peek s = 'W' then
    let (week, s) ← takeDigits 2 0 (s.drop 1)
    if s.isEmpty then Day.ofWeek? year week 1
    else
      let s ← takeDash dashes s
      let (day, s) ← takeDigits 1 0 s
      if s.isEmpty then Day.ofWeek? year week day else none
  else
    let (month, s) ← takeDigits 2 0 s
    let s ← takeDash dashes s
    let (day, s) ← takeDigits 2 0 s
    if s.isEmpty then Day.ofYearMonthDay? year month day else none

structure Clock where
  hour : Nat
  minute : Nat
  second : Nat
  micro : Nat
  deriving DecidableEq, Repr

def readFraction (s : List Char) : Option (Nat × Bool) := do
  let count := min s.length 6
  let (n, rest) ← takeDigits count 0 s
  some (n * Nat.pow 10 (6 - count), rest.all isAsciiDigit)

/-- `parts` are the values read so far and `colons` says whether the clock is written with
colons; at least one pair of digits is to come. The last result says whether the text was
used up: one ASCII character after a pair, and what follows six digits of a fraction, is left. -/
def readClockFrom (colons : Bool) : Nat → List Nat → List Char → Option (List Nat × Nat × Bool)
  | 0, parts, s => (readFraction s).map (parts, ·)
  | owed + 1, parts, s => do
      let (n, s) ← takeDigits 2 0 s
      let parts := parts ++ [n]
      let colons := if parts.length = 1 then peek s = ':' else colons
      match s with
      | [] => some (parts, 0, true)
      | c :: rest =>
          if rest.isEmpty && c.toNat < 0x80 then some (parts, 0, false)
          else if colons && c = ':' then readClockFrom colons owed parts rest
          else if c = '.' || c = ',' then (readFraction rest).map (parts, ·)
          else if colons then none
          else readClockFrom colons owed parts s

/- A clock before an offset may leave something over; the last clock may not. -/
def readClock (last : Bool) (s : List Char) : Option Clock := do
  let (parts, micro, all) ← readClockFrom false 3 [] s
  if last && !all then none
  else some ⟨parts.getD 0 0, parts.getD 1 0, parts.getD 2 0, micro⟩

def Clock.micros (c : Clock) : Int :=
  (((c.hour * 60 + c.minute) * 60 + c.second) * 1000000 + c.micro : Nat)

def readOffset : List Char → Option (Option Int)
  | [] => some none
  | ['Z'] => some (some 0)
  | 'Z' :: _ => none
  | sign :: rest => do
      let c ← readClock true rest
      let n := if sign = '-' then -c.micros else c.micros
      if n.natAbs < microsPerDay.natAbs then some (some n) else none

def startsOffset (c : Char) : Bool := c = '+' || c = '-' || c = 'Z'

namespace Moment

def read? (s : List Char) : Option Moment := do
  let length ← dateLength s
  let d ← readDate (s.take length)
  if s.length ≤ length then some (midnight d)
  else
    let rest := s.drop (length + 1)
    let zone := rest.dropWhile fun c => !startsOffset c
    let c ← readClock zone.isEmpty (rest.takeWhile fun c => !startsOffset c)
    let offset ← readOffset zone
    if c.hour < 24 && c.minute < 60 && c.second < 60 then
      some ⟨d, c.hour, c.minute, c.second, c.micro, offset⟩
    else none

end Moment
end Medley.Calendar
