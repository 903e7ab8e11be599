import Medley.Calendar.Read
import Medley.Decimal.Fixed
import Medley.Text.Blank
import Medley.Value.Number
import Medley.Value.Written

/-!
Helpers for dates. A moment is given as such, as a day, as text or in seconds since the start of
1970; anything else is none.
-/
namespace Medley.Helper
open Calendar (Day Moment)

/- A number of seconds as whole seconds and microseconds, rounded to the nearest, half to even. -/
def splitSeconds (x : Float) : Option (Int × Nat) :=
  match Decimal.Parts.ofFloat x with
  | .finite negative b =>
      let whole := Decimal.signed negative b.whole
      let fraction := (x - Decimal.floatOfInt whole) * 1000000.0
      match Decimal.Parts.ofFloat fraction with
      | .finite below part =>
          let micros := Decimal.signed below (part.roundPlaces 0)
          if 1000000 ≤ micros then some (whole + 1, (micros - 1000000).toNat)
          else if micros < 0 then some (whole - 1, (micros + 1000000).toNat)
          else some (whole, micros.toNat)
      | _ => none
  | _ => none

def moment? : Value → Option Moment
  | .moment m => some m
  | .day d => some (.midnight d)
  | .int n => Moment.ofEpoch? n 0
  | .float x => (splitSeconds x).bind fun (seconds, micros) => Moment.ofEpoch? seconds micros
  | .text s | .markup s => Moment.read? (Text.trim s.toList)
  | _ => none

def monthNames : List String :=
  ["January", "February", "March", "April", "May", "June", "July", "August", "September",
   "October", "November", "December"]

def monthName (m : Moment) : String := monthNames.getD (m.day.month - 1) ""

/-- The marks of a format, longer ones first, and what they stand for. -/
def dateMarks : List (String × (Moment → List Char)) :=
  [("YYYY", fun m => Calendar.padded 4 m.day.year),
   ("MMMM", fun m => (monthName m).toList),
   ("MMM", fun m => (monthName m).toList.take 3),
   ("MM", fun m => Calendar.padded 2 m.day.month),
   ("DD", fun m => Calendar.padded 2 m.day.day),
   ("HH", fun m => Calendar.padded 2 m.hour),
   ("mm", fun m => Calendar.padded 2 m.minute),
   ("ss", fun m => Calendar.padded 2 m.second)]

/- `skip` characters belong to a mark already written. -/
def formatFrom (m : Moment) : Nat → List Char → List Char
  | _, [] => []
  | skip + 1, _ :: rest => formatFrom m skip rest
  | 0, c :: rest => match dateMarks.find? fun mark => mark.1.toList.isPrefixOf (c :: rest) with
    | some (mark, write) => write m ++ formatFrom m (mark.length - 1) rest
    | none => c :: formatFrom m 0 rest

def formatDate (v format : Value) : Except Fault String :=
  match moment? v with
  | some m => do return String.ofList (formatFrom m 0 (← format.writing).toList)
  | none => .ok ""

/- Whole seconds from one moment to another, cut off towards zero. -/
def secondsBetween (earlier later : Moment) : Int :=
  let micros := later.utcMicros - earlier.utcMicros
  let seconds := Float.ofScientific micros.natAbs true 6
  match Decimal.Parts.ofFloat seconds with
  | .finite _ b => Decimal.signed (micros < 0) b.whole
  | _ => 0

def ago (n : Int) (unit : String) : String :=
  shownInt n ++ " " ++ unit ++ (if n = 1 then " ago" else "s ago")

/- How long ago something was: minutes, hours, days, months of 30 days and years of 365. -/
def agoText (seconds : Int) : String :=
  let minutes := seconds.fdiv 60
  let hours := minutes.fdiv 60
  let days := hours.fdiv 24
  if minutes < 1 then "just now"
  else if hours < 1 then ago minutes "minute"
  else if days < 1 then ago hours "hour"
  else if days < 30 then ago days "day"
  else if days.fdiv 30 < 12 then ago (days.fdiv 30) "month"
  else ago (max (days.fdiv 365) 1) "year"

/- The time from a moment to `now`, or to the present by its clock with or without an offset. -/
def timeAgo (utc plain : Moment) (v now : Value) : String :=
  match moment? v with
  | none => ""
  | some m =>
      let present := (moment? now).getD (if m.offset.isSome then utc else plain)
      agoText (secondsBetween m present)

def shortTimeAgo (utc plain : Moment) (v now : Value) : String :=
  let s := (timeAgo utc plain v now).toList
  let ending := " ago".toList
  String.ofList (if ending.isSuffixOf s then s.take (s.length - ending.length) else s)

end Medley.Helper
