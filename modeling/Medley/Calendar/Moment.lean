import Medley.Calendar.Day
import Medley.Decimal.Written

/-!
Moments: a day, a time of day to the microsecond and, where known, the offset from UTC.
-/
namespace Medley.Calendar
open Decimal (natText zeros)

/-- The offset is in microseconds and less than a day either way. -/
structure Moment where
  day : Day
  hour : Nat
  minute : Nat
  second : Nat
  micro : Nat
  offset : Option Int
  deriving DecidableEq, Repr

def microsPerDay : Int := 86400000000

def padded (width n : Nat) : List Char :=
  let ds := natText n
  zeros (width - ds.length) ++ ds

def Day.text (d : Day) : List Char :=
  padded 4 d.year ++ '-' :: padded 2 d.month ++ '-' :: padded 2 d.day

namespace Moment

def midnight (d : Day) : Moment := ⟨d, 0, 0, 0, 0, none⟩

def clockMicros (m : Moment) : Int :=
  (m.day.number : Int) * microsPerDay +
    ((((m.hour * 60 + m.minute) * 60 + m.second) * 1000000 + m.micro : Nat) : Int)

/- The same in UTC; a moment without an offset is taken to be in UTC. -/
def utcMicros (m : Moment) : Int := m.clockMicros - m.offset.getD 0

-- 1 January 1970
def epochDay : Int := 719163

def ofEpoch? (seconds : Int) (micro : Nat) : Option Moment :=
  (Day.ofNumber? (epochDay + seconds.fdiv 86400)).map fun d =>
    let s := (seconds.fmod 86400).toNat
    ⟨d, s / 3600, s / 60 % 60, s % 60, micro, some 0⟩

def microText (micro : Nat) : List Char := if micro = 0 then [] else '.' :: padded 6 micro

def offsetText (offset : Int) : List Char :=
  let n := offset.natAbs
  let s := n / 1000000
  (if offset < 0 then '-' else '+') :: padded 2 (s / 3600) ++ ':' :: padded 2 (s / 60 % 60) ++
    (if s % 60 = 0 && n % 1000000 = 0 then [] else ':' :: padded 2 (s % 60)) ++
      microText (n % 1000000)

def text (separator : Char) (m : Moment) : List Char :=
  m.day.text ++ separator :: padded 2 m.hour ++ ':' :: padded 2 m.minute ++ ':' ::
    padded 2 m.second ++ microText m.micro ++ (m.offset.elim [] offsetText)

end Moment
end Medley.Calendar
