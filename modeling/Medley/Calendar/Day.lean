/-!
Days of the Gregorian calendar from year 1 to 9999, counted from 1 January of year 1 as day 1.
-/
namespace Medley.Calendar

structure Day where
  year : Nat
  month : Nat
  day : Nat
  deriving DecidableEq, Repr

def isLeap (year : Nat) : Bool := year % 4 == 0 && (year % 100 != 0 || year % 400 == 0)

def monthLength (year month : Nat) : Nat :=
  if month = 2 then if isLeap year then 29 else 28
  else if month = 4 || month = 6 || month = 9 || month = 11 then 30
  else 31

namespace Day

def ofYearMonthDay? (year month day : Nat) : Option Day :=
  if 1 ≤ year && year ≤ 9999 && 1 ≤ month && month ≤ 12 && 1 ≤ day && day ≤ monthLength year month
  then some ⟨year, month, day⟩ else none

def daysBefore (year : Nat) : Nat :=
  let y := year - 1
  365 * y + y / 4 - y / 100 + y / 400

def daysBeforeMonth (year : Nat) : Nat → Nat
  | 0 => 0
  | month + 1 => daysBeforeMonth year month + (if month = 0 then 0 else monthLength year month)

def number (d : Day) : Nat := daysBefore d.year + daysBeforeMonth d.year d.month + d.day

/- The month that holds the `n`th day of a year, and the day in it. -/
def monthFrom (year : Nat) : Nat → Nat → Nat → Nat × Nat
  | 0, month, n => (month, n)
  | fuel + 1, month, n =>
      if n ≤ monthLength year month then (month, n)
      else monthFrom year fuel (month + 1) (n - monthLength year month)

/- The year that holds day `n`, from a first guess that is not beyond it. -/
def yearFrom : Nat → Nat → Nat → Nat
  | 0, year, _ => year
  | fuel + 1, year, n => if n ≤ daysBefore (year + 1) then year else yearFrom fuel (year + 1) n

def ofNumber? (n : Int) : Option Day :=
  if n < 1 || 3652059 < n then none
  else
    let n := n.toNat
    let year := yearFrom 30 ((n - 1) / 366 + 1) n
    let (month, day) := monthFrom year 12 1 (n - daysBefore year)
    ofYearMonthDay? year month day

def weekday (n : Nat) : Nat := (n + 6) % 7

/-- Day `weekday` (Monday as 1) of a numbered week; the first week of a year is the one with
its first Thursday. -/
def ofWeek? (year week day : Nat) : Option Day :=
  if year < 1 || 9999 < year then none
  else
    let first := weekday (daysBefore year + 1)
    let long := first = 3 || (first = 2 && isLeap year)
    if week < 1 || 53 < week || (week = 53 && !long) || day < 1 || 7 < day then none
    else
      let monday : Int := (daysBefore year + 1 : Int) - first + (if 3 < first then 7 else 0)
      ofNumber? (monday + 7 * (week - 1 : Nat) + (day - 1 : Nat))

end Day
end Medley.Calendar
