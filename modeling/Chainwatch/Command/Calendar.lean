import Chainwatch.Text.Pad

/-!
# Calendar

Seconds since the Unix epoch as date and time in UTC, in the Gregorian calendar extended to all
years. Years are counted through zero; those that do not have four digits carry a sign.
-/

namespace Chainwatch.Calendar

structure Date where
  year : Int
  month : Nat
  day : Nat
  deriving DecidableEq, Repr

/-- The date that lies so many days after 1970-01-01. The year is taken to begin in March, so that
the leap day is its last, and days are counted within cycles of 400 years. -/
def dateOfDays (days : Int) : Date :=
  let shifted := days + 719468
  let cycle := shifted.fdiv 146097
  let dayOfCycle := (shifted.fmod 146097).toNat
  let yearOfCycle := (dayOfCycle - dayOfCycle / 1460 + dayOfCycle / 36524 - dayOfCycle / 146096) / 365
  let dayOfYear := dayOfCycle - (365 * yearOfCycle + yearOfCycle / 4 - yearOfCycle / 100)
  let monthFromMarch := (5 * dayOfYear + 2) / 153
  let month := if monthFromMarch < 10 then monthFromMarch + 3 else monthFromMarch - 9
  { year := yearOfCycle + cycle * 400 + (if month ≤ 2 then 1 else 0)
    month := month
    day := dayOfYear - (153 * monthFromMarch + 2) / 5 + 1 }

def digits (width n : Nat) : String :=
  let s := toString n
  String.ofList (List.replicate (width - s.toList.length) '0') ++ s

/-- The year in four digits, or with its sign where these do not do. -/
def showYear (year : Int) : String :=
  if 0 ≤ year ∧ year ≤ 9999 then digits 4 year.toNat
  else (if year < 0 then "-" else "+") ++ digits 4 year.natAbs

def isShown (year : Int) : Bool :=
  -262143 ≤ year && year ≤ 262142

/-- Date and time so many seconds after the epoch, unless they lie beyond the years shown. -/
def dateTime? (seconds : Int) : Option String :=
  let date := dateOfDays (seconds.fdiv 86400)
  let second := (seconds.fmod 86400).toNat
  if isShown date.year then
    some (showYear date.year ++ "-" ++ digits 2 date.month ++ "-" ++ digits 2 date.day ++ " "
      ++ digits 2 (second / 3600) ++ ":" ++ digits 2 (second / 60 % 60) ++ ":"
      ++ digits 2 (second % 60))
  else none

end Chainwatch.Calendar
