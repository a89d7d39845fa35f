/-
The clock of a host. A moment is a number of microseconds since the epoch, seen
in a time zone. It is written as a date and a time of day, or as seconds.
-/

import NicScope.Text.Numeral

namespace NicScope

open Numeral

/-- A moment, and the seconds that local time is ahead of universal time. -/
structure Moment where
  micros : Nat
  zone : Int := 0
  deriving DecidableEq, Repr

/-- A day of the calendar. -/
structure Day where
  year : Int
  month : Nat
  day : Nat
  deriving DecidableEq, Repr

/-- The day that is `days` after the first of January 1970. Years are counted from
the first of March, so that a leap day is the last of its year. -/
def Day.ofDays (days : Int) : Day :=
  let shifted := days + 719468
  let era := shifted.fdiv 146097
  let dayOfEra := (shifted - era * 146097).toNat
  let yearOfEra := (dayOfEra - dayOfEra / 1460 + dayOfEra / 36524 - dayOfEra / 146096) / 365
  let dayOfYear := dayOfEra - (365 * yearOfEra + yearOfEra / 4 - yearOfEra / 100)
  let shiftedMonth := (5 * dayOfYear + 2) / 153
  let day := dayOfYear - (153 * shiftedMonth + 2) / 5 + 1
  let month := if shiftedMonth < 10 then shiftedMonth + 3 else shiftedMonth - 9
  ⟨era * 400 + yearOfEra + (if month ≤ 2 then 1 else 0), month, day⟩

namespace Moment

/-- The seconds of local time since the epoch. -/
def localSeconds (moment : Moment) : Int :=
  (moment.micros / 1000000 : Nat) + moment.zone

/-- Year, month and day. -/
def date (moment : Moment) : String :=
  let day := Day.ofDays (moment.localSeconds.fdiv 86400)
  paddedDecimal 4 day.year.toNat ++ "-" ++ paddedDecimal 2 day.month ++ "-" ++
    paddedDecimal 2 day.day

/-- Hours, minutes and seconds. -/
def time (moment : Moment) : String :=
  let second := (moment.localSeconds.fmod 86400).toNat
  paddedDecimal 2 (second / 3600) ++ ":" ++ paddedDecimal 2 (second / 60 % 60) ++ ":" ++
    paddedDecimal 2 (second % 60)

/-- A number of microseconds as seconds with six places. -/
def seconds (micros : Nat) : String :=
  decimal (micros / 1000000) ++ "." ++ paddedDecimal 6 (micros % 1000000)

end Moment

end NicScope
