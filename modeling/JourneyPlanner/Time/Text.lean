import JourneyPlanner.Decimal.Layout
import JourneyPlanner.Time.Instant

/-!
# Texts of dates and instants

Dates and instants are written in ISO form without a zone. A fraction of a
second has three, six or nine digits and is left out when it is zero; a year
outside four digits carries its sign. An inserted second is written `60`.
For travellers an instant is only its hour and minute.
-/

namespace JourneyPlanner

open Decimal (padded)

/-- A date as `2024-03-15`. -/
def Date.text (date : Date) : String :=
  let year :=
    if 0 ≤ date.year ∧ date.year ≤ 9999 then padded 4 date.year.natAbs
    else (if date.year < 0 then "-" else "+") ++ padded 4 date.year.natAbs
  year ++ "-" ++ padded 2 date.month ++ "-" ++ padded 2 date.day

namespace Instant

/-- The hour of the day. -/
def hour (a : Instant) : Nat :=
  a.minuteOfDay / 60

/-- The minute of the hour. -/
def minute (a : Instant) : Nat :=
  a.minuteOfDay % 60

/-- The second of the minute, sixty for an inserted one. -/
def second (a : Instant) : Nat :=
  a.intoMinute / 1000000000

/-- The nanosecond of the second. -/
def nanosecond (a : Instant) : Nat :=
  a.intoMinute % 1000000000

/-- A fraction of a second as it follows the seconds. -/
def fractionText (nanoseconds : Nat) : String :=
  if nanoseconds = 0 then ""
  else if nanoseconds % 1000000 = 0 then "." ++ padded 3 (nanoseconds / 1000000)
  else if nanoseconds % 1000 = 0 then "." ++ padded 6 (nanoseconds / 1000)
  else "." ++ padded 9 nanoseconds

/-- An instant as `09:05`, for travellers. -/
def clockText (a : Instant) : String :=
  padded 2 a.hour ++ ":" ++ padded 2 a.minute

/-- The date and the time of day with a mark between them. -/
def textWith (mark : String) (a : Instant) : String :=
  a.date.text ++ mark ++ a.clockText ++ ":" ++ padded 2 a.second ++ fractionText a.nanosecond

/-- An instant as `2024-03-15T09:05:00`. -/
def text (a : Instant) : String :=
  a.textWith "T"

/-- An instant as diagnostics name it. -/
def diagnosticText (a : Instant) : String :=
  "TripTime(" ++ a.textWith " " ++ ")"

end Instant

end JourneyPlanner
