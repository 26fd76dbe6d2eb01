import JourneyPlanner.Decimal.Literal
import JourneyPlanner.Text.Blank
import JourneyPlanner.Time.Instant

/-!
# Reading instants

The ISO form is read leniently: month, day and the parts of the time may have
one digit or two, and blanks may stand before every part and at the end. A year
without a sign has at most four digits, one with a sign any number. The seconds
may not be left out; in any minute, `60` names the inserted second. Digits of a
fraction after the ninth are dropped.
-/

namespace JourneyPlanner

namespace Instant

/-- Reads a run of one to `most` digits after optional blanks: its value and what follows. -/
def readDigits? (most : Nat) (text : List Char) : Option (Nat × List Char) :=
  let text := Text.dropBlanks text
  let digits := (text.takeWhile Char.isDigit).take most
  if digits.isEmpty then none
  else some (Decimal.digitsValue 0 digits, text.drop digits.length)

/-- Reads a year after optional blanks. Only a year with a sign may be longer than four
digits; the digits follow the sign at once. -/
def readYear? (text : List Char) : Option (Int × List Char) :=
  match Text.dropBlanks text with
  | '-' :: digits => signed true digits
  | '+' :: digits => signed false digits
  | digits => (readDigits? 4 digits).map fun (year, rest) => (Int.ofNat year, rest)
where
  /-- A year whose sign has been read. -/
  signed (negative : Bool) (digits : List Char) : Option (Int × List Char) :=
    if (digits.head?.map Char.isDigit).getD false then
      (readDigits? digits.length digits).map fun (year, rest) =>
        (if negative then -Int.ofNat year else Int.ofNat year, rest)
    else none

/-- Reads a mark after optional blanks. -/
def readMark? (mark : Char) (text : List Char) : Option (List Char) :=
  match Text.dropBlanks text with
  | c :: rest => if c = mark then some rest else none
  | [] => none

/-- Reads an optional fraction of a second: its nanoseconds and what follows. -/
def readFraction? (text : List Char) : Option (Nat × List Char) :=
  match text with
  | '.' :: rest =>
    let digits := rest.takeWhile Char.isDigit
    let kept := digits.take 9
    if digits.isEmpty then none
    else some (Decimal.digitsValue 0 kept * Nat.pow 10 (9 - kept.length), rest.drop digits.length)
  | _ => some (0, text)

/-- The instant of a date and a time of day, if both exist and lie on the calendar. -/
def ofParts? (date : Date) (hour minute second nanosecond : Nat) : Option Instant :=
  let minuteNumber := date.dayNumber * 1440 + hour * 60 + minute
  let intoMinute := second * 1000000000 + nanosecond
  if date.isValid && hour < 24 && minute < 60 then
    if h : onCalendar minuteNumber ∧ intoMinute < 61000000000 then
      some ⟨minuteNumber, intoMinute, h.1, h.2⟩
    else none
  else none

/-- The instant a text spells, if it spells one. -/
def ofText? (text : String) : Option Instant := do
  let (year, rest) ← readYear? text.toList
  let (month, rest) ← readDigits? 2 (← readMark? '-' rest)
  let (day, rest) ← readDigits? 2 (← readMark? '-' rest)
  let (hour, rest) ← readDigits? 2 (← readMark? 'T' rest)
  let (minute, rest) ← readDigits? 2 (← readMark? ':' rest)
  let (second, rest) ← readDigits? 2 (← readMark? ':' rest)
  let (nanosecond, rest) ← readFraction? rest
  if (Text.dropBlanks rest).isEmpty then
    ofParts? ⟨year, month, day⟩ hour minute second nanosecond
  else none

end Instant

end JourneyPlanner
