import JourneyPlanner.Fault
import JourneyPlanner.Time.Date
import JourneyPlanner.Time.Span

/-!
# Instants

An instant is a point on one timeline that covers the calendar from the first
day of the year -262143 to the last of 262142. Moving an instant off either end
is a fault. Away from inserted seconds instants compare and subtract as the
nanoseconds they stand for, so journeys across midnight need no special care.

Any minute may have a second inserted behind its sixtieth. An instant in such a
second lies between its minute and the next one. A span that leads out of the
second forward does not count it; the span between two instants counts the
second of the one that is passed earlier in the day.
-/

namespace JourneyPlanner

/-- Whether a number of minutes since the start of 1970 lies on the calendar. -/
def onCalendar (minutes : Int) : Prop :=
  -138910020480 ≤ minutes ∧ minutes < 136837781280

instance (minutes : Int) : Decidable (onCalendar minutes) :=
  inferInstanceAs (Decidable (_ ∧ _))

/-- A point in time. -/
structure Instant where
  /-- The minute that holds it, counted from the start of 1970. -/
  minuteNumber : Int
  /-- The nanoseconds since that minute began. -/
  intoMinute : Nat
  /-- The calendar has a date for it. -/
  bounded : onCalendar minuteNumber
  /-- No minute has more than one inserted second. -/
  within : intoMinute < 61000000000
  deriving DecidableEq

namespace Instant

/-- An instant is its minute and what has passed of it. -/
@[ext] theorem ext {a b : Instant} (hminute : a.minuteNumber = b.minuteNumber)
    (hinto : a.intoMinute = b.intoMinute) : a = b := by
  cases a; cases b; cases hminute; cases hinto; rfl

/-- Whether it lies in an inserted second. -/
def isInserted (a : Instant) : Bool :=
  60000000000 ≤ a.intoMinute

/-- The nanoseconds since the start of 1970, inserted seconds of earlier minutes left out. -/
def nanos (a : Instant) : Int :=
  a.minuteNumber * 60000000000 + a.intoMinute

/-- The place of an instant among all, each minute having room for an inserted second. -/
def rank (a : Instant) : Int :=
  a.minuteNumber * 61000000000 + a.intoMinute

instance : Ord Instant := ⟨fun a b => compare a.rank b.rank⟩

instance : LE Instant := ⟨fun a b => a.rank ≤ b.rank⟩

instance : LT Instant := ⟨fun a b => a.rank < b.rank⟩

instance (a b : Instant) : Decidable (a ≤ b) :=
  inferInstanceAs (Decidable (a.rank ≤ b.rank))

instance (a b : Instant) : Decidable (a < b) :=
  inferInstanceAs (Decidable (a.rank < b.rank))

/-- Instants are ordered as their places among all are. -/
theorem le_def {a b : Instant} : a ≤ b ↔ a.rank ≤ b.rank := Iff.rfl

/-- Instants are strictly ordered as their places among all are. -/
theorem lt_def {a b : Instant} : a < b ↔ a.rank < b.rank := Iff.rfl

/-- Different instants have different places. -/
theorem eq_of_rank_eq {a b : Instant} (h : a.rank = b.rank) : a = b := by
  have ha := a.within
  have hb := b.within
  rw [rank, rank] at h
  exact ext (by omega) (by omega)

/-- Away from inserted seconds the order is that of the nanoseconds. -/
theorem le_iff_nanos_le {a b : Instant} (ha : a.isInserted = false) (hb : b.isInserted = false) :
    a ≤ b ↔ a.nanos ≤ b.nanos := by
  simp only [isInserted, decide_eq_false_iff_not] at ha hb
  rw [le_def, rank, rank, nanos, nanos]
  omega

/-- The earlier of two instants. -/
def earlier (a b : Instant) : Instant :=
  if a ≤ b then a else b

/-- The later of two instants. -/
def later (a b : Instant) : Instant :=
  if a ≤ b then b else a

/-- The instant of some nanoseconds since the start of 1970, outside inserted seconds. -/
def ofNanos? (nanos : Int) : Option Instant :=
  if h : onCalendar (nanos / 60000000000) then
    some ⟨nanos / 60000000000, (nanos % 60000000000).toNat, h, by omega⟩
  else none

/-- The instant a span later, if it is still on the calendar. From an inserted second a span may
lead back into its minute, stay within the second, or leave it forward without counting it. -/
def shift? (a : Instant) (span : Int) : Option Instant :=
  let moved := a.intoMinute + span
  if a.isInserted = false ∨ moved < 60000000000 then ofNanos? (a.nanos + span)
  else if h : moved < 61000000000 then some ⟨a.minuteNumber, moved.toNat, a.bounded, by omega⟩
  else ofNanos? (a.nanos + span - Span.second)

/-- The instant a span later; leaving the calendar is a fault. -/
def shift (a : Instant) (span : Int) : Except Fault Instant :=
  (a.shift? span).elim (.error .offCalendar) .ok

/-- The minutes since midnight. -/
def minuteOfDay (a : Instant) : Nat :=
  (a.minuteNumber % 1440).toNat

/-- The length of the inserted second that holds `a`, if `b` comes in a later minute of its
day. -/
def insertedBefore (a b : Instant) : Int :=
  if a.isInserted && a.minuteOfDay < b.minuteOfDay then Span.second else 0

/-- The span from `b` to `a`, negative if `b` is the later one. -/
def since (a b : Instant) : Int :=
  a.nanos - b.nanos + b.insertedBefore a - a.insertedBefore b

/-- The date of an instant. -/
def date (a : Instant) : Date :=
  Date.ofDayNumber (a.minuteNumber / 1440)

/-- An instant of some nanoseconds has these nanoseconds and no inserted second. -/
theorem nanos_of_ofNanos? {a : Instant} {n : Int} (h : ofNanos? n = some a) :
    a.nanos = n ∧ a.isInserted = false := by
  rw [ofNanos?] at h
  split at h
  · cases h
    simp only [nanos, isInserted, decide_eq_false_iff_not]
    omega
  · cases h

/-- Away from inserted seconds an instant is that of its nanoseconds. -/
theorem ofNanos?_nanos {a : Instant} (ha : a.isInserted = false) : ofNanos? a.nanos = some a := by
  simp only [isInserted, decide_eq_false_iff_not] at ha
  have hminute : a.nanos / 60000000000 = a.minuteNumber := by rw [nanos]; omega
  have hinto : (a.nanos % 60000000000).toNat = a.intoMinute := by rw [nanos]; omega
  rw [ofNanos?, dif_pos (by rw [hminute]; exact a.bounded)]
  exact congrArg some (ext hminute hinto)

/-- A move succeeds where the calendar still has a date. -/
theorem shift_eq_ok_iff {a b : Instant} {span : Int} :
    a.shift span = .ok b ↔ a.shift? span = some b := by
  rw [shift]
  cases a.shift? span <;> simp

/-- Away from inserted seconds a move leads to the nanoseconds it spans, and stays away from
inserted seconds. -/
theorem nanos_of_shift {a b : Instant} {span : Int} (ha : a.isInserted = false)
    (hok : a.shift span = .ok b) : b.nanos = a.nanos + span ∧ b.isInserted = false := by
  rw [shift_eq_ok_iff, shift?, if_pos (.inl ha)] at hok
  exact nanos_of_ofNanos? hok

/-- An instant moved by nothing stays. -/
theorem shift_zero (a : Instant) : a.shift 0 = .ok a := by
  rw [shift_eq_ok_iff, shift?]
  have hwithin := a.within
  cases ha : a.isInserted with
  | false => rw [if_pos (.inl rfl), Int.add_zero, ofNanos?_nanos ha]
  | true =>
    simp only [isInserted, decide_eq_true_eq] at ha
    rw [if_neg (by simp; omega), dif_pos (by omega)]
    exact congrArg some (ext rfl (by simp))

/-- Away from inserted seconds the span between two instants is that of their nanoseconds. -/
theorem since_eq {a b : Instant} (ha : a.isInserted = false) (hb : b.isInserted = false) :
    a.since b = a.nanos - b.nanos := by
  simp [since, insertedBefore, ha, hb]

end Instant

end JourneyPlanner
