/-!
# Faults

Arithmetic that has no answer: an instant moved off the calendar, or costs that
sum to more than 64 bits. A fault ends the whole computation; it is no error
that a caller is told about.
-/

namespace JourneyPlanner

/-- Why a computation has no result. -/
inductive Fault where
  /-- An instant would leave the calendar. -/
  | offCalendar
  /-- A sum of costs does not fit 64 bits. -/
  | costOverflow
  deriving DecidableEq, Repr

/-- Whether a number fits a signed 64-bit word. -/
def fitsWord (n : Int) : Bool :=
  -Int.pow 2 63 ≤ n && n < Int.pow 2 63

/-- Adds costs from left to right onto a start; every sum on the way has to fit 64 bits. -/
def sumCostsFrom (start : Int) : List Int → Except Fault Int
  | [] => .ok start
  | cost :: rest =>
    if fitsWord (start + cost) then sumCostsFrom (start + cost) rest else .error .costOverflow

/-- The sum of costs. -/
def sumCosts (costs : List Int) : Except Fault Int :=
  sumCostsFrom 0 costs

/-- A sum of costs that has an answer is the plain sum. -/
theorem sumCostsFrom_eq {start total : Int} {costs : List Int}
    (hok : sumCostsFrom start costs = .ok total) : total = costs.foldl (· + ·) start := by
  induction costs generalizing start with
  | nil => simpa [sumCostsFrom, eq_comm] using hok
  | cons cost rest ih =>
    rw [sumCostsFrom] at hok
    split at hok
    · exact ih hok
    · cases hok

end JourneyPlanner
