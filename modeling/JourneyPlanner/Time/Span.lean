/-!
# Spans of time

A span is a whole number of nanoseconds, negative when it runs backward.
Callers give spans in minutes or milliseconds and get them back in minutes,
seconds or milliseconds, cut toward zero.
-/

namespace JourneyPlanner

namespace Span

/-- The nanoseconds of a millisecond. -/
def millisecond : Int := 1000000

/-- The nanoseconds of a second. -/
def second : Int := 1000 * millisecond

/-- The nanoseconds of a minute. -/
def minute : Int := 60 * second

/-- The longest span a caller can ask for, in either direction. -/
def longest : Int := (Int.pow 2 63 - 1) * millisecond

/-- A multiple of a unit, unless it is longer than any span a caller can ask for. -/
def multiple? (unit count : Int) : Option Int :=
  if -longest ≤ count * unit ∧ count * unit ≤ longest then some (count * unit) else none

/-- A span of minutes. -/
def ofMinutes? (count : Int) : Option Int :=
  multiple? minute count

/-- A span of milliseconds. -/
def ofMilliseconds? (count : Int) : Option Int :=
  multiple? millisecond count

/-- A span of minutes that is known to be short. -/
def minutes (count : Int) : Int :=
  count * minute

/-- The whole minutes of a span. -/
def inMinutes (span : Int) : Int :=
  span.tdiv minute

/-- The whole seconds of a span. -/
def inSeconds (span : Int) : Int :=
  span.tdiv second

/-- The whole milliseconds of a span. -/
def inMilliseconds (span : Int) : Int :=
  span.tdiv millisecond

end Span

end JourneyPlanner
