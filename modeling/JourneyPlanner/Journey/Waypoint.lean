import JourneyPlanner.Place.Json
import JourneyPlanner.Time.Span

/-!
# Waypoints

A waypoint is a place a caller wants to pass through, with an optional shortest
and longest wait in minutes. Resolved against the settings it becomes a
stopover, whose waits are known to be in order.
-/

namespace JourneyPlanner.Journey

open Json

/-- Why the waits at a waypoint were refused. -/
inductive WaitError where
  /-- A wait is longer than any wait may be. -/
  | tooLong (wait longest : Int)
  /-- A wait is negative. -/
  | negative (wait : Int)
  /-- A number of minutes is too large for a span. -/
  | outOfRange (minutes : Int)
  /-- The shortest wait is longer than the longest. -/
  | inverted (shortest longest : Int)
  deriving DecidableEq

/-- What a caller is told. -/
def WaitError.message : WaitError → String
  | .tooLong wait longest =>
    "wait time of " ++ toString (Span.inMinutes wait) ++ " minutes exceeds the maximum of " ++
      toString (Span.inMinutes longest) ++ " minutes"
  | .negative wait => "wait time of " ++ toString (Span.inMinutes wait) ++ " minutes is negative"
  | .outOfRange minutes => "wait time of " ++ toString minutes ++ " minutes is out of range"
  | .inverted shortest longest =>
    "minimum wait time of " ++ toString (Span.inMinutes shortest) ++
      " minutes exceeds maximum wait time of " ++ toString (Span.inMinutes longest) ++ " minutes"

/-- A location on a route, with the waits allowed there. -/
structure Stopover where
  /-- The location. -/
  location : Location
  /-- The shortest wait. -/
  minWait : Int
  /-- The longest wait. -/
  maxWait : Int
  /-- Nobody waits a negative time. -/
  minWait_nonneg : 0 ≤ minWait
  /-- The longest wait is at least the shortest. -/
  minWait_le_maxWait : minWait ≤ maxWait
  deriving DecidableEq

namespace Stopover

/-- An end of the route, where nobody waits. -/
def atEnd (location : Location) : Stopover :=
  ⟨location, 0, 0, Int.le_refl 0, Int.le_refl 0⟩

/-- Why a wait is refused, if it is. -/
def refusal? (wait limit : Int) : Option WaitError :=
  if wait < 0 then some (.negative wait)
  else if limit < wait then some (.tooLong wait limit)
  else none

/-- A location with the given waits, neither of which may exceed a limit. -/
def of (location : Location) (minWait maxWait limit : Int) : Except WaitError Stopover :=
  match hmin : refusal? minWait limit, refusal? maxWait limit with
  | some e, _ => .error e
  | none, some e => .error e
  | none, none =>
    if h : minWait ≤ maxWait then
      .ok ⟨location, minWait, maxWait, nonneg_of_refusal?_eq_none hmin, h⟩
    else .error (.inverted minWait maxWait)
where
  /-- A wait that is not refused is not negative. -/
  nonneg_of_refusal?_eq_none {wait limit : Int} (h : refusal? wait limit = none) : 0 ≤ wait := by
    rw [refusal?] at h
    split at h
    · cases h
    · omega

end Stopover

/-- A place to pass through, as the caller asks for it. -/
structure Waypoint where
  /-- The location. -/
  location : Location
  /-- The shortest wait in minutes; absent for the one in the settings. -/
  minWait : Option Int
  /-- The longest wait in minutes; absent for the one in the settings. -/
  maxWait : Option Int
  deriving DecidableEq

namespace Waypoint

/-- A number of minutes as a span, or a span of the settings if there is none. -/
def waitOr (fallback : Int) : Option Int → Except WaitError Int
  | none => .ok fallback
  | some minutes =>
    match Span.ofMinutes? minutes with
    | none => .error (.outOfRange minutes)
    | some wait => .ok wait

/-- The stopover at a waypoint, given the shortest wait that is usual and the longest that is
allowed. -/
def resolve (waypoint : Waypoint) (usual limit : Int) : Except WaitError Stopover := do
  let minWait ← waitOr usual waypoint.minWait
  let maxWait ← waitOr limit waypoint.maxWait
  Stopover.of waypoint.location minWait maxWait limit

/-- A waypoint as an object. -/
def toJson (waypoint : Waypoint) : Json :=
  .obj
    ([("location", waypoint.location.toJson)] ++
      optionalMember "min_wait_mins" .int waypoint.minWait ++
      optionalMember "max_wait_mins" .int waypoint.maxWait)

/-- Reads a waypoint. -/
def ofJson : Decoder Waypoint :=
  record ["location", "min_wait_mins", "max_wait_mins"]
    (Waypoint.mk <$> required "location" Location.ofJson <*> optional "min_wait_mins" int64 <*>
      optional "max_wait_mins" int64)

end Waypoint

end JourneyPlanner.Journey
