import JourneyPlanner.Composition.Direction
import JourneyPlanner.Journey.Settings
import JourneyPlanner.Leg.Json
import JourneyPlanner.Mode.Json

/-!
# Journey requests

A journey as the caller asks for it: two ends, the places to pass through in
between, a time to depart after or to arrive by, and wishes about the answer.
-/

namespace JourneyPlanner.Journey

open Json
open JourneyPlanner.Composition (Direction)

/-- A journey as the caller asks for it. -/
structure Request where
  /-- Where to start. -/
  origin : Location
  /-- Where to end. -/
  destination : Location
  /-- The places to pass through, in order. -/
  waypoints : List Waypoint
  /-- The earliest departure, or the latest arrival. -/
  time : Instant
  /-- Whether `time` is the latest arrival. -/
  arriveBy : Bool
  /-- The search window in minutes; absent for the one in the settings. -/
  window : Option Int
  /-- The number of itineraries wanted; -1 for any. -/
  wanted : Int
  /-- The modes that may be used. -/
  modes : ModeChoice
  deriving DecidableEq

namespace Request

/-- The way itineraries for a request are composed. -/
def direction (request : Request) : Direction :=
  .ofArriveBy request.arriveBy

/-- The search window as a span; one out of range is refused. -/
def windowSpan (request : Request) : Except RequestError (Option Int) :=
  match request.window with
  | none => .ok none
  | some minutes =>
    if 0 ≤ minutes ∧ minutes ≤ Settings.longestWindow then .ok (some (Span.minutes minutes))
    else .error (.windowOutOfRange Settings.longestWindow minutes)

/-- The part of the calendar around the time that a request needs, to either side. -/
def horizon : Int :=
  Span.minutes (2 * Settings.longestWindow)

/-- Refuses a time that lies too close to an end of the calendar. -/
def checkTime (time : Instant) : Except RequestError Unit :=
  if (time.shift? horizon).isSome && (time.shift? (-horizon)).isSome then .ok ()
  else .error (.timeOutOfRange time)

/-- Refuses a number of itineraries below -1. -/
def checkCount (wanted : Int) : Except RequestError Unit :=
  if wanted < -1 then .error (.negativeCount wanted) else .ok ()

/-- Checks the number of itineraries, the window and the time, in this order. -/
def check (request : Request) : Except RequestError Unit := do
  checkCount request.wanted
  let _ ← request.windowSpan
  checkTime request.time

/-- The stopovers at waypoints; the first that is refused counts. -/
def resolveAll (usual limit : Int) : List Waypoint → Except WaitError (List Stopover)
  | [] => .ok []
  | waypoint :: rest => do
    let stopover ← waypoint.resolve usual limit
    return stopover :: (← resolveAll usual limit rest)

/-- The whole route, from one end through the waypoints to the other. -/
def stopovers (request : Request) (settings : Settings) : Except RequestError (List Stopover) :=
  ((resolveAll settings.transferSlackSpan settings.maxWaitSpan request.waypoints).mapError
      RequestError.wait).map fun between =>
    Stopover.atEnd request.origin :: between ++ [Stopover.atEnd request.destination]

/-- A request as an object. -/
def toJson (request : Request) : Json :=
  .obj
    ([("from", request.origin.toJson), ("to", request.destination.toJson),
        ("intermediate", .arr (request.waypoints.map Waypoint.toJson)),
        ("date_time", request.time.toJson), ("arrive_by", .bool request.arriveBy)] ++
      optionalMember "search_window_mins" .int request.window ++
      [("num_itineraries", .int request.wanted), ("modes", request.modes.toJson)])

/-- The names of the members, in order. -/
def memberNames : List String :=
  ["from", "to", "intermediate", "date_time", "arrive_by", "search_window_mins",
    "num_itineraries", "modes"]

/-- Reads a request; only the ends and the time have to be there. -/
def ofJson : Decoder Request :=
  record memberNames
    (Request.mk <$> required "from" Location.ofJson <*> required "to" Location.ofJson <*>
      withDefault "intermediate" (list Waypoint.ofJson) [] <*>
      required "date_time" Instant.ofJson <*> withDefault "arrive_by" boolean false <*>
      optional "search_window_mins" int64 <*> withDefault "num_itineraries" int32 (-1) <*>
      withDefault "modes" ModeChoice.ofJson ModeChoice.default)

end Request

end JourneyPlanner.Journey
