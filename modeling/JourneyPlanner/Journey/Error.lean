import JourneyPlanner.Journey.Waypoint
import JourneyPlanner.Selection.Plan
import JourneyPlanner.Time.Text

/-!
# Why a journey was not routed

Everything a caller can be told instead of an answer. What is wrong with the
request, the settings or the options is found before any search; after that
only the search engine itself can fail.
-/

namespace JourneyPlanner.Journey

/-- What is wrong with a request. -/
inductive RequestError where
  /-- The number of itineraries wanted is below -1. -/
  | negativeCount (wanted : Int)
  /-- The search window is negative or longer than the longest one. -/
  | windowOutOfRange (longest minutes : Int)
  /-- The time lies too close to an end of the calendar. -/
  | timeOutOfRange (time : Instant)
  /-- The waits at a waypoint were refused. -/
  | wait (reason : WaitError)
  /-- A route needs two ends. -/
  | tooFewLocations (count : Nat)
  deriving DecidableEq

/-- What a caller is told. -/
def RequestError.message : RequestError → String
  | .negativeCount wanted => "num_itineraries must be -1 or non-negative, got " ++ toString wanted
  | .windowOutOfRange longest minutes =>
    "search window must be between 0 and " ++ toString longest ++ " minutes, got " ++
      toString minutes
  | .timeOutOfRange time => "date_time " ++ time.diagnosticText ++ " is out of range"
  | .wait reason => reason.message
  | .tooFewLocations count =>
    "at least an origin and a destination are required, got " ++ toString count ++ " locations"

/-- Why a journey was not routed. -/
inductive SearchError where
  /-- The request is refused. -/
  | request (reason : RequestError)
  /-- A setting in minutes is out of range. -/
  | settings (name : String) (minutes : Int)
  /-- The search engine failed. -/
  | engine (message : String)
  /-- The options of selection are refused. -/
  | selection (reason : Selection.PlanError)
  /-- A composed itinerary could not be built. -/
  | composition (reason : ItineraryError)
  deriving DecidableEq

/-- What a caller is told. -/
def SearchError.message : SearchError → String
  | .request reason => "invalid search request: " ++ reason.message
  | .settings name minutes =>
    "invalid search config: " ++ name ++ " = " ++ toString minutes ++ " minutes"
  | .engine message => "search backend failed: " ++ message
  | .selection reason => reason.message
  | .composition reason => reason.message

end JourneyPlanner.Journey
