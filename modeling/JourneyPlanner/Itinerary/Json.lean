import JourneyPlanner.Itinerary
import JourneyPlanner.Leg.Json

/-!
# Itineraries as JSON

An itinerary is written without its identity, and with its notices only if it
has some; notices are never read. Without a cost of its own an itinerary costs
what its legs cost.
-/

namespace JourneyPlanner

open Json

/-- The answer of a construction whose reasons are told to the caller. -/
def Failure.toReadError {ε : Type} (message : ε → String) : Failure ε → ReadError
  | .refused reason => .refused (message reason)
  | .fault cause => .fault cause

/-- A notice as an object. -/
def Notice.toJson (notice : Notice) : Json :=
  .obj [("tag", .str notice.tag), ("text", .str notice.text)]

namespace Itinerary

/-- The members of an itinerary. -/
def members (it : Itinerary) : Members :=
  [("legs", .arr (it.legs.map Leg.toJson)), ("generalized_cost", .int it.cost),
    ("elevation_gained", .ofFloat it.climb), ("elevation_lost", .ofFloat it.descent),
    ("non_transit_limit_exceeded", .bool it.limitExceeded), ("too_sloped", .bool it.tooSloped)]

/-- An itinerary as an object. -/
def toJson (it : Itinerary) : Json :=
  .obj it.members

/-- The itinerary of the members that have been read. -/
def ofMembers (legs : List Leg) (cost : Option Int) (climb descent : Float)
    (limitExceeded tooSloped : Bool) : Except ReadError Itinerary :=
  ((ofLegs legs).mapError (Failure.toReadError ItineraryError.message)).map fun it =>
    { it with
      cost := cost.getD it.cost, climb := climb, descent := descent,
      limitExceeded := limitExceeded, tooSloped := tooSloped }

/-- The names of the members that are read, in order. -/
def memberNames : List String :=
  ["legs", "generalized_cost", "elevation_gained", "elevation_lost",
    "non_transit_limit_exceeded", "too_sloped"]

/-- Reads an itinerary. -/
def ofJson : Decoder Itinerary :=
  checked
    (record memberNames
      (ofMembers <$> required "legs" (list Leg.ofJson) <*> optional "generalized_cost" int64 <*>
        withDefault "elevation_gained" number 0.0 <*> withDefault "elevation_lost" number 0.0 <*>
        withDefault "non_transit_limit_exceeded" boolean false <*>
        withDefault "too_sloped" boolean false))
    id

end Itinerary

/-- A candidate as an object: its itinerary and, if it has some, its notices. -/
def Candidate.toJson (c : Candidate) : Json :=
  .obj
    (c.toItinerary.members ++
      (if c.notices.isEmpty then []
        else [("system_notices", .arr (c.notices.map Notice.toJson))]))

end JourneyPlanner
