import JourneyPlanner.Leg
import JourneyPlanner.Mode.Json
import JourneyPlanner.Place.Json
import JourneyPlanner.Time.Reader

/-!
# Legs as JSON

A leg is written with all its members but an absent trip. When a leg is read,
everything beyond mode, places and times may be left out.
-/

namespace JourneyPlanner

open Json

/-- An instant as its ISO text. -/
def Instant.toJson (instant : Instant) : Json :=
  .str instant.text

/-- Reads an instant. -/
def Instant.ofJson : Decoder Instant :=
  checked string fun value => (Instant.ofText? value).elim (.error .shape) .ok

namespace Leg

/-- A leg as an object. -/
def toJson (leg : Leg) : Json :=
  .obj
    ([("mode", leg.mode.toJson), ("from", leg.origin.toJson), ("to", leg.destination.toJson),
        ("start_time", leg.start.toJson), ("end_time", leg.finish.toJson),
        ("distance_meters", .ofFloat leg.distance), ("generalized_cost", .int leg.cost)] ++
      optionalMember "trip_id" .str leg.trip ++
      [("flexible_trip", .bool leg.flexible), ("walking_bike", .bool leg.walkingBike)])

/-- The leg of the members that have been read. -/
def ofMembers (mode : Mode) (origin destination : Place) (start finish : Instant)
    (distance : Float) (cost : Int) (trip : Option String) (flexible walkingBike : Bool) :
    Except ReadError Leg :=
  (orRefuse ItineraryError.message (Leg.of mode origin destination start finish)).map fun leg =>
    { leg with
      distance := distance, cost := cost, trip := trip, flexible := flexible,
      walkingBike := walkingBike }

/-- The names of a leg's members, in order. -/
def memberNames : List String :=
  ["mode", "from", "to", "start_time", "end_time", "distance_meters", "generalized_cost",
    "trip_id", "flexible_trip", "walking_bike"]

/-- Reads a leg. -/
def ofJson : Decoder Leg :=
  checked
    (record memberNames
      (ofMembers <$> required "mode" Mode.ofJson <*> required "from" Place.ofJson <*>
        required "to" Place.ofJson <*> required "start_time" Instant.ofJson <*>
        required "end_time" Instant.ofJson <*> withDefault "distance_meters" number 0.0 <*>
        withDefault "generalized_cost" int64 0 <*> optional "trip_id" string <*>
        withDefault "flexible_trip" boolean false <*> withDefault "walking_bike" boolean false))
    id

end Leg

end JourneyPlanner
