import JourneyPlanner.Json.Record
import JourneyPlanner.Place

/-!
# Places and locations as JSON

A stop or a coordinate that is not known is left out. Reading applies the
checks of the types, so a stop without characters or a coordinate off the globe
is refused.
-/

namespace JourneyPlanner

open Json

/-- A coordinate as an object of two numbers. -/
def Coordinate.toJson (coordinate : Coordinate) : Json :=
  .obj [("lat", .ofFloat coordinate.lat), ("lon", .ofFloat coordinate.lon)]

/-- Reads a coordinate. -/
def Coordinate.ofJson : Decoder Coordinate :=
  checked
    (record ["lat", "lon"] (Prod.mk <$> required "lat" number <*> required "lon" number))
    fun (lat, lon) => orRefuse PlaceError.message (Coordinate.of lat lon)

/-- A stop as its text. -/
def StopId.toJson (stop : StopId) : Json :=
  .str stop.text

/-- Reads a stop. -/
def StopId.ofJson : Decoder StopId :=
  checked string fun value => orRefuse PlaceError.message (StopId.of value)

/-- A place as an object. -/
def Place.toJson (place : Place) : Json :=
  .obj
    ([("name", .str place.name)] ++
      optionalMember "stop_id" StopId.toJson place.stop ++
      optionalMember "coordinate" Coordinate.toJson place.coordinate)

/-- Reads a place. -/
def Place.ofJson : Decoder Place :=
  record ["name", "stop_id", "coordinate"]
    (Place.mk <$> required "name" string <*> optional "stop_id" StopId.ofJson <*>
      optional "coordinate" Coordinate.ofJson)

/-- A location as an object. -/
def Location.toJson (location : Location) : Json :=
  .obj
    (optionalMember "label" .str location.label ++
      optionalMember "stop_id" StopId.toJson location.stop ++
      optionalMember "coordinate" Coordinate.toJson location.coordinate)

/-- Reads a location. -/
def Location.ofJson : Decoder Location :=
  record ["label", "stop_id", "coordinate"]
    (Location.mk <$> optional "label" string <*> optional "stop_id" StopId.ofJson <*>
      optional "coordinate" Coordinate.ofJson)

end JourneyPlanner
