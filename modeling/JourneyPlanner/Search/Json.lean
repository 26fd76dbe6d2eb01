import JourneyPlanner.Search.Query
import JourneyPlanner.Json.Record

/-!
# Search results as JSON

The words for what a search reports when it finds nothing.
-/

namespace JourneyPlanner.Search

/-- The word for a reason. -/
def RoutingErrorCode.text : RoutingErrorCode → String
  | .noStopsInRange => "NO_STOPS_IN_RANGE"
  | .noTransitConnection => "NO_TRANSIT_CONNECTION"
  | .outsideServicePeriod => "OUTSIDE_SERVICE_PERIOD"

/-- The reason of a word. -/
def RoutingErrorCode.ofText? (word : String) : Option RoutingErrorCode :=
  [.noStopsInRange, .noTransitConnection, .outsideServicePeriod].find? fun code =>
    code.text == word

/-- The word for a part of a query. -/
def InputField.text : InputField → String
  | .origin => "FROM_PLACE"
  | .destination => "TO_PLACE"
  | .time => "DATE_TIME"

/-- The part of a query of a word. -/
def InputField.ofText? (word : String) : Option InputField :=
  [.origin, .destination, .time].find? fun field => field.text == word

/-- A report as an object. -/
def RoutingError.toJson (error : RoutingError) : Json :=
  .obj
    ([("code", .str error.code.text)] ++
      Json.optionalMember "input_field" (fun field => .str field.text) error.field)

/-- Reads a report. -/
def RoutingError.ofJson : Json.Decoder RoutingError :=
  Json.record ["code", "input_field"]
    (RoutingError.mk <$> Json.required "code" (Json.word RoutingErrorCode.ofText?) <*>
      Json.optional "input_field" (Json.word InputField.ofText?))

end JourneyPlanner.Search
