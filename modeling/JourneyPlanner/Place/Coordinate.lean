import JourneyPlanner.Decimal.Layout

/-!
# Coordinates and stops

The two ways to say where something is: by latitude and longitude, or by the
identifier of a stop. Neither type has a value that its checks would refuse.
-/

namespace JourneyPlanner

/-- Why a coordinate or a stop was refused. -/
inductive PlaceError where
  /-- The latitude or the longitude lies outside its range. -/
  | coordinateOutOfRange (lat lon : Float)
  /-- A stop identifier has no characters. -/
  | emptyStopId
  deriving DecidableEq

/-- What a caller is told. -/
def PlaceError.message : PlaceError → String
  | .coordinateOutOfRange lat lon =>
    "invalid coordinate: lat " ++ Decimal.plainText lat ++ ", lon " ++ Decimal.plainText lon
  | .emptyStopId => "stop id cannot be empty"

/-- Whether a latitude and a longitude in degrees exist on the globe; a not-a-number does not. -/
def coordinateInRange (lat lon : Float) : Bool :=
  -90.0 ≤ lat && lat ≤ 90.0 && -180.0 ≤ lon && lon ≤ 180.0

/-- A position on the globe, in degrees. -/
structure Coordinate where
  /-- The latitude. -/
  lat : Float
  /-- The longitude. -/
  lon : Float
  /-- Both lie in their ranges. -/
  inRange : coordinateInRange lat lon = true
  deriving DecidableEq

namespace Coordinate

/-- The coordinate of a latitude and a longitude. -/
def of (lat lon : Float) : Except PlaceError Coordinate :=
  if h : coordinateInRange lat lon = true then .ok ⟨lat, lon, h⟩
  else .error (.coordinateOutOfRange lat lon)

/-- Positions less than this many degrees apart, both ways, count as one. -/
def tolerance : Float := 1e-7

/-- Whether two coordinates are the same position up to the tolerance. -/
def sameLocation (a b : Coordinate) : Bool :=
  (a.lat - b.lat).abs < tolerance && (a.lon - b.lon).abs < tolerance

/-- The order by longitude, then latitude. -/
def compareByPosition (a b : Coordinate) : Ordering :=
  (Decimal.totalCompare a.lon b.lon).then (Decimal.totalCompare a.lat b.lat)

/-- A coordinate with five places, about a metre. -/
def text (a : Coordinate) : String :=
  "(" ++ Decimal.fixedText 5 a.lat ++ ", " ++ Decimal.fixedText 5 a.lon ++ ")"

end Coordinate

/-- The identifier of a stop. -/
structure StopId where
  /-- Its text. -/
  text : String
  /-- There is at least one character. -/
  nonempty : text ≠ ""
  deriving DecidableEq

namespace StopId

/-- The stop of an identifier. -/
def of (text : String) : Except PlaceError StopId :=
  if h : text = "" then .error .emptyStopId else .ok ⟨text, h⟩

/-- The order of identifiers by character. -/
def compareByText (a b : StopId) : Ordering :=
  compareOfLessAndEq a.text b.text

/-- A stop as diagnostics name it. -/
def diagnosticText (a : StopId) : String :=
  "StopId(" ++ a.text ++ ")"

end StopId

end JourneyPlanner
