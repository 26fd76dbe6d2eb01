import JourneyPlanner.Place.Coordinate

/-!
# Places and locations

A place is where a leg starts or ends. A location is what a caller asks to
travel from or to. Results of separate searches are joined where two places are
the same location: close enough on the globe, or at one stop.
-/

namespace JourneyPlanner

/-- A point along a journey: a stop, a coordinate or both, with a name. -/
structure Place where
  /-- The name shown to travellers. -/
  name : String
  /-- The stop, if it is one. -/
  stop : Option StopId
  /-- The position, if it is known. -/
  coordinate : Option Coordinate
  deriving DecidableEq

/-- Whether two positions are known and the same. -/
def sameCoordinate : Option Coordinate → Option Coordinate → Bool
  | some a, some b => a.sameLocation b
  | _, _ => false

/-- Whether two stops are known and the same. -/
def sameStop : Option StopId → Option StopId → Bool
  | some a, some b => decide (a = b)
  | _, _ => false

/-- Compares values that may be absent; an absent one comes last. -/
def compareAbsentLast {α : Type} (cmp : α → α → Ordering) : Option α → Option α → Ordering
  | some a, some b => cmp a b
  | some _, none => .lt
  | none, some _ => .gt
  | none, none => .eq

namespace Place

/-- Whether two places are the same location: the same position, or the same stop. -/
def sameLocation (a b : Place) : Bool :=
  sameCoordinate a.coordinate b.coordinate || sameStop a.stop b.stop

/-- The order by stop, then by position; a place without comes after those with. -/
def compareByReference (a b : Place) : Ordering :=
  (compareAbsentLast StopId.compareByText a.stop b.stop).then
    (compareAbsentLast Coordinate.compareByPosition a.coordinate b.coordinate)

/-- The name with the stop, or else with the position. -/
def text (a : Place) : String :=
  match a.stop, a.coordinate with
  | some stop, _ => a.name ++ " (" ++ stop.text ++ ")"
  | none, some coordinate => a.name ++ " " ++ coordinate.text
  | none, none => a.name

end Place

/-- What a caller asks to travel from or to: a stop, a coordinate or both. -/
structure Location where
  /-- What the caller calls it. -/
  label : Option String
  /-- The stop asked for. -/
  stop : Option StopId
  /-- The position asked for. -/
  coordinate : Option Coordinate
  deriving DecidableEq

namespace Location

/-- The location of a stop. -/
def atStop (stop : StopId) : Location :=
  ⟨none, some stop, none⟩

/-- The location of a position. -/
def atPosition (coordinate : Coordinate) : Location :=
  ⟨none, none, some coordinate⟩

/-- The location a place is at, labelled with its name. -/
def ofPlace (place : Place) : Location :=
  ⟨some place.name, place.stop, place.coordinate⟩

/-- The place a location stands for; without a label its name is empty. -/
def toPlace (location : Location) : Place :=
  ⟨location.label.getD "", location.stop, location.coordinate⟩

/-- Whether a place is the location asked for. -/
def isAt (location : Location) (place : Place) : Bool :=
  location.toPlace.sameLocation place

end Location

end JourneyPlanner
