import JourneyPlanner.Itinerary

/-!
# Searches between two points

What a search engine is asked, and what it answers. The window of a query is
either the caller's own time, with a length if one is set, or an exact interval.
-/

namespace JourneyPlanner.Search

/-- The time a query is about. -/
inductive Window where
  /-- The caller's own time, with the length of the window to search, if one is set. -/
  | unbounded (time : Instant) (length : Option Int)
  /-- Everything from the earliest to the latest instant. -/
  | bounded (earliest latest : Instant)
  deriving DecidableEq

namespace Window

/-- The instant a search starts from: the earliest departure, or the latest arrival. -/
def anchor (arriveBy : Bool) : Window → Instant
  | .unbounded time _ => time
  | .bounded earliest latest => if arriveBy then latest else earliest

/-- The length of the window, if it is known. -/
def length? : Window → Option Int
  | .unbounded _ length => length
  | .bounded earliest latest => some (latest.since earliest)

/-- Whether it is the caller's own time. -/
def isUnbounded : Window → Bool
  | .unbounded _ _ => true
  | .bounded _ _ => false

end Window

/-- The instants that searches from one location have to cover: none at first, later the
smallest interval that holds them all. -/
structure Coverage where
  /-- The location. -/
  location : Location
  /-- The earliest and the latest instant, if there are any. -/
  bounds : Option (Instant × Instant)
  deriving DecidableEq

namespace Coverage

/-- A location without instants. -/
def empty (location : Location) : Coverage :=
  ⟨location, none⟩

/-- Covers one more instant. -/
def cover (coverage : Coverage) (instant : Instant) : Coverage :=
  { coverage with
    bounds :=
      match coverage.bounds with
      | none => some (instant, instant)
      | some (earliest, latest) => some (earliest.earlier instant, latest.later instant) }

/-- The window to search: the interval, or the caller's own time while there is none. -/
def toWindow (coverage : Coverage) (time : Instant) (length : Option Int) : Window :=
  match coverage.bounds with
  | none => .unbounded time length
  | some (earliest, latest) => .bounded earliest latest

end Coverage

/-- What a search engine is asked. -/
structure Query where
  /-- Where to start. -/
  origin : Location
  /-- Where to end. -/
  destination : Location
  /-- Whether to arrive by a time instead of departing after one. -/
  arriveBy : Bool
  /-- When. -/
  window : Window
  /-- The modes that may be used. -/
  modes : ModeChoice

/-- Why a search found nothing. -/
inductive RoutingErrorCode where
  /-- No stop is within reach. -/
  | noStopsInRange
  /-- There is no connection within the window. -/
  | noTransitConnection
  /-- The date lies outside the timetable. -/
  | outsideServicePeriod
  deriving DecidableEq, Repr

/-- The part of a query that a search stumbled on. -/
inductive InputField where
  | origin
  | destination
  | time
  deriving DecidableEq, Repr

/-- What a search reports when it finds nothing. -/
structure RoutingError where
  /-- Why. -/
  code : RoutingErrorCode
  /-- The part of the query it is about. -/
  field : Option InputField
  deriving DecidableEq, Repr

/-- What a search engine answers. -/
structure Answer where
  /-- The itineraries it found. -/
  itineraries : List Candidate
  /-- Why there are not more. -/
  routingErrors : List RoutingError
  /-- The window it searched, if it chose one. -/
  windowUsed : Option Int
  /-- Itineraries that only bounded the search and are never shown. -/
  pruning : List Candidate

/-- An answer that only reports an error. -/
def Answer.failed (code : RoutingErrorCode) (field : Option InputField) : Answer :=
  ⟨[], [⟨code, field⟩], none, []⟩

/-- An answer without anything in it. -/
def Answer.empty : Answer :=
  ⟨[], [], none, []⟩

end JourneyPlanner.Search
