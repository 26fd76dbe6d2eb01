import JourneyPlanner.Itinerary

/-!
# Directions

A chain of itineraries grows away from the end of the journey that is fixed in
time: toward the destination when the departure is fixed, toward the origin
when the arrival is. What holds for both is said with the sign of the direction
and with the near end of a new itinerary, which touches the chain, and its far
end, which becomes the growing end.
-/

namespace JourneyPlanner.Composition

/-- Which way a chain of itineraries grows. -/
inductive Direction where
  /-- The departure is fixed and the chain grows at its end. -/
  | departAt
  /-- The arrival is fixed and the chain grows at its start. -/
  | arriveBy
  deriving DecidableEq, Repr

namespace Direction

/-- The direction of a search that arrives by a time, or departs at one. -/
def ofArriveBy (arriveBy : Bool) : Direction :=
  if arriveBy then .arriveBy else .departAt

/-- Whether the arrival is fixed. -/
def isArriveBy : Direction → Bool
  | .departAt => false
  | .arriveBy => true

/-- One where time runs with the growth, minus one where it runs against it. -/
def sign : Direction → Int
  | .departAt => 1
  | .arriveBy => -1

/-- When the near end of an itinerary is passed. -/
def nearTime : Direction → Itinerary → Instant
  | .departAt, it => it.start
  | .arriveBy, it => it.finish

/-- When the far end of an itinerary is passed. -/
def farTime : Direction → Itinerary → Instant
  | .departAt, it => it.finish
  | .arriveBy, it => it.start

/-- The place at the near end of an itinerary. -/
def nearPlace : Direction → Itinerary → Place
  | .departAt, it => it.origin
  | .arriveBy, it => it.destination

/-- The place at the far end of an itinerary. -/
def farPlace : Direction → Itinerary → Place
  | .departAt, it => it.destination
  | .arriveBy, it => it.origin

/-- Items given in the order of growth, put into the order of travel. -/
def inTravelOrder {α : Type} : Direction → List α → List α
  | .departAt, items => items
  | .arriveBy, items => items.reverse

end Direction

end JourneyPlanner.Composition
