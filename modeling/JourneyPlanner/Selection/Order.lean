import JourneyPlanner.Itinerary

/-!
# The order of presentation

Journeys that depart after a time are shown by arrival, the earliest first;
those that arrive by a time by departure, the latest first. Cost and then
duration decide between equals, and the sorting leaves full equals in place.
-/

namespace JourneyPlanner

/-- The order two itineraries are shown in. -/
def Itinerary.compareForShow (arriveBy : Bool) (a b : Itinerary) : Ordering :=
  let byTime :=
    if arriveBy then compare b.start a.start
    else compare a.finish b.finish
  (byTime.then (compare a.cost b.cost)).then (compare a.duration b.duration)

namespace Selection

/-- Whether a candidate may be shown in front of another. -/
def mayPrecede (arriveBy : Bool) (a b : Candidate) : Bool :=
  a.toItinerary.compareForShow arriveBy b.toItinerary != .gt

/-- The candidates in the order they are shown. -/
def sortForShow (arriveBy : Bool) (candidates : List Candidate) : List Candidate :=
  candidates.mergeSort (mayPrecede arriveBy)

end Selection

end JourneyPlanner
