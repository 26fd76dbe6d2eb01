import JourneyPlanner.Search.Query

/-!
# Replaying known itineraries

A search can be answered from a fixed list of itineraries: those that run
between the two locations on the right side of the time asked for. When there
is none, the first of four questions that fails is reported: does any start at
the origin, does any of those end at the destination, does any of those run on
the day asked for, and is any of those early or late enough.
-/

namespace JourneyPlanner.Search

/-- Whether an itinerary departs after the time asked for, or arrives by it. -/
def fitsAnchor (query : Query) (c : Candidate) : Bool :=
  let anchor := query.window.anchor query.arriveBy
  if query.arriveBy then decide (c.finish ≤ anchor) else decide (anchor ≤ c.start)

/-- Whether an itinerary starts or ends on the day asked for. -/
def runsOnDay (query : Query) (c : Candidate) : Bool :=
  let day := (query.window.anchor query.arriveBy).date
  c.start.date == day || c.finish.date == day

/-- The length of the window as reported back, which no window without length has. -/
def windowUsed? (window : Window) : Option Int :=
  window.length?.filter fun length => 0 < length

/-- The answer from a list of known itineraries. -/
def replay (known : List Candidate) (query : Query) : Answer :=
  let fromOrigin := known.filter fun c => query.origin.isAt c.origin
  let between := fromOrigin.filter fun c => query.destination.isAt c.destination
  let found := between.filter (fitsAnchor query)
  if fromOrigin.isEmpty then .failed .noStopsInRange (some .origin)
  else if between.isEmpty then .failed .noStopsInRange (some .destination)
  else if !between.any (runsOnDay query) then .failed .outsideServicePeriod (some .time)
  else if found.isEmpty then .failed .noTransitConnection none
  else ⟨found, [], windowUsed? query.window, []⟩

end JourneyPlanner.Search
