import JourneyPlanner.Composition.Direction

/-!
# Sequences

A sequence joins itineraries, one after the other in the order of growth, with
a wait at each junction. An itinerary that stays on the street has no schedule
and slides in time to keep the shortest wait: a new one slides to follow the
sequence, and a sequence that has not ridden transit yet slides to meet the
first ride. Between two rides the schedule decides the wait.
-/

namespace JourneyPlanner.Composition

/-- One more itinerary of a sequence, and the wait before it is joined. -/
structure Link where
  /-- The wait at the junction. -/
  wait : Int
  /-- The itinerary. -/
  member : Candidate

/-- Itineraries that are joined at their ends. -/
structure Sequence where
  /-- Which way it grows. -/
  direction : Direction
  /-- The itinerary at the fixed end. -/
  first : Candidate
  /-- The other itineraries, in the order of growth. -/
  links : List Link
  /-- When the fixed end is passed. -/
  originTime : Instant
  /-- When the growing end is passed. -/
  frontierTime : Instant
  /-- Whether no itinerary rides transit. -/
  streetOnly : Bool

namespace Sequence

/-- A sequence of a single itinerary. -/
def single (direction : Direction) (first : Candidate) : Sequence where
  direction := direction
  first := first
  links := []
  originTime := direction.nearTime first.toItinerary
  frontierTime := direction.farTime first.toItinerary
  streetOnly := first.isStreetOnly

/-- The itineraries in the order of growth. -/
def grown (s : Sequence) : List Candidate :=
  s.first :: s.links.map Link.member

/-- The itineraries in the order they are travelled. -/
def members (s : Sequence) : List Candidate :=
  s.direction.inTravelOrder s.grown

/-- The waits between the itineraries, in the order they are travelled. -/
def waits (s : Sequence) : List Int :=
  s.direction.inTravelOrder (s.links.map Link.wait)

/-- The itinerary at the growing end. -/
def last (s : Sequence) : Candidate :=
  (s.links.getLast?.map Link.member).getD s.first

/-- When the journey starts. -/
def start (s : Sequence) : Instant :=
  match s.direction with
  | .departAt => s.originTime
  | .arriveBy => s.frontierTime

/-- When the journey ends. -/
def finish (s : Sequence) : Instant :=
  match s.direction with
  | .departAt => s.frontierTime
  | .arriveBy => s.originTime

/-- Where the journey starts. -/
def origin (s : Sequence) : Place :=
  match s.direction with
  | .departAt => s.first.origin
  | .arriveBy => s.last.origin

/-- Where the journey ends. -/
def destination (s : Sequence) : Place :=
  match s.direction with
  | .departAt => s.last.destination
  | .arriveBy => s.first.destination

/-- Where the sequence grows from. -/
def frontierPlace (s : Sequence) : Place :=
  s.direction.farPlace s.last.toItinerary

/-- The sequence with one more itinerary. -/
def push (s : Sequence) (wait : Int) (next : Candidate) (originTime frontierTime : Instant) :
    Sequence :=
  { s with
    links := s.links ++ [⟨wait, next⟩]
    originTime := originTime
    frontierTime := frontierTime
    streetOnly := s.streetOnly && next.isStreetOnly }

/-- Joins an itinerary to the growing end. There is no result if it does not touch that end,
or if the wait between two rides would lie outside the bounds. -/
def extend (s : Sequence) (next : Candidate) (minWait maxWait : Int) :
    Except Fault (Option Sequence) :=
  let sign := s.direction.sign
  let near := s.direction.nearTime next.toItinerary
  let far := s.direction.farTime next.toItinerary
  if !(s.direction.nearPlace next.toItinerary).sameLocation s.frontierPlace then .ok none
  else if next.isStreetOnly then do
    let frontier ← s.frontierTime.shift ((minWait + next.duration) * sign)
    return some (s.push minWait next s.originTime frontier)
  else if s.streetOnly then do
    let origin ← near.shift (-((minWait + s.finish.since s.start) * sign))
    return some (s.push minWait next origin far)
  else
    let gap := near.since s.frontierTime * sign
    if gap < minWait ∨ maxWait < gap then .ok none
    else .ok (some (s.push gap next s.originTime far))

end Sequence

end JourneyPlanner.Composition
