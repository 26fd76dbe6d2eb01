import JourneyPlanner.Composition.Flatten
import JourneyPlanner.Journey.Error
import JourneyPlanner.Search.Query

/-!
# Assembling a route

A route through waypoints is assembled junction by junction, in the order of
growth. Each step searches between the two ends of a junction, once for every
place that the sequences so far have reached, and joins what is found to the
sequences. Only sequences that could be continued go on to the next step.
-/

namespace JourneyPlanner.Composition

open Journey (RequestError Stopover)
open Search (Coverage Query)

/-- Two neighbours on a route, in the order of travel. -/
structure Junction where
  /-- The one that is left. -/
  origin : Stopover
  /-- The one that is reached. -/
  destination : Stopover
  deriving DecidableEq

namespace Junction

/-- The junctions of a route. -/
def along : List Stopover → List Junction
  | a :: b :: rest => ⟨a, b⟩ :: along (b :: rest)
  | _ => []

/-- The stopover at which what is found joins the sequences so far. -/
def mergeEnd (direction : Direction) (junction : Junction) : Stopover :=
  match direction with
  | .departAt => junction.origin
  | .arriveBy => junction.destination

end Junction

/-- A route on its way to being assembled. -/
structure Assembly where
  /-- Which way sequences grow. -/
  direction : Direction
  /-- The junctions, in the order of growth. -/
  junctions : List Junction
  /-- How many junctions have been begun. -/
  step : Nat
  /-- The sequences that bridge the junctions before this one. -/
  sequences : List Sequence
  /-- The time the caller asks for. -/
  time : Instant
  /-- The length of the window to search, if one is set. -/
  windowLength : Option Int
  /-- The modes that may be used. -/
  modes : ModeChoice

namespace Assembly

/-- An assembly along a route, before its first junction. -/
def start (direction : Direction) (route : List Stopover) (time : Instant)
    (windowLength : Option Int) (modes : ModeChoice) : Except RequestError Assembly :=
  if route.length < 2 then .error (.tooFewLocations route.length)
  else
    .ok
      { direction := direction
        junctions := direction.inTravelOrder (Junction.along route)
        step := 0
        sequences := []
        time := time
        windowLength := windowLength
        modes := modes }

/-- Whether there are junctions left. -/
def hasNext (a : Assembly) : Bool :=
  a.step < a.junctions.length

/-- Goes on to the next junction, if there is one. -/
def advance (a : Assembly) : Assembly :=
  if a.hasNext then { a with step := a.step + 1 } else a

/-- The junction that is being bridged; none before the first. -/
def junction? (a : Assembly) : Option Junction :=
  if a.step = 0 then none else a.junctions[a.step - 1]?

/-- The stopover at which what is found joins the sequences so far. -/
def mergeEnd? (a : Assembly) : Option Stopover :=
  a.junction?.map (Junction.mergeEnd a.direction)

/-- Whether the first junction is being bridged. -/
def isFirstStep (a : Assembly) : Bool :=
  a.step == 1

/-- Adds an instant to the coverage of the first place known to be the same location, or
opens a new coverage for the place at the end. -/
def coverPlace (place : Place) (instant : Instant) :
    List (Place × Coverage) → List (Place × Coverage)
  | [] => [(place, (Coverage.empty (Location.ofPlace place)).cover instant)]
  | (known, coverage) :: rest =>
    if known.sameLocation place then (known, coverage.cover instant) :: rest
    else (known, coverage) :: coverPlace place instant rest

/-- The coverages of the places that sequences have reached. Each sequence adds its growing end
moved by the shortest wait. -/
def coverSequences (offset : Int) :
    List (Place × Coverage) → List Sequence → Except Fault (List (Place × Coverage))
  | covered, [] => .ok covered
  | covered, s :: rest => do
    let instant ← s.frontierTime.shift offset
    coverSequences offset (coverPlace s.frontierPlace instant covered) rest

/-- What the searches of this step have to cover: on the first one the stopover itself, without
instants; later every place reached, in the order of stops and positions. -/
def coverages (a : Assembly) : Except Fault (List Coverage) :=
  match a.mergeEnd? with
  | none => .ok []
  | some mergeEnd =>
    if a.isFirstStep then .ok [.empty mergeEnd.location]
    else
      (coverSequences (mergeEnd.minWait * a.direction.sign) [] a.sequences).map fun covered =>
        (covered.mergeSort fun x y => x.1.compareByReference y.1 != .gt).map Prod.snd

/-- The query for one coverage of this step. -/
def query? (a : Assembly) (coverage : Coverage) : Option Query :=
  a.junction?.map fun junction =>
    { origin :=
        match a.direction with
        | .departAt => coverage.location
        | .arriveBy => junction.origin.location
      destination :=
        match a.direction with
        | .departAt => junction.destination.location
        | .arriveBy => coverage.location
      arriveBy := a.direction.isArriveBy
      window := coverage.toWindow a.time a.windowLength
      modes := a.modes }

/-- Joins every one of some itineraries to a sequence, where that is possible. -/
def extensions (s : Sequence) (minWait maxWait : Int) :
    List Candidate → Except Fault (List Sequence)
  | [] => .ok []
  | next :: rest => do
    let extended ← s.extend next minWait maxWait
    return extended.toList ++ (← extensions s minWait maxWait rest)

/-- Joins itineraries to every one of some sequences, where that is possible. -/
def extendAll (found : List Candidate) (minWait maxWait : Int) :
    List Sequence → Except Fault (List Sequence)
  | [] => .ok []
  | s :: rest => do
    let extended ← extensions s minWait maxWait found
    return extended ++ (← extendAll found minWait maxWait rest)

/-- Takes in what this step has found: on the first one every itinerary begins a sequence, later
only sequences that an itinerary continues are kept. -/
def merge (a : Assembly) (found : List Candidate) : Except Fault Assembly :=
  match a.mergeEnd? with
  | none => .ok a
  | some mergeEnd =>
    if a.isFirstStep then .ok { a with sequences := found.map (Sequence.single a.direction) }
    else
      (extendAll found mergeEnd.minWait mergeEnd.maxWait a.sequences).map fun sequences =>
        { a with sequences := sequences }

/-- The itineraries the sequences come to. -/
def itineraries (a : Assembly) : Except (Failure ItineraryError) (List Candidate) :=
  Sequence.flattenAll 0 a.sequences

end Assembly

end JourneyPlanner.Composition
