import JourneyPlanner.Itinerary

/-!
# Similar itineraries

Two itineraries are similar when they ride the same trips on their main legs,
the longest rides that together cover a given share of the whole journey. Of
each group of similar itineraries the cheapest few are kept. An itinerary that
stays on the street has no main legs and is similar to no other.
-/

namespace JourneyPlanner

/-- One ride: the trip and the stops where it is boarded and left. -/
structure Ride where
  /-- The trip; empty, if it is not known. -/
  trip : String
  /-- The stop where it is boarded. -/
  boarding : Option StopId
  /-- The stop where it is left. -/
  alighting : Option StopId
  deriving DecidableEq

/-- The ride of a leg. -/
def Leg.ride (leg : Leg) : Ride :=
  ⟨leg.trip.getD "", leg.origin.stop, leg.destination.stop⟩

namespace Selection

section MainLegs

variable {α : Type} [Quantity α]

/-- How the legs of an itinerary are measured: by distance if it has one, else by whole
seconds. -/
def lengthOf (distance : Leg → α) (it : Itinerary) : Leg → α :=
  if Quantity.lt Quantity.zero (Quantity.sum (it.legs.map distance)) then distance
  else fun leg => Quantity.ofInt (Span.inSeconds leg.duration)

/-- Takes legs from the front until those taken cover a length; at least one is taken. -/
def takeCovering (length : Leg → α) (goal : α) : α → List Leg → List Leg
  | _, [] => []
  | covered, leg :: rest =>
    let covered := Quantity.add covered (length leg)
    leg :: (if Quantity.le goal covered then [] else takeCovering length goal covered rest)

/-- The rides of the transit legs that together cover a share of the itinerary, the longest
legs first. -/
def mainRides (distance : Leg → α) (share : α) (it : Itinerary) : List Ride :=
  let length := lengthOf distance it
  let total := Quantity.sum (it.legs.map length)
  let byLength := it.transitLegs.mergeSort fun a b => Quantity.rank (length b) (length a) != .gt
  (takeCovering length (Quantity.mul share total) Quantity.zero byLength).map Leg.ride

end MainLegs

/-- Whether two lists hold the same rides, in any order and however often. -/
def sameRides (a b : List Ride) : Bool :=
  a.all b.contains && b.all a.contains

/-- Itineraries with the same main rides, in the order they were met. -/
structure Group where
  /-- Their main rides. -/
  rides : List Ride
  /-- The itineraries, each with its position in the whole list. -/
  members : List (Candidate × Nat)

/-- Puts an itinerary into the first group with its rides, or into a new group at the end; one
without main rides always gets a group of its own. -/
def insertIntoGroups (rides : List Ride) (entry : Candidate × Nat) : List Group → List Group
  | [] => [⟨rides, [entry]⟩]
  | group :: rest =>
    if !rides.isEmpty && sameRides group.rides rides then
      ⟨group.rides, group.members ++ [entry]⟩ :: rest
    else group :: insertIntoGroups rides entry rest

/-- The groups of a list of candidates, in the order they were met. -/
def groupsBy (ridesOf : Candidate → List Ride) (candidates : List Candidate) : List Group :=
  candidates.zipIdx.foldl (fun groups entry => insertIntoGroups (ridesOf entry.1) entry groups) []

/-- How many itineraries each group keeps, so that about `wanted` are kept in all: one if there
are enough groups, else an equal part rounded up. -/
def keptPerGroup (wanted groups : Nat) : Nat :=
  if groups = 0 ∨ wanted ≤ groups then 1 else (wanted + groups - 1) / groups

/-- The members of a group from cheap to dear; equals stay in the order they were met. -/
def Group.byCost (group : Group) : List (Candidate × Nat) :=
  group.members.mergeSort fun a b => decide (a.1.cost ≤ b.1.cost)

/-- The positions of the itineraries that are kept. -/
def keptPositions (wanted : Nat) (groups : List Group) : List Nat :=
  groups.flatMap fun group =>
    (group.byCost.take (keptPerGroup wanted groups.length)).map Prod.snd

/-- The candidates that are kept, in their order. -/
def cheapestOfSimilar (ridesOf : Candidate → List Ride) (wanted : Nat)
    (candidates : List Candidate) : List Candidate :=
  let kept := keptPositions wanted (groupsBy ridesOf candidates)
  (candidates.zipIdx.filter fun entry => kept.contains entry.2).map Prod.fst

end Selection

end JourneyPlanner
