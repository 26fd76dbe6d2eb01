import JourneyPlanner.Composition.Sequence

/-!
# Flattening

A sequence is flattened into one itinerary by placing the legs of its members
in time, one member after the other. Members that ride transit keep their
schedule; the others move as a whole, and legs placed earlier move with them as
long as none of those rides transit.
-/

namespace JourneyPlanner.Composition

/-- Moves legs in time, all by the same span. -/
def shiftLegs (span : Int) : List Leg → Except Fault (List Leg)
  | [] => .ok []
  | leg :: rest => do
    let moved ← leg.shift span
    return moved :: (← shiftLegs span rest)

/-- Legs that have been placed in time. -/
structure Placed where
  /-- The legs in the order they are travelled. -/
  legs : List Leg
  /-- When the growing end is passed. -/
  frontier : Instant
  /-- Whether none of the legs rides transit. -/
  streetOnly : Bool

namespace Placed

/-- The legs of the first member, as they are. -/
def start (direction : Direction) (first : Candidate) : Placed :=
  ⟨first.legs, direction.farTime first.toItinerary, first.isStreetOnly⟩

/-- Puts the legs of a new member behind those placed before it in the order of growth. -/
def attach (direction : Direction) (placed added : List Leg) : List Leg :=
  match direction with
  | .departAt => placed ++ added
  | .arriveBy => added ++ placed

/-- Places the legs of one more member. `gap` is how far the member would have to move to keep
its wait: it moves if it stays on the street, and else the legs placed before it move the other
way, if they all stay on the street. -/
def join (direction : Direction) (placed : Placed) (link : Link) : Except Fault Placed := do
  let due ← placed.frontier.shift (link.wait * direction.sign)
  let gap := due.since (direction.nearTime link.member.toItinerary)
  let slides := link.member.isStreetOnly
  let before ←
    if placed.streetOnly && !slides then shiftLegs (-gap) placed.legs else .ok placed.legs
  let offset := if slides then gap else 0
  let added ← shiftLegs offset link.member.legs
  let frontier ← (direction.farTime link.member.toItinerary).shift offset
  return ⟨attach direction before added, frontier, placed.streetOnly && slides⟩

/-- Places the legs of more members, one after the other. -/
def joinAll (direction : Direction) (placed : Placed) : List Link → Except Fault Placed
  | [] => .ok placed
  | link :: rest => do
    let next ← placed.join direction link
    joinAll direction next rest

end Placed

/-- A computation that can only fault, as one that may also refuse. -/
def orFault {ε α : Type} (computation : Except Fault α) : Except (Failure ε) α :=
  computation.mapError .fault

namespace Sequence

/-- The itinerary a sequence comes to. A single member stays what it is; of several, costs and
heights are summed and a flag is set if it is set for one of them. -/
def flatten (s : Sequence) (identity : Identity) : Except (Failure ItineraryError) Candidate :=
  if s.links.isEmpty then .ok s.first
  else do
    let placed ← orFault ((Placed.start s.direction s.first).joinAll s.direction s.links)
    let it ← Itinerary.ofLegs placed.legs
    let cost ← orFault (sumCosts (s.grown.map fun c => c.cost))
    return Candidate.of identity
      { it with
        cost := cost
        climb := Quantity.sum (s.grown.map fun c => c.climb)
        descent := Quantity.sum (s.grown.map fun c => c.descent)
        limitExceeded := s.grown.any fun c => c.limitExceeded
        tooSloped := s.grown.any fun c => c.tooSloped }

/-- The itineraries of sequences, each recognised by the place of its sequence. The first that
cannot be flattened decides the failure. -/
def flattenAll : Nat → List Sequence → Except (Failure ItineraryError) (List Candidate)
  | _, [] => .ok []
  | index, s :: rest => do
    let flat ← s.flatten (.composed index)
    return flat :: (← flattenAll (index + 1) rest)

end Sequence

end JourneyPlanner.Composition
