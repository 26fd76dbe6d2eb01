import JourneyPlanner.Mode
import JourneyPlanner.Place
import JourneyPlanner.Time.Text

/-!
# Legs

A leg is one piece of a journey: a walk, a ride on a bicycle, a drive or a ride
on one scheduled trip. A leg is refused if it ends before it starts; moving it in
time gives a new leg, whose two ends have been moved independently.
-/

namespace JourneyPlanner

/-- Why legs or a list of legs were refused. -/
inductive ItineraryError where
  /-- There is no leg. -/
  | noLegs
  /-- A leg ends before it starts. -/
  | endsBeforeStart (start finish : Instant)
  /-- The leg at an index starts before the one in front of it ends. -/
  | legsOverlap (index : Nat) (start previousFinish : Instant)
  deriving DecidableEq

/-- What a caller is told. -/
def ItineraryError.message : ItineraryError → String
  | .noLegs => "itinerary must have at least one leg"
  | .endsBeforeStart start finish =>
    "invalid leg: ends at " ++ finish.clockText ++ " before it starts at " ++ start.clockText
  | .legsOverlap index start previousFinish =>
    "legs overlap: leg " ++ toString index ++ " starts at " ++ start.clockText ++
      " before the previous leg ends at " ++ previousFinish.clockText

/-- One piece of a journey. -/
structure Leg where
  /-- The way it is travelled. -/
  mode : Mode
  /-- Where it starts. -/
  origin : Place
  /-- Where it ends. -/
  destination : Place
  /-- When it starts. -/
  start : Instant
  /-- When it ends. -/
  finish : Instant
  /-- Its length in metres. -/
  distance : Float
  /-- Its generalized cost, a 64-bit number. -/
  cost : Int
  /-- The scheduled trip it rides on. -/
  trip : Option String
  /-- Whether the trip runs on demand. -/
  flexible : Bool
  /-- Whether the traveller walks beside a bicycle. -/
  walkingBike : Bool
  deriving DecidableEq

namespace Leg

/-- A leg between two places and two instants, without any other property. -/
def of (mode : Mode) (origin destination : Place) (start finish : Instant) :
    Except ItineraryError Leg :=
  if start ≤ finish then
    .ok ⟨mode, origin, destination, start, finish, 0.0, 0, none, false, false⟩
  else .error (.endsBeforeStart start finish)

/-- How long it takes. -/
def duration (leg : Leg) : Int :=
  leg.finish.since leg.start

/-- Whether it is scheduled public transport. -/
def isTransit (leg : Leg) : Bool :=
  leg.mode.isTransit

/-- The leg moved in time, all else unchanged. -/
def shift (leg : Leg) (span : Int) : Except Fault Leg := do
  let start ← leg.start.shift span
  let finish ← leg.finish.shift span
  return { leg with start := start, finish := finish }

end Leg

end JourneyPlanner
