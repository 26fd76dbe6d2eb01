import JourneyPlanner.CostLimit
import JourneyPlanner.Selection.Order
import JourneyPlanner.Selection.Similarity
import JourneyPlanner.Text.Diagnostic

/-!
# Rules of selection

A rule turns a list of candidates into another. Most rules drop candidates:
each on its own merits, or for what else is in the list, or for their number.
One rule only sorts. A limit on the number of candidates can report the first
one it cuts off, from which a later search may go on.
-/

namespace JourneyPlanner.Selection

/-- A way to turn a list of candidates into another. -/
inductive Rule where
  /-- Sorts for show. -/
  | sort (arriveBy : Bool)
  /-- Keeps the first few candidates; `reports` tells whether the first one cut off is
  reported. -/
  | atMost (label : String) (limit : Nat) (reports : Bool)
  /-- Keeps all that ride transit and the first few others. -/
  | streetOnlyAtMost (label : String) (limit : Nat)
  /-- Drops transit that costs more than the limit at the cheapest transit. -/
  | transitCost (limit : CostLimit)
  /-- Drops street-only candidates that cost more than the limit at the cheapest of all. -/
  | streetOnlyCost (limit : CostLimit)
  /-- Drops transit that costs more than the cheapest street-only candidate. -/
  | noDearerThanStreetOnly
  /-- Drops departures after an instant. -/
  | departsBy (limit : Instant)
  /-- Drops candidates that only served to bound a search. -/
  | isShown (pruning : List Identity)
  /-- Drops candidates that cycle this far or less before the first transit leg. -/
  | cyclesFurtherThan (distance : Float)
  /-- Drops candidates that never leave the bicycle. -/
  | leavesBicycle
  /-- Keeps candidates that reach the destination on a trip on demand, with a final walk no
  longer than this. -/
  | arrivesOnDemand (longestWalk : Int)
  /-- Keeps the cheapest of each group of similar candidates, about `wanted` in all. -/
  | cheapestOfSimilar (share : Float) (wanted : Nat)

/-- The first few street-only candidates and all others. -/
def takeStreetOnly : Nat → List Candidate → List Candidate
  | _, [] => []
  | left, c :: rest =>
    if c.isStreetOnly then
      match left with
      | 0 => takeStreetOnly 0 rest
      | left + 1 => c :: takeStreetOnly left rest
    else c :: takeStreetOnly left rest

/-- The lowest cost of the candidates with a property, if there are any. -/
def lowestCost? (p : Candidate → Bool) (candidates : List Candidate) : Option Int :=
  ((candidates.filter p).map fun c => c.cost).min?

/-- Whether a candidate rides transit. -/
def ridesTransit (c : Candidate) : Bool :=
  !c.isStreetOnly

/-- Drops transit that costs more than a limit at the cheapest transit. -/
def withinTransitLimit {α : Type} [Quantity α] (limit : LinearFunction α)
    (candidates : List Candidate) : List Candidate :=
  match lowestCost? ridesTransit candidates with
  | none => candidates
  | some best => candidates.filter fun c => c.isStreetOnly || limit.allows best c.cost

/-- Drops street-only candidates that cost more than a limit at the cheapest of all. -/
def withinStreetOnlyLimit {α : Type} [Quantity α] (limit : LinearFunction α)
    (candidates : List Candidate) : List Candidate :=
  match lowestCost? (fun _ => true) candidates with
  | none => candidates
  | some best => candidates.filter fun c => ridesTransit c || limit.allows best c.cost

/-- Drops transit that costs more than the cheapest street-only candidate. -/
def withinStreetOnlyCost (candidates : List Candidate) : List Candidate :=
  match lowestCost? (fun c => c.isStreetOnly) candidates with
  | none => candidates
  | some best => candidates.filter fun c => c.isStreetOnly || decide (c.cost ≤ best)

/-- The metres cycled before the first transit leg; what is walked in between does not count. -/
def cycledDistance (it : Itinerary) : Float :=
  Quantity.sum
    (((it.legs.takeWhile fun leg => !leg.isTransit).filter fun leg => leg.mode = .bicycle).map
      Leg.distance)

/-- Whether every leg is cycled or walked beside the bicycle. -/
def staysOnBicycle (it : Itinerary) : Bool :=
  it.legs.all fun leg => leg.mode = .bicycle || leg.walkingBike

/-- Whether the last ride runs on demand and a final walk is no longer than allowed. -/
def reachesDestinationOnDemand (longestWalk : Int) (it : Itinerary) : Bool :=
  let walksFar := it.lastLeg.mode = .walk && longestWalk < it.lastLeg.duration
  let lastRide := it.legs.reverse.find? fun leg => leg.isTransit || leg.flexible
  !walksFar && (lastRide.map Leg.flexible).getD false

namespace Rule

/-- What a rule is called in notices and listings. -/
def name : Rule → String
  | sort _ => "sort-on-arrival-time-and-cost"
  | atMost label _ _ => label
  | streetOnlyAtMost label _ => label
  | transitCost _ => "transit-cost-filter"
  | streetOnlyCost _ => "non-transit-cost-filter"
  | noDearerThanStreetOnly => "remove-transit-with-higher-cost-than-best-on-street-only"
  | departsBy _ => "latest-departure-time-limit"
  | isShown _ => "remove-pruning-itinerary-filter"
  | cyclesFurtherThan _ => "remove-bike-park-with-short-biking-filter"
  | leavesBicycle => "park-and-ride-direct-bike-itinerary-filter"
  | arrivesOnDemand _ => "flex-only-to-destination"
  | cheapestOfSimilar share _ => "group-by-legs-filter@" ++ Decimal.plainText share

/-- Whether a rule may drop candidates. -/
def removes : Rule → Bool
  | sort _ => false
  | _ => true

/-- The candidates a rule makes of others. -/
def apply : Rule → List Candidate → List Candidate
  | sort arriveBy, candidates => sortForShow arriveBy candidates
  | atMost _ limit _, candidates => candidates.take limit
  | streetOnlyAtMost _ limit, candidates => takeStreetOnly limit candidates
  | transitCost limit, candidates => withinTransitLimit limit candidates
  | streetOnlyCost limit, candidates => withinStreetOnlyLimit limit candidates
  | noDearerThanStreetOnly, candidates => withinStreetOnlyCost candidates
  | departsBy limit, candidates => candidates.filter fun c => decide (c.start ≤ limit)
  | isShown pruning, candidates => candidates.filter fun c => !pruning.contains c.identity
  | cyclesFurtherThan distance, candidates =>
    candidates.filter fun c => decide (distance < cycledDistance c.toItinerary)
  | leavesBicycle, candidates => candidates.filter fun c => !staysOnBicycle c.toItinerary
  | arrivesOnDemand longestWalk, candidates =>
    candidates.filter fun c => reachesDestinationOnDemand longestWalk c.toItinerary
  | cheapestOfSimilar share wanted, candidates =>
    Selection.cheapestOfSimilar (fun c => mainRides Leg.distance share c.toItinerary) wanted
      candidates

/-- The candidate a rule reports as the first one it cuts off. -/
def firstCut? : Rule → List Candidate → Option Candidate
  | atMost _ limit true, candidates => candidates[limit]?
  | _, _ => none

/-- A limit on the number of candidates as diagnostics show it; other rules are only named. -/
def diagnosticText : Rule → String
  | atMost label limit reports =>
    "MaxLimitFilter \x7b name: " ++ Text.diagnosticQuoted label ++ ", limit: " ++ toString limit ++
      ", subscriber: " ++ toString reports ++ " \x7d"
  | rule => rule.name

end Rule

end JourneyPlanner.Selection
