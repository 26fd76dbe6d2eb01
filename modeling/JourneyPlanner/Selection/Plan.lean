import JourneyPlanner.Selection.Chain

/-!
# Plans of selection

A plan says which rules a chain shall have; the order of the rules is always
the same, whichever are asked for: grouping of similar candidates with the
least strict one first, limits on cost, limits on number, rules that judge each
candidate on its own, and a final sort. A plan is checked before its chain is
built.
-/

namespace JourneyPlanner.Selection

/-- Why a plan or the options it comes from were refused. -/
inductive PlanError where
  /-- A limit is neither -1 nor a number of candidates. -/
  | limit (name : String) (value : Int)
  /-- A share is not between zero and one. -/
  | share (name : String) (value : Float)
  /-- A cost limit is of no use. -/
  | cost (reason : CostLimitError)
  /-- A distance is negative or not finite. -/
  | distance (name : String) (value : Float)
  deriving DecidableEq

/-- What a caller is told. -/
def PlanError.message : PlanError → String
  | .limit name value => "invalid " ++ name ++ ": " ++ toString value ++ " (use -1 to disable)"
  | .share name value =>
    "invalid " ++ name ++ ": " ++ Decimal.plainText value ++ " (must be between 0.0 and 1.0)"
  | .cost reason => reason.message
  | .distance name value => "invalid " ++ name ++ ": " ++ Decimal.plainText value ++ " metres"

/-- One grouping of similar candidates. -/
structure Grouping where
  /-- The share of a journey its main legs cover. -/
  share : Float
  /-- About how many candidates to keep. -/
  wanted : Int

/-- Which rules a chain shall have. -/
structure Plan where
  /-- Whether journeys arrive by a time, which decides the order of presentation. -/
  arriveBy : Bool
  /-- The groupings, in the order they were asked for. -/
  groupings : List Grouping
  /-- Whether rejected candidates are tagged instead of dropped. -/
  debug : Bool
  /-- The most candidates to keep; none above zero, no limit. -/
  maxItineraries : Int
  /-- The most street-only candidates to keep; none above zero, no limit. -/
  maxStreetOnly : Int
  /-- Whether transit has to cost no more than the cheapest street-only candidate. -/
  boundByStreetOnly : Bool
  /-- The limit on the cost of transit. -/
  transitLimit : Option CostLimit
  /-- The limit on the cost of street-only candidates. -/
  streetOnlyLimit : Option CostLimit
  /-- The latest departure. -/
  latestDeparture : Option Instant
  /-- The candidates that are never shown. -/
  pruning : List Identity
  /-- The distance to cycle before the first transit leg. -/
  minCycling : Option Float
  /-- Whether candidates have to leave the bicycle. -/
  parkAndRide : Bool
  /-- Whether candidates have to arrive on demand. -/
  onDemand : Bool
  /-- Whether the limit on the number of candidates reports the first one it cuts off. -/
  reportsCut : Bool

namespace Plan

/-- One street-only candidate, no transit dearer than it, and no other rule. -/
def new (arriveBy : Bool) : Plan where
  arriveBy := arriveBy
  groupings := []
  debug := false
  maxItineraries := -1
  maxStreetOnly := 1
  boundByStreetOnly := true
  transitLimit := none
  streetOnlyLimit := none
  latestDeparture := none
  pruning := []
  minCycling := none
  parkAndRide := false
  onDemand := false
  reportsCut := false

/-- The longest final walk of a candidate that arrives on demand. -/
def longestFinalWalk : Int :=
  Span.minutes 2

/-- Whether a number is a share. -/
def isShare (value : Float) : Bool :=
  0.0 ≤ value && value ≤ 1.0

/-- Refuses a limit below -1. -/
def checkLimit (name : String) (value : Int) : Except PlanError Unit :=
  if value < -1 then .error (.limit name value) else .ok ()

/-- Refuses a grouping by what is no share or for a negative number of candidates. -/
def checkGrouping (grouping : Grouping) : Except PlanError Unit :=
  if !isShare grouping.share then .error (.share "groupByP" grouping.share)
  else if grouping.wanted < 0 then .error (.limit "approximateMinLimit" grouping.wanted)
  else .ok ()

/-- Refuses a cost limit that is of no use. -/
def checkCost : Option CostLimit → Except PlanError Unit
  | none => .ok ()
  | some limit => limit.check.mapError .cost

/-- Refuses a distance that is negative or not finite. -/
def checkDistance (name : String) : Option Float → Except PlanError Unit
  | none => .ok ()
  | some value =>
    if 0.0 ≤ value && Decimal.isFinite value then .ok () else .error (.distance name value)

/-- Checks every part of a plan; the first that is refused counts. -/
def check (plan : Plan) : Except PlanError Unit := do
  plan.groupings.forM checkGrouping
  checkLimit "maxNumberOfItineraries" plan.maxItineraries
  checkLimit "maxNumberOfOnStreetOnlyItineraries" plan.maxStreetOnly
  checkCost plan.transitLimit
  checkCost plan.streetOnlyLimit
  checkDistance "minBikeParkingDistance" plan.minCycling

/-- The groupings, the least strict one first. -/
def sortedGroupings (plan : Plan) : List Grouping :=
  plan.groupings.mergeSort fun a b => Decimal.totalCompare a.share b.share != .gt

/-- The rules that group similar candidates. -/
def groupingRules (plan : Plan) : List Rule :=
  plan.sortedGroupings.map fun grouping =>
    .cheapestOfSimilar grouping.share grouping.wanted.toNat

/-- The rules that limit costs. -/
def costRules (plan : Plan) : List Rule :=
  (plan.transitLimit.map Rule.transitCost).toList ++
    (plan.streetOnlyLimit.map Rule.streetOnlyCost).toList

/-- The rules that limit numbers, each behind a sort. -/
def numberRules (plan : Plan) : List Rule :=
  (if 0 < plan.maxStreetOnly then
      [.sort plan.arriveBy,
        .streetOnlyAtMost "number-of-on-street-only-itineraries-filter" plan.maxStreetOnly.toNat]
    else []) ++
    (if 0 < plan.maxItineraries then
      [.sort plan.arriveBy,
        .atMost "number-of-itineraries-filter" plan.maxItineraries.toNat plan.reportsCut]
    else [])

/-- The rules that judge each candidate on its own, behind the comparison with the street. -/
def absoluteRules (plan : Plan) : List Rule :=
  (if plan.boundByStreetOnly then [.noDearerThanStreetOnly] else []) ++
    (plan.latestDeparture.map Rule.departsBy).toList ++
    (if plan.pruning.isEmpty then [] else [.isShown plan.pruning]) ++
    (plan.minCycling.map Rule.cyclesFurtherThan).toList ++
    (if plan.parkAndRide then [.leavesBicycle] else []) ++
    (if plan.onDemand then [.arrivesOnDemand longestFinalWalk] else [])

/-- The rules of a plan, in order. -/
def rules (plan : Plan) : List Rule :=
  plan.groupingRules ++ plan.costRules ++ plan.numberRules ++ plan.absoluteRules ++
    [.sort plan.arriveBy]

/-- The chain of a plan that has been checked. -/
def chain (plan : Plan) : Chain :=
  plan.rules.map fun rule => ⟨rule, plan.debug⟩

/-- Checks a plan and builds its chain. -/
def build (plan : Plan) : Except PlanError Chain :=
  plan.check.map fun _ => plan.chain

end Plan

end JourneyPlanner.Selection
