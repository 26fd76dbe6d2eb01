import JourneyPlanner.Json.Record
import JourneyPlanner.Selection.Plan

/-!
# Options of selection

What a user can set about the selection of itineraries, the plan it comes to
for one search, and its JSON form.
-/

namespace JourneyPlanner.Selection

open Json

/-- What a user can set. -/
structure Options where
  /-- Keep one itinerary of a group that shares this much of the journey. -/
  keepOneShare : Float
  /-- Keep a few itineraries of a group that shares this much of the journey. -/
  keepFewShare : Float
  /-- The limit on the cost of transit. -/
  transitLimit : CostLimit
  /-- The limit on the cost of street-only itineraries. -/
  streetOnlyLimit : CostLimit
  /-- The most itineraries; -1 lets the request decide. -/
  maxItineraries : Int
  /-- The most street-only itineraries; -1 for no limit. -/
  maxStreetOnly : Int
  /-- Whether transit has to cost no more than the cheapest street-only itinerary. -/
  boundByStreetOnly : Bool
  /-- Whether rejected itineraries are tagged instead of dropped. -/
  debug : Bool
  /-- The distance to cycle before the first transit leg. -/
  minCycling : Option Float
  /-- Whether itineraries have to leave the bicycle. -/
  parkAndRide : Bool
  /-- Whether itineraries have to arrive on demand. -/
  onDemand : Bool

namespace Options

/-- The cost limit that is used when none is set. -/
def defaultLimit : CostLimit :=
  ⟨3600.0, 2.0⟩

/-- The options of a user who sets none. -/
def default : Options where
  keepOneShare := 0.85
  keepFewShare := 0.68
  transitLimit := defaultLimit
  streetOnlyLimit := defaultLimit
  maxItineraries := -1
  maxStreetOnly := 1
  boundByStreetOnly := true
  debug := false
  minCycling := none
  parkAndRide := false
  onDemand := false

/-- No chain made from options keeps more itineraries than this. -/
def hardLimit : Int := 200

/-- How many similar itineraries are kept when the request does not say how many it wants. -/
def fewSimilar : Int := 3

/-- From this share on a grouping is made. -/
def groupingThreshold : Float := 0.5

/-- The groupings that are asked for when `wanted` itineraries are, or any number at -1. -/
def groupings (options : Options) (wanted : Int) : List Grouping :=
  (if groupingThreshold ≤ options.keepOneShare then [⟨options.keepOneShare, 1⟩] else []) ++
    (if groupingThreshold ≤ options.keepFewShare then
      [⟨options.keepFewShare, if wanted < 0 then fewSimilar else min wanted fewSimilar⟩]
    else [])

/-- The most itineraries to keep: as many as the options say, or else the request, but never
more than the hard limit. A number that stands for nothing is left for the plan to refuse. -/
def limitFor (options : Options) (wanted : Int) : Int :=
  let asked := if options.maxItineraries = -1 then wanted else options.maxItineraries
  if asked = -1 then hardLimit else min asked hardLimit

/-- The plan for one search that wants a number of itineraries, or any number at -1. -/
def plan (options : Options) (arriveBy : Bool) (wanted : Int) : Plan :=
  { Plan.new arriveBy with
    groupings := options.groupings wanted
    debug := options.debug
    maxItineraries := options.limitFor wanted
    maxStreetOnly := options.maxStreetOnly
    boundByStreetOnly := options.boundByStreetOnly
    transitLimit := some options.transitLimit
    streetOnlyLimit := some options.streetOnlyLimit
    minCycling := options.minCycling
    parkAndRide := options.parkAndRide
    onDemand := options.onDemand }

/-- Refuses what is no share. -/
def checkShare (name : String) (value : Float) : Except PlanError Unit :=
  if Plan.isShare value then .ok () else .error (.share name value)

/-- Checks every option. -/
def check (options : Options) : Except PlanError Unit := do
  checkShare "groupSimilarityKeepOne" options.keepOneShare
  checkShare "groupSimilarityKeepNumOfItineraries" options.keepFewShare
  (options.plan false (-1)).check

/-- A cost limit as its text. -/
def limitToJson (limit : CostLimit) : Json :=
  .str limit.text

/-- Reads a cost limit. -/
def limitOfJson : Decoder CostLimit :=
  checked string fun value => orRefuse CostLimitError.message (CostLimit.ofText value)

/-- Options as an object. -/
def toJson (options : Options) : Json :=
  .obj
    ([("groupSimilarityKeepOne", .ofFloat options.keepOneShare),
        ("groupSimilarityKeepNumOfItineraries", .ofFloat options.keepFewShare),
        ("transitGeneralizedCostLimit", limitToJson options.transitLimit),
        ("nonTransitGeneralizedCostLimit", limitToJson options.streetOnlyLimit),
        ("maxNumberOfItineraries", .int options.maxItineraries),
        ("maxNumberOfOnStreetOnlyItineraries", .int options.maxStreetOnly),
        ("removeTransitWithHigherCostThanBestOnStreetOnly", .bool options.boundByStreetOnly),
        ("debug", .bool options.debug)] ++
      optionalMember "minBikeParkingDistance" .ofFloat options.minCycling ++
      [("parkAndRide", .bool options.parkAndRide),
        ("flexOnlyToDestination", .bool options.onDemand)])

/-- The names of the members, in order. -/
def memberNames : List String :=
  ["groupSimilarityKeepOne", "groupSimilarityKeepNumOfItineraries", "transitGeneralizedCostLimit",
    "nonTransitGeneralizedCostLimit", "maxNumberOfItineraries",
    "maxNumberOfOnStreetOnlyItineraries", "removeTransitWithHigherCostThanBestOnStreetOnly",
    "debug", "minBikeParkingDistance", "parkAndRide", "flexOnlyToDestination"]

/-- Reads options; members that are not there have their default. -/
def ofJson : Decoder Options :=
  record memberNames
    (Options.mk <$> withDefault "groupSimilarityKeepOne" number default.keepOneShare <*>
      withDefault "groupSimilarityKeepNumOfItineraries" number default.keepFewShare <*>
      withDefault "transitGeneralizedCostLimit" limitOfJson default.transitLimit <*>
      withDefault "nonTransitGeneralizedCostLimit" limitOfJson default.streetOnlyLimit <*>
      withDefault "maxNumberOfItineraries" int32 default.maxItineraries <*>
      withDefault "maxNumberOfOnStreetOnlyItineraries" int32 default.maxStreetOnly <*>
      withDefault "removeTransitWithHigherCostThanBestOnStreetOnly" boolean
        default.boundByStreetOnly <*>
      withDefault "debug" boolean default.debug <*>
      withDefault "minBikeParkingDistance" (nullable number) default.minCycling <*>
      withDefault "parkAndRide" boolean default.parkAndRide <*>
      withDefault "flexOnlyToDestination" boolean default.onDemand)

end Options

end JourneyPlanner.Selection
