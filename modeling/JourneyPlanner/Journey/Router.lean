import JourneyPlanner.Composition.Assembly
import JourneyPlanner.Journey.Request
import JourneyPlanner.Selection.Options

/-!
# Routing

A journey without waypoints is one search, whose answer is put through one
selection. A journey with waypoints is assembled step by step: each answer is
put through a selection of its own, what is left is joined to the sequences,
and the finished sequences are put through a selection once more. All searches
of a step are made before any of their answers is looked at.
-/

namespace JourneyPlanner.Journey

open JourneyPlanner.Composition (Assembly)
open Search (Answer Query RoutingError)
open Selection (Chain Options Plan)

/-- A search engine: what it makes of its n-th query, counted from zero. -/
abbrev Engine := Nat → Query → Except SearchError Answer

/-- The answer to a request. -/
structure Response where
  /-- The itineraries, in the order they are shown. -/
  itineraries : List Candidate
  /-- What the searches reported. -/
  routingErrors : List RoutingError
  /-- The first itinerary cut off by the limit on their number. -/
  firstRemoved : Option Candidate
  /-- How many searches were made. -/
  searches : Nat

/-- One run of the router: what came of it, and what the engine was asked. -/
structure Run where
  /-- The answer or the reason why there is none. -/
  outcome : Except SearchError Response
  /-- The queries, in order. -/
  queries : List Query

/-- A request that was refused before any search. -/
def Run.refused (reason : SearchError) : Run :=
  ⟨.error reason, []⟩

/-- What the router works with. -/
structure Router where
  /-- The search engine. -/
  engine : Engine
  /-- The operator's settings. -/
  settings : Settings
  /-- The user's options. -/
  options : Options

/-- The latest departure of a search that reports the window it used: the end of that window.
Searches by arrival have none. -/
def latestDeparture? (query : Query) (answer : Answer) : Option Instant :=
  if query.arriveBy then none
  else
    match answer.windowUsed with
    | none => none
    | some used => if used ≤ 0 then none else (query.window.anchor false).shift? used

/-- A plan with what the answer of a search calls for. -/
def withSearchLimits (plan : Plan) (query : Query) (answer : Answer) : Plan :=
  { plan with
    latestDeparture := latestDeparture? query answer
    pruning := plan.pruning ++ answer.pruning.map Candidate.identity }

namespace Router

/-- The most itineraries of one search, as a number of 32 bits. -/
def limit (router : Router) : Int :=
  min (router.settings.maxItineraries : Int) (Int.pow 2 31 - 1)

/-- How many itineraries a request is given at most; -1 leaves it open. -/
def wantedCount (router : Router) (request : Request) : Int :=
  if request.wanted < 0 then request.wanted else min request.wanted router.limit

/-- The plan for the answer of one of several searches. -/
def stepPlan (router : Router) (query : Query) (answer : Answer) : Plan :=
  withSearchLimits
    { router.options.plan query.arriveBy (-1) with maxItineraries := router.limit } query answer

/-- The plan for what is shown in the end. -/
def finalPlan (router : Router) (request : Request) : Plan :=
  { router.options.plan request.arriveBy (router.wantedCount request) with reportsCut := true }

/-- Builds the chain of a plan. -/
def chainOf (plan : Plan) : Except SearchError Chain :=
  plan.build.mapError .selection

/-- The response that a chain makes of the candidates found. -/
def respond (chain : Chain) (candidates : List Candidate) (routingErrors : List RoutingError)
    (searches : Nat) : Response :=
  let selected := chain.run candidates
  ⟨selected.candidates, routingErrors, selected.cuts.head?, searches⟩

/-- The query of a request without waypoints. -/
def directQuery (request : Request) (windowLength : Option Int) : Query where
  origin := request.origin
  destination := request.destination
  arriveBy := request.arriveBy
  window := .unbounded request.time windowLength
  modes := request.modes

/-- Routes a request without waypoints. -/
def routeDirect (router : Router) (request : Request) (windowLength : Option Int) : Run :=
  let query := directQuery request windowLength
  let outcome := do
    let answer ← router.engine 0 query
    let chain ← chainOf (withSearchLimits (router.finalPlan request) query answer)
    return respond chain answer.itineraries answer.routingErrors 1
  ⟨outcome, [query]⟩

/-- Asks the engine some queries; `asked` queries went before. -/
def ask (router : Router) (asked : Nat) (queries : List Query) :
    List (Query × Except SearchError Answer) :=
  queries.zipIdx.map fun (query, index) => (query, router.engine (asked + index) query)

/-- What the searches of a step found, each answer after its own selection, and what they
reported. The first search that failed decides the error. -/
def gather (router : Router) :
    List (Query × Except SearchError Answer) →
      Except SearchError (List Candidate × List RoutingError)
  | [] => .ok ([], [])
  | (query, reply) :: rest => do
    let answer ← reply
    let chain ← chainOf (router.stepPlan query answer)
    let (found, errors) ← gather router rest
    return ((chain.run answer.itineraries).candidates ++ found, answer.routingErrors ++ errors)

/-- A route that has been assembled as far as possible. -/
structure Assembled where
  /-- The assembly after its last step. -/
  assembly : Assembly
  /-- What the searches reported. -/
  routingErrors : List RoutingError

/-- Bridges the remaining junctions, of which there are at most `left`, until no sequence is
left. The queries of all steps are listed, also when an error ends the run. -/
def bridge (router : Router) (assembly : Assembly) (queries : List Query)
    (routingErrors : List RoutingError) :
    Nat → Except Fault (List Query × Except SearchError Assembled)
  | 0 => .ok (queries, .ok ⟨assembly, routingErrors⟩)
  | left + 1 => do
    let assembly := assembly.advance
    let coverages ← assembly.coverages
    let asked := coverages.filterMap assembly.query?
    match router.gather (router.ask queries.length asked) with
    | .error reason => return (queries ++ asked, .error reason)
    | .ok (found, errors) =>
      let assembly ← assembly.merge found
      if assembly.sequences.isEmpty then
        return (queries ++ asked, .ok ⟨assembly, routingErrors ++ errors⟩)
      else bridge router assembly (queries ++ asked) (routingErrors ++ errors) left

/-- The response for a route that has been assembled. -/
def conclude (router : Router) (request : Request) (assembled : Assembled) (searches : Nat) :
    Except Fault (Except SearchError Response) :=
  match chainOf (router.finalPlan request) with
  | .error reason => .ok (.error reason)
  | .ok chain =>
    match assembled.assembly.itineraries with
    | .error (.refused reason) => .ok (.error (.composition reason))
    | .error (.fault cause) => .error cause
    | .ok candidates => .ok (.ok (respond chain candidates assembled.routingErrors searches))

/-- Routes a request through waypoints. -/
def routeVia (router : Router) (request : Request) (route : List Stopover)
    (windowLength : Option Int) : Except Fault Run :=
  match Assembly.start request.direction route request.time windowLength request.modes with
  | .error reason => .ok (.refused (.request reason))
  | .ok assembly => do
    let (queries, bridged) ← router.bridge assembly [] [] assembly.junctions.length
    match bridged with
    | .error reason => return ⟨.error reason, queries⟩
    | .ok assembled => return ⟨← router.conclude request assembled queries.length, queries⟩

/-- Checks settings, request and options before any search: the route, and the length of the
window to search, if one is set. -/
def prepare (router : Router) (request : Request) :
    Except SearchError (List Stopover × Option Int) := do
  router.settings.check
  request.check.mapError .request
  router.options.check.mapError .selection
  let route ← (request.stopovers router.settings).mapError .request
  let window ← request.windowSpan.mapError .request
  return (route, window.or router.settings.defaultWindowSpan)

/-- Routes a request, through its waypoints if it has any. -/
def route (router : Router) (request : Request) : Except Fault Run :=
  match router.prepare request with
  | .error reason => .ok (.refused reason)
  | .ok (stopovers, windowLength) =>
    if request.waypoints.isEmpty then .ok (router.routeDirect request windowLength)
    else router.routeVia request stopovers windowLength

end Router

end JourneyPlanner.Journey
