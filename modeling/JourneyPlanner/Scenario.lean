import JourneyPlanner.Itinerary.Json
import JourneyPlanner.Journey.Router
import JourneyPlanner.Json.Printer
import JourneyPlanner.Json.Reader
import JourneyPlanner.Search.Json
import JourneyPlanner.Search.Replay

/-!
# Scenarios

A scenario holds a request, what to route it with, and everything the search
engine could return for it. Routing a scenario answers every search from those
itineraries, so a run can be repeated without a live engine.
-/

namespace JourneyPlanner

open Json
open Journey (Request Response Router Run Settings)
open Selection (Options)

/-- A response as an object. -/
def Journey.Response.toJson (response : Response) : Json :=
  .obj
    ([("itineraries", .arr (response.itineraries.map Candidate.toJson)),
        ("routing_errors", .arr (response.routingErrors.map Search.RoutingError.toJson))] ++
      optionalMember "first_removed_itinerary" Candidate.toJson response.firstRemoved ++
      [("sub_searches", .int response.searches)])

/-- A recorded journey. -/
structure Scenario where
  /-- The request. -/
  request : Request
  /-- The options of selection. -/
  options : Options
  /-- The settings. -/
  settings : Settings
  /-- Everything the search engine could return. -/
  itineraries : List Itinerary

namespace Scenario

/-- Reads a scenario. -/
def ofJson : Decoder Scenario :=
  record ["request", "filters", "search", "itineraries"]
    (Scenario.mk <$> required "request" Request.ofJson <*>
      withDefault "filters" Options.ofJson Options.default <*>
      withDefault "search" Settings.ofJson Settings.default <*>
      required "itineraries" (list Itinerary.ofJson))

/-- The scenario a text holds. What stands in front of a mistake in the text is read first. -/
def ofText (text : String) : Except ReadError Scenario := do
  let reading := Reading.ofText text
  let scenario ← ofJson reading.value
  if reading.complete then return scenario else throw .shape

/-- The candidates a scenario's searches are answered from. -/
def pool (scenario : Scenario) : List Candidate :=
  Candidate.pool scenario.itineraries

/-- The router of a scenario, with some engine. -/
def routerWith (scenario : Scenario) (engine : Journey.Engine) : Router :=
  ⟨engine, scenario.settings, scenario.options⟩

/-- Routes a scenario's request, answering searches from its itineraries. -/
def route (scenario : Scenario) : Except Fault Run :=
  (scenario.routerWith fun _ query => .ok (Search.replay scenario.pool query)).route
    scenario.request

end Scenario

/-- What the command line program does: its exit code and what it prints. -/
structure Report where
  /-- The exit code. -/
  exitCode : Nat
  /-- What it prints as its result. -/
  output : String
  /-- What it prints as an explanation, apart from its log. -/
  explanation : String
  deriving DecidableEq, Repr

namespace Report

/-- What is printed when no scenario is named. -/
def usage : Report :=
  ⟨2, "", "usage: trip-planner <scenario.json>\n"⟩

/-- A run that ended without a result. -/
def failed : Report :=
  ⟨1, "", ""⟩

/-- A run that a fault ended. -/
def faulted : Report :=
  ⟨101, "", ""⟩

/-- The report on a scenario file with some text; a file that cannot be read has none. -/
def ofFile : Option String → Report
  | none => failed
  | some text =>
    match Scenario.ofText text with
    | .error (.fault _) => faulted
    | .error _ => failed
    | .ok scenario =>
      match scenario.route with
      | .error _ => faulted
      | .ok run =>
        match run.outcome with
        | .error _ => failed
        | .ok response => ⟨0, response.toJson.indented 0 ++ "\n", ""⟩

end Report

end JourneyPlanner
