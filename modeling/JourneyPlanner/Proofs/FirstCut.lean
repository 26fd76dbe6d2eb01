import JourneyPlanner.Proofs.Ensured
import JourneyPlanner.Proofs.Responses

/-!
# The first itinerary cut off

The limit on the number of candidates comes in the middle of a chain: what stands first behind
it is reported, before the rules that judge each candidate on its own have seen it. So what only
served to bound a search is dropped from what is shown, but may be reported as the first
itinerary cut off.
-/

namespace JourneyPlanner

namespace Selection

namespace Chain

/-- What a step reports comes in front of what the later steps do. -/
theorem cuts_cons (step : Step) (rest : Chain) (candidates : List Candidate) :
    (run (step :: rest) candidates).cuts =
      (step.firstCut? candidates).toList ++ (run rest (step.apply candidates)).cuts :=
  rfl

/-- What one part of a chain reports comes in front of what the next part does. -/
theorem cuts_append (chain more : Chain) (candidates : List Candidate) :
    (run (chain ++ more) candidates).cuts =
      (run chain candidates).cuts ++ (run more (run chain candidates).candidates).cuts := by
  induction chain generalizing candidates with
  | nil => rfl
  | cons step rest ih =>
    rw [List.cons_append, cuts_cons, cuts_cons, ih, List.append_assoc]
    rfl

/-- Rules that report nothing make a chain that does not. -/
theorem cuts_eq_nil {rules : List Rule} (hsilent : ∀ rule ∈ rules, rule.reports = false)
    (tags : Bool) (candidates : List Candidate) :
    ((ofRules tags rules).run candidates).cuts = [] := by
  induction rules generalizing candidates with
  | nil => rfl
  | cons rule rules ih =>
    obtain ⟨hrule, hrest⟩ := List.forall_mem_cons.1 hsilent
    have hnone : Step.firstCut? ⟨rule, tags⟩ candidates = none := rule.firstCut?_eq_none hrule _
    rw [ofRules, List.map_cons, cuts_cons, hnone]
    exact ih hrest (Step.apply ⟨rule, tags⟩ candidates)

end Chain

namespace Plan

variable {plan : Plan} {chain : Chain}

/-- The rules in front of the limit on the number of candidates, the last of which sorts for
it. -/
def rulesBeforeLimit (plan : Plan) : List Rule :=
  plan.groupingRules ++ plan.costRules ++ { plan with maxItineraries := -1 }.numberRules ++
    [.sort plan.arriveBy]

/-- The limit on the number of candidates stands between those rules and the ones that judge
each candidate on its own. -/
theorem rules_eq (hlimited : 0 < plan.maxItineraries) : plan.rules = plan.rulesBeforeLimit ++
    .atMost "number-of-itineraries-filter" plan.maxItineraries.toNat plan.reportsCut ::
      (plan.absoluteRules ++ [.sort plan.arriveBy]) := by
  simp [rules, rulesBeforeLimit, numberRules, hlimited]

/-- Without a limit no rule reports anything. -/
theorem reports_of_mem_rules (hnone : ¬0 < plan.maxItineraries) {rule : Rule}
    (hrule : rule ∈ plan.rules) : rule.reports = false := by
  cases rule with
  | atMost label limit reports =>
    simp [rules, groupingRules, costRules, numberRules, absoluteRules, hnone] at hrule
  | _ => rfl

/-- Nor does a rule on either side of a limit, as it is one of the plan without that limit. -/
theorem reports_beside_limit {rule : Rule}
    (hrule : rule ∈ plan.rulesBeforeLimit ++ (plan.absoluteRules ++ [.sort plan.arriveBy])) :
    rule.reports = false := by
  have hnone : ¬0 < { plan with maxItineraries := -1 }.maxItineraries := by simp
  refine reports_of_mem_rules hnone (mem_rules_iff.2 ?_)
  simp only [rulesBeforeLimit, List.mem_append, List.mem_singleton, or_assoc] at hrule
  rcases hrule with hgrouping | hcost | hnumber | hsort | habsolute | hsort
  · exact .inl hgrouping
  · exact .inr (.inl hcost)
  · exact .inr (.inr (.inl hnumber))
  · exact .inr (.inr (.inr (.inr hsort)))
  · exact .inr (.inr (.inr (.inl habsolute)))
  · exact .inr (.inr (.inr (.inr hsort)))

/-- A chain that drops reports the candidate at the place of its limit, of those in front of
it. -/
theorem head?_cuts_run (hbuild : plan.build = .ok chain) (hdrops : plan.debug = false)
    (hreports : plan.reportsCut = true) (candidates : List Candidate) :
    (chain.run candidates).cuts.head? =
      if 0 < plan.maxItineraries then
        ((Chain.ofRules false plan.rulesBeforeLimit).run
          candidates).candidates[plan.maxItineraries.toNat]?
      else none := by
  rw [eq_ofRules_of_build hbuild, hdrops]
  split_ifs with hlimited
  · obtain ⟨hbefore, hbehind⟩ := List.forall_mem_append.1 fun _ => plan.reports_beside_limit
    have hfront := Chain.cuts_eq_nil hbefore false candidates
    have hback := Chain.cuts_eq_nil hbehind false
    simp only [Chain.ofRules] at hfront hback ⊢
    rw [rules_eq hlimited, hreports, List.map_append, List.map_cons, Chain.cuts_append,
      Chain.cuts_cons, hfront, hback, List.nil_append, List.append_nil, Option.head?_toList]
    rfl
  · rw [Chain.cuts_eq_nil fun _ => reports_of_mem_rules hlimited]
    rfl

/-- What is never shown is dropped by a chain, whatever else its plan asks for. -/
theorem not_mem_pruning_of_mem_run (hbuild : plan.build = .ok chain) (hdrops : plan.debug = false)
    {candidates : List Candidate} {c : Candidate} (hc : c ∈ (chain.run candidates).candidates) :
    c.identity ∉ plan.pruning := by
  by_cases hnone : plan.pruning = []
  · simp [hnone]
  · have hrule : Rule.isShown plan.pruning ∈ plan.rules :=
      mem_rules_iff.2 (by simp [absoluteRules, hnone])
    rw [eq_ofRules_of_build hbuild, hdrops] at hc
    obtain ⟨seen, -, hleft⟩ := Chain.exists_run_subperm_apply hrule candidates
    simpa using (List.mem_filter.1 (hleft.subset hc)).2

end Plan

end Selection

namespace Journey.Router

open Search (Answer Query RoutingError)
open Selection (Chain Options Plan)

variable {router : Router} {request : Request}

/-- The most itineraries that are shown for a request; none above zero, no limit. -/
def shownLimit (router : Router) (request : Request) : Int :=
  router.options.limitFor (router.wantedCount request)

/-- Candidates for a request as they stand in line for the limit on their number. -/
def ranking (router : Router) (request : Request) (candidates : List Candidate) :
    List Candidate :=
  ((Chain.ofRules false (router.finalPlan request).rulesBeforeLimit).run candidates).candidates

/-- The first itinerary that is reported as cut off is the one in line behind those that the
limit allows. -/
theorem firstRemoved_respond {latest : Option Instant} {pruning : List Identity} {chain : Chain}
    (hbuild : { router.finalPlan request with
      latestDeparture := latest, pruning := pruning }.build = .ok chain)
    (hdrops : router.options.debug = false) (candidates : List Candidate)
    (errors : List RoutingError) (searches : Nat) :
    (respond chain candidates errors searches).firstRemoved =
      if 0 < router.shownLimit request then
        (router.ranking request candidates)[(router.shownLimit request).toNat]?
      else none :=
  Plan.head?_cuts_run hbuild hdrops rfl candidates

/-- What only served to bound the only search for a request is not among the itineraries that
are shown. What is reported as the first one cut off stands in line behind those that the limit
allows, whether it served to bound the search or not. -/
theorem route_hides_pruning (hdrops : router.options.debug = false)
    (hdirect : request.waypoints = []) {run : Run} {response : Response}
    (hroute : router.route request = .ok run) (hresponse : run.outcome = .ok response) :
    ∃ query answer, run.queries = [query] ∧ router.engine 0 query = .ok answer ∧
      (∀ c ∈ response.itineraries, c.identity ∉ answer.pruning.map Candidate.identity) ∧
      ∀ c, response.firstRemoved = some c ↔ 0 < router.shownLimit request ∧
        (router.ranking request answer.itineraries)[(router.shownLimit request).toNat]? =
          some c := by
  unfold route at hroute
  split at hroute
  · cases hroute
    cases hresponse
  · rename_i route windowLength _
    rw [if_pos (by simp [hdirect])] at hroute
    cases hroute
    obtain ⟨answer, chain, hanswer, hbuild, rfl⟩ := exists_answer_of_routeDirect hresponse
    refine ⟨_, answer, rfl, hanswer, fun c hc => ?_, fun c => ?_⟩
    · exact Plan.not_mem_pruning_of_mem_run hbuild hdrops hc
    · rw [firstRemoved_respond hbuild hdrops]
      split_ifs with hlimited
      · simp [hlimited]
      · simp [hlimited]

/-- A bus that is shown. -/
private def shownBus : Candidate :=
  .ofLeg 0 (.onDay .bus (.inRow 0) (.inRow 1) 490 510)

/-- A later bus that only serves to bound the search. -/
private def boundingBus : Candidate :=
  .ofLeg 1 (.onDay .bus (.inRow 0) (.inRow 1) 500 520)

/-- A router with an engine that finds both buses. -/
private def boundedRouter : Router where
  engine := fun _ _ => .ok ⟨[shownBus, boundingBus], [], none, [boundingBus]⟩
  settings := .default
  options := { Options.default with keepOneShare := 0.0, keepFewShare := 0.0 }

/-- A request for one itinerary. -/
private def forOne : Request where
  origin := .ofPlace (.inRow 0)
  destination := .ofPlace (.inRow 1)
  waypoints := []
  time := .ofMinute 480
  arriveBy := false
  window := none
  wanted := 1
  modes := .default

/-- The plan for the answer. -/
private def planForOne : Plan :=
  withSearchLimits (boundedRouter.finalPlan forOne) (directQuery forOne none)
    ⟨[shownBus, boundingBus], [], none, [boundingBus]⟩

/-- The chain for one itinerary is built. -/
private theorem build_planForOne : planForOne.build = .ok planForOne.chain :=
  Plan.build_eq_ok (by decide +kernel)

/-- The second bus is not shown for a request for one itinerary. -/
theorem boundingBus_hidden : boundedRouter.options.debug = false ∧ forOne.waypoints = [] ∧
    ∃ run response, boundedRouter.route forOne = .ok run ∧ run.outcome = .ok response ∧
      ∃ query answer, run.queries = [query] ∧ boundedRouter.engine 0 query = .ok answer ∧
        (∀ c ∈ response.itineraries, c.identity ∉ answer.pruning.map Candidate.identity) ∧
        ∀ c, response.firstRemoved = some c ↔ 0 < boundedRouter.shownLimit forOne ∧
          (boundedRouter.ranking forOne answer.itineraries)[(boundedRouter.shownLimit
            forOne).toNat]? = some c := by
  have hroute : boundedRouter.route forOne = .ok _ :=
    route_of_answer rfl rfl rfl build_planForOne
  exact ⟨rfl, rfl, _, _, hroute, rfl, route_hides_pruning rfl rfl hroute rfl⟩

/-- But it is reported as the first one cut off. -/
theorem boundingBus_reported : boundedRouter.options.debug = false ∧ forOne.waypoints = [] ∧
    ∃ run response query answer, boundedRouter.route forOne = .ok run ∧
      run.outcome = .ok response ∧ run.queries = [query] ∧
      boundedRouter.engine 0 query = .ok answer ∧
      ∃ c, response.firstRemoved = some c ∧ c.identity ∈ answer.pruning.map Candidate.identity := by
  have hroute : boundedRouter.route forOne = .ok _ :=
    route_of_answer rfl rfl rfl build_planForOne
  have hmeets : ∀ rule ∈ (boundedRouter.finalPlan forOne).rulesBeforeLimit,
      rule.Meets [shownBus, boundingBus] := by decide +kernel
  have hranking : boundedRouter.ranking forOne [shownBus, boundingBus] =
      [shownBus, boundingBus] := Chain.run_eq_self hmeets
  have hreported := firstRemoved_respond build_planForOne rfl [shownBus, boundingBus] [] 1
  rw [hranking, if_pos (by decide)] at hreported
  exact ⟨rfl, rfl, _, _, _, _, hroute, rfl, rfl, rfl, boundingBus, hreported.trans rfl, by decide⟩

end Journey.Router

end JourneyPlanner
