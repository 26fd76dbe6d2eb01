import JourneyPlanner.Proofs.Waypoints

/-!
# Checks before the first search

Everything that can be wrong with settings, a request or options is found before anything is
searched. Options are checked for one direction and any number of itineraries; the chains
that are built later are for other directions and numbers, with limits of their own, and
pass for it. A route has two ends, so that an assembly can start, and what has grown from
linear itineraries comes to an itinerary. Once the checks are passed, only the search engine
fails.
-/

namespace JourneyPlanner

namespace Selection

namespace Plan

variable {plan : Plan}

/-- A limit is accepted exactly if it is -1 or a number. -/
theorem checkLimit_eq_ok_iff {name : String} {value : Int} :
    checkLimit name value = .ok () ↔ -1 ≤ value := by
  unfold checkLimit
  by_cases hlow : value < -1
  · simp [hlow]
  · simp [hlow, Int.not_lt.1 hlow]

/-- A grouping is accepted exactly if it is by a share and for a number. -/
theorem checkGrouping_eq_ok_iff {grouping : Grouping} :
    checkGrouping grouping = .ok () ↔ isShare grouping.share = true ∧ 0 ≤ grouping.wanted := by
  unfold checkGrouping
  by_cases hshare : isShare grouping.share = true
  · by_cases hnegative : grouping.wanted < 0
    · simp [hshare, hnegative]
    · simp [hshare, hnegative, Int.not_lt.1 hnegative]
  · simp [hshare]

/-- What makes a plan acceptable. -/
structure Acceptable (plan : Plan) : Prop where
  /-- Each grouping is by a share and for a number. -/
  groupings : ∀ grouping ∈ plan.groupings, isShare grouping.share = true ∧ 0 ≤ grouping.wanted
  /-- The limit on all candidates is -1 or a number. -/
  maxItineraries : -1 ≤ plan.maxItineraries
  /-- The limit on street-only candidates is -1 or a number. -/
  maxStreetOnly : -1 ≤ plan.maxStreetOnly
  /-- The limit on the cost of transit is of use. -/
  transitLimit : checkCost plan.transitLimit = .ok ()
  /-- The limit on the cost of street-only candidates is of use. -/
  streetOnlyLimit : checkCost plan.streetOnlyLimit = .ok ()
  /-- The distance to cycle is finite and not negative. -/
  minCycling : checkDistance "minBikeParkingDistance" plan.minCycling = .ok ()

/-- A plan passes its check exactly if it is acceptable. -/
theorem check_eq_ok_iff : plan.check = .ok () ↔ plan.Acceptable := by
  unfold check
  simp only [check_bind_eq_ok_iff]
  constructor
  · rintro ⟨hgroupings, hmax, hstreet, htransit, hstreetLimit, hcycling⟩
    have hgroupings := forM_eq_ok_iff.1 hgroupings
    exact ⟨fun grouping hmem => checkGrouping_eq_ok_iff.1 (hgroupings grouping hmem),
      checkLimit_eq_ok_iff.1 hmax, checkLimit_eq_ok_iff.1 hstreet, htransit, hstreetLimit,
      hcycling⟩
  · intro h
    refine ⟨forM_eq_ok_iff.2 fun grouping hmem => ?_, checkLimit_eq_ok_iff.2 h.maxItineraries,
      checkLimit_eq_ok_iff.2 h.maxStreetOnly, h.transitLimit, h.streetOnlyLimit, h.minCycling⟩
    exact checkGrouping_eq_ok_iff.2 (h.groupings grouping hmem)

end Plan

namespace Options

variable {options : Options}

/-- A share is accepted exactly if it is one. -/
theorem checkShare_eq_ok_iff {name : String} {value : Float} :
    checkShare name value = .ok () ↔ Plan.isShare value = true := by
  unfold checkShare
  by_cases hshare : Plan.isShare value = true
  · simp [hshare]
  · simp [hshare]

/-- Options pass their check exactly if both shares are shares and the plan for a departure and
any number of itineraries is acceptable. -/
theorem check_eq_ok_iff : options.check = .ok () ↔
    Plan.isShare options.keepOneShare = true ∧ Plan.isShare options.keepFewShare = true ∧
      (options.plan false (-1)).Acceptable := by
  unfold check
  simp only [check_bind_eq_ok_iff, checkShare_eq_ok_iff, Plan.check_eq_ok_iff]

/-- The groupings that are made are by the two shares, for a number of itineraries. -/
theorem groupings_acceptable (hone : Plan.isShare options.keepOneShare = true)
    (hfew : Plan.isShare options.keepFewShare = true) (wanted : Int) :
    ∀ grouping ∈ options.groupings wanted,
      Plan.isShare grouping.share = true ∧ 0 ≤ grouping.wanted := by
  intro grouping hgrouping
  unfold groupings at hgrouping
  rcases List.mem_append.1 hgrouping with hmem | hmem
  · split_ifs at hmem
    · obtain rfl := List.mem_singleton.1 hmem
      exact ⟨hone, Int.one_nonneg⟩
    · cases hmem
  · split_ifs at hmem with henabled hany
    · obtain rfl := List.mem_singleton.1 hmem
      exact ⟨hfew, (by decide : 0 ≤ fewSimilar)⟩
    · obtain rfl := List.mem_singleton.1 hmem
      refine ⟨hfew, ?_⟩
      change 0 ≤ min wanted fewSimilar
      unfold fewSimilar
      omega
    · cases hmem

/-- The most itineraries to keep are an acceptable limit for any number of them, if they are
for an open one. -/
theorem neg_one_le_limitFor (hopen : -1 ≤ options.limitFor (-1)) {wanted : Int}
    (hwanted : -1 ≤ wanted) : -1 ≤ options.limitFor wanted := by
  unfold limitFor hardLimit at *
  dsimp only at *
  split_ifs at * <;> omega

/-- The plan for any direction and number of itineraries is acceptable, if the options pass
their check. -/
theorem acceptable_plan (hcheck : options.check = .ok ()) (arriveBy : Bool) {wanted : Int}
    (hwanted : -1 ≤ wanted) : (options.plan arriveBy wanted).Acceptable := by
  obtain ⟨hone, hfew, hopen⟩ := check_eq_ok_iff.1 hcheck
  exact ⟨groupings_acceptable hone hfew wanted, neg_one_le_limitFor hopen.maxItineraries hwanted,
    hopen.maxStreetOnly, hopen.transitLimit, hopen.streetOnlyLimit, hopen.minCycling⟩

end Options

end Selection

namespace Composition

open Journey (Stopover)

/-- What is assembled from linear itineraries has grown. -/
theorem Assembly.grown_of_merge {a b : Assembly} {found : List Candidate}
    (hgrown : ∀ s ∈ a.sequences, s.Grown) (hlinear : ∀ c ∈ found, c.Linear)
    (hok : a.merge found = .ok b) : ∀ s ∈ b.sequences, s.Grown := by
  unfold merge at hok
  split at hok
  · cases hok
    exact hgrown
  · rename_i stop _
    split at hok
    · cases hok
      intro s hs
      obtain ⟨c, hc, rfl⟩ := List.mem_map.1 hs
      exact .single (hlinear c hc)
    · obtain ⟨extended, hextended, rfl⟩ := map_eq_ok_iff.1 hok
      intro t ht
      obtain ⟨s, hs, next, hnext, hextend⟩ := mem_extendAll hextended ht
      exact .extend (hgrown s hs) (hlinear next hnext) stop.minWait_nonneg hextend

/-- Sequences that have grown are not refused when they are flattened. -/
theorem Sequence.flattenAll_not_refused {sequences : List Sequence}
    (hgrown : ∀ s ∈ sequences, s.Grown) (index : Nat) (reason : ItineraryError) :
    flattenAll index sequences ≠ .error (.refused reason) := by
  induction sequences generalizing index with
  | nil => exact fun h => by cases h
  | cons s rest ih =>
    obtain ⟨hs, hrest⟩ := List.forall_mem_cons.1 hgrown
    intro hrefused
    rcases bind_eq_error_iff.1 hrefused with hfirst | ⟨flat, -, hmore⟩
    · exact hs.not_refused _ reason hfirst
    · rcases bind_eq_error_iff.1 hmore with hothers | ⟨others, -, hreturn⟩
      · exact ih hrest (index + 1) hothers
      · cases hreturn

/-- An assembly starts along any route with two ends. -/
theorem Assembly.exists_start (direction : Direction) {route : List Stopover} (time : Instant)
    (windowLength : Option Int) (modes : ModeChoice) (hends : 2 ≤ route.length) :
    ∃ a, start direction route time windowLength modes = .ok a :=
  ⟨_, if_neg (Nat.not_lt.2 hends)⟩

end Composition

namespace Journey

open JourneyPlanner.Composition
open Search (Answer Query RoutingError)
open Selection (Chain Plan)

namespace Router

variable {router : Router} {request : Request}

/-- An acceptable plan has a chain. -/
theorem exists_chain_of_acceptable {plan : Plan} (h : plan.Acceptable) :
    ∃ chain, chainOf plan = .ok chain := by
  refine ⟨plan.chain, ?_⟩
  rw [chainOf, Plan.build, Plan.check_eq_ok_iff.2 h]
  rfl

/-- What the answer of a search calls for keeps a plan acceptable. -/
theorem acceptable_withSearchLimits {plan : Plan} (h : plan.Acceptable) (query : Query)
    (answer : Answer) : (withSearchLimits plan query answer).Acceptable :=
  ⟨h.groupings, h.maxItineraries, h.maxStreetOnly, h.transitLimit, h.streetOnlyLimit,
    h.minCycling⟩

/-- What the checks of a request rule out for the rest of its run. -/
structure Cleared (router : Router) (request : Request) (route : List Stopover)
    (windowLength : Option Int) : Prop where
  /-- No plan from the options is refused, for any direction and number of itineraries. -/
  plan : ∀ (arriveBy : Bool) (wanted : Int), -1 ≤ wanted →
    ∃ chain, chainOf (router.options.plan arriveBy wanted) = .ok chain
  /-- Nor is the plan for the answer of one of several searches. -/
  stepPlan : ∀ query answer, ∃ chain, chainOf (router.stepPlan query answer) = .ok chain
  /-- Nor is the plan for the answer of the only search. -/
  directPlan : ∀ query answer, ∃ chain,
    chainOf (withSearchLimits (router.finalPlan request) query answer) = .ok chain
  /-- Nor is the plan for what is shown in the end. -/
  finalPlan : ∃ chain, chainOf (router.finalPlan request) = .ok chain
  /-- An assembly starts, and when its junctions have been bridged, none of its sequences is
  refused as an itinerary. -/
  assembly : ∃ a, Assembly.start request.direction route request.time windowLength
      request.modes = .ok a ∧
    ∀ queries assembled, router.bridge a [] [] a.junctions.length = .ok (queries, .ok assembled) →
      ∀ reason, assembled.assembly.itineraries ≠ .error (.refused reason)

/-- What is gathered from a linear engine is linear. -/
theorem linear_of_mem_gather (hlinear : router.engine.Linear) {asked : Nat}
    {queries : List Query} {found : List Candidate} {errors : List RoutingError}
    (hok : router.gather (router.ask asked queries) = .ok (found, errors)) {c : Candidate}
    (hc : c ∈ found) : c.Linear := by
  obtain ⟨query, answer, hreply, d, hd, heq⟩ := exists_of_mem_gather hok hc
  obtain ⟨-, n, hengine⟩ := exists_of_mem_ask hreply
  unfold Itinerary.Linear
  rw [← heq]
  exact hlinear hengine d hd

/-- However an assembly is bridged by a linear engine, its sequences have grown. -/
theorem grown_of_bridge (hlinear : router.engine.Linear) {left : Nat} {a : Assembly}
    {queries queries' : List Query} {errors : List RoutingError} {assembled : Assembled}
    (hgrown : ∀ s ∈ a.sequences, s.Grown)
    (hok : router.bridge a queries errors left = .ok (queries', .ok assembled)) :
    ∀ s ∈ assembled.assembly.sequences, s.Grown := by
  induction left generalizing a queries errors with
  | zero =>
    cases hok
    exact hgrown
  | succ left ih =>
    obtain ⟨coverages, found, more, b, -, hgather, hmerge, hrest⟩ := bridge_cases hok
    have hadvance : ∀ s ∈ a.advance.sequences, s.Grown := by simpa using hgrown
    have hb := Assembly.grown_of_merge hadvance
      (fun c hc => linear_of_mem_gather hlinear hgather hc) hmerge
    rcases hrest with hempty | ⟨asked, reported, hbridge⟩
    · simp [hempty]
    · exact ih hb hbridge

/-- What the preparation of a run finds has passed every check. -/
theorem checks_of_prepare {route : List Stopover} {windowLength : Option Int}
    (hprepare : router.prepare request = .ok (route, windowLength)) :
    request.check = .ok () ∧ router.options.check = .ok () ∧
      request.stopovers router.settings = .ok route := by
  obtain ⟨-, hprepare⟩ := check_bind_eq_ok_iff.1 hprepare
  obtain ⟨hrequest, hprepare⟩ := check_bind_eq_ok_iff.1 hprepare
  obtain ⟨hoptions, hprepare⟩ := check_bind_eq_ok_iff.1 hprepare
  obtain ⟨found, hroute, hprepare⟩ := bind_eq_ok_iff.1 hprepare
  obtain ⟨_, -, hprepare⟩ := bind_eq_ok_iff.1 hprepare
  cases hprepare
  exact ⟨ok_of_mapError hrequest, ok_of_mapError hoptions, ok_of_mapError hroute⟩

/-- The most itineraries of one search are an acceptable limit. -/
theorem neg_one_le_limit (router : Router) : -1 ≤ router.limit := by
  have hword : -1 ≤ Int.pow 2 31 - 1 := by decide
  unfold limit
  omega

/-- The plan for the answer of one of several searches is acceptable, if the options pass their
check. -/
theorem acceptable_stepPlan (router : Router) (hoptions : router.options.check = .ok ())
    (query : Query) (answer : Answer) : (router.stepPlan query answer).Acceptable := by
  have h := Selection.Options.acceptable_plan hoptions query.arriveBy (Int.le_refl (-1))
  refine acceptable_withSearchLimits ?_ query answer
  exact ⟨h.groupings, router.neg_one_le_limit, h.maxStreetOnly, h.transitLimit,
    h.streetOnlyLimit, h.minCycling⟩

/-- The number of itineraries of a request that passes its check is an acceptable limit. -/
theorem neg_one_le_wantedCount (router : Router) (hcheck : request.check = .ok ()) :
    -1 ≤ router.wantedCount request := by
  obtain ⟨hcount, -⟩ := check_bind_eq_ok_iff.1 hcheck
  have hwanted : -1 ≤ request.wanted := by
    unfold Request.checkCount at hcount
    split_ifs at hcount with hlow
    exact Int.not_lt.1 hlow
  unfold wantedCount
  split_ifs
  · exact hwanted
  · exact Int.le_min.2 ⟨hwanted, router.neg_one_le_limit⟩

/-- Nothing that has passed the checks is refused later. -/
theorem cleared_of_prepare (hlinear : router.engine.Linear) {route : List Stopover}
    {windowLength : Option Int}
    (hprepare : router.prepare request = .ok (route, windowLength)) :
    router.Cleared request route windowLength := by
  obtain ⟨hrequest, hoptions, hstopovers⟩ := checks_of_prepare hprepare
  have hplan := fun (arriveBy : Bool) {wanted : Int} (hwanted : -1 ≤ wanted) =>
    Selection.Options.acceptable_plan hoptions arriveBy hwanted
  have hfinal : (router.finalPlan request).Acceptable := by
    have h := hplan request.arriveBy (router.neg_one_le_wantedCount hrequest)
    exact ⟨h.groupings, h.maxItineraries, h.maxStreetOnly, h.transitLimit, h.streetOnlyLimit,
      h.minCycling⟩
  constructor
  · exact fun arriveBy wanted hwanted => exists_chain_of_acceptable (hplan arriveBy hwanted)
  · exact fun query answer =>
      exists_chain_of_acceptable (router.acceptable_stepPlan hoptions query answer)
  · exact fun query answer =>
      exists_chain_of_acceptable (acceptable_withSearchLimits hfinal query answer)
  · exact exists_chain_of_acceptable hfinal
  · obtain ⟨stops, rfl, -⟩ := Request.exists_stopovers hstopovers
    have hends : 2 ≤ (Stopover.atEnd request.origin ::
        (stops ++ [Stopover.atEnd request.destination])).length := by simp
    obtain ⟨a, hstart⟩ := Assembly.exists_start request.direction request.time windowLength
      request.modes hends
    refine ⟨a, hstart, fun queries assembled hbridge reason => ?_⟩
    have hnone : ∀ s ∈ a.sequences, s.Grown := by
      simp [(Assembly.along_of_start hstart).2]
    exact Sequence.flattenAll_not_refused (grown_of_bridge hlinear hnone hbridge) 0 reason

/-- Some query of a run failed with this error. -/
def FailedOn (router : Router) (queries : List Query) (reason : SearchError) : Prop :=
  ∃ n query, queries[n]? = some query ∧ router.engine n query = .error reason

/-- If each chain is built, gathering fails only with the error of one of the replies. -/
theorem mem_of_gather_error
    (hchains : ∀ query answer, ∃ chain, chainOf (router.stepPlan query answer) = .ok chain)
    {replies : List (Query × Except SearchError Answer)} {reason : SearchError}
    (herror : router.gather replies = .error reason) :
    ∃ query, (query, .error reason) ∈ replies := by
  induction replies with
  | nil => cases herror
  | cons reply rest ih =>
    obtain ⟨query, reply⟩ := reply
    rcases bind_eq_error_iff.1 herror with hreply | ⟨answer, -, hmore⟩
    · exact ⟨query, by simp [show reply = .error reason from hreply]⟩
    · obtain ⟨chain, hchain⟩ := hchains query answer
      rcases bind_eq_error_iff.1 hmore with hbuild | ⟨_, -, hmore⟩
      · rw [hchain] at hbuild
        cases hbuild
      · rcases bind_eq_error_iff.1 hmore with hrest | ⟨_, -, hreturn⟩
        · obtain ⟨query', hmem⟩ := ih hrest
          exact ⟨query', List.mem_cons_of_mem _ hmem⟩
        · cases hreturn

/-- A step fails only with the error of one of its queries, in its place among all of them. -/
theorem failedOn_of_gather_error
    (hchains : ∀ query answer, ∃ chain, chainOf (router.stepPlan query answer) = .ok chain)
    {queries asked : List Query} {reason : SearchError}
    (herror : router.gather (router.ask queries.length asked) = .error reason) :
    router.FailedOn (queries ++ asked) reason := by
  obtain ⟨query, hmem⟩ := mem_of_gather_error hchains herror
  obtain ⟨⟨query', index⟩, hasked, heq⟩ := List.mem_map.1 hmem
  obtain ⟨rfl, hengine⟩ := Prod.mk.inj heq
  refine ⟨queries.length + index, query', ?_, hengine⟩
  rw [List.getElem?_append_right (Nat.le_add_right _ _), Nat.add_sub_cancel_left]
  exact List.mem_zipIdx_iff_getElem?.1 hasked

/-- If each chain is built, bridging fails only with the error of one of the queries. -/
theorem failedOn_of_bridge_error
    (hchains : ∀ query answer, ∃ chain, chainOf (router.stepPlan query answer) = .ok chain)
    {left : Nat} {a : Assembly} {queries queries' : List Query} {errors : List RoutingError}
    {reason : SearchError}
    (hok : router.bridge a queries errors left = .ok (queries', .error reason)) :
    router.FailedOn queries' reason := by
  induction left generalizing a queries errors with
  | zero => cases hok
  | succ left ih =>
    unfold bridge at hok
    obtain ⟨coverages, -, hok⟩ := bind_eq_ok_iff.1 hok
    dsimp only at hok
    split at hok
    · rename_i hgather
      cases hok
      exact failedOn_of_gather_error hchains hgather
    · obtain ⟨b, -, hok⟩ := bind_eq_ok_iff.1 hok
      split at hok
      · cases hok
      · exact ih hok

/-- A request without waypoints that has passed the checks fails only with the error of its
search. -/
theorem Cleared.failedOn_of_routeDirect {route : List Stopover} {windowLength : Option Int}
    (h : router.Cleared request route windowLength) {reason : SearchError}
    (herror : (router.routeDirect request windowLength).outcome = .error reason) :
    router.FailedOn (router.routeDirect request windowLength).queries reason := by
  unfold routeDirect at herror
  rcases bind_eq_error_iff.1 herror with hengine | ⟨answer, -, hmore⟩
  · exact ⟨0, _, rfl, hengine⟩
  · obtain ⟨chain, hchain⟩ := h.directPlan (directQuery request windowLength) answer
    rw [hchain] at hmore
    cases hmore

/-- A request with waypoints that has passed the checks fails only with the error of one of its
searches. -/
theorem Cleared.failedOn_of_routeVia {route : List Stopover} {windowLength : Option Int}
    (h : router.Cleared request route windowLength) {run : Run}
    (hok : router.routeVia request route windowLength = .ok run) {reason : SearchError}
    (herror : run.outcome = .error reason) : router.FailedOn run.queries reason := by
  obtain ⟨a, hstart, hcomposes⟩ := h.assembly
  unfold routeVia at hok
  rw [hstart] at hok
  obtain ⟨⟨queries, bridged⟩, hbridge, hok⟩ := bind_eq_ok_iff.1 hok
  cases bridged with
  | error other =>
    cases hok
    cases herror
    exact failedOn_of_bridge_error h.stepPlan hbridge
  | ok assembled =>
    obtain ⟨outcome, hconclude, hrun⟩ := bind_eq_ok_iff.1 hok
    cases hrun
    obtain ⟨chain, hchain⟩ := h.finalPlan
    unfold conclude at hconclude
    dsimp only at herror
    rw [hchain, herror] at hconclude
    dsimp only at hconclude
    split at hconclude
    · rename_i refused hrefused
      exact absurd hrefused (hcomposes queries assembled hbridge refused)
    · cases hconclude
    · cases hconclude

/-- A run that fails has made no search, or fails with the error of one of its searches; for
once a request has passed the checks, no chain and no assembly is refused, and no itinerary
that is composed. -/
theorem route_fails_early_or_by_engine (hlinear : router.engine.Linear) {run : Run}
    (hroute : router.route request = .ok run) :
    (∀ reason, run.outcome = .error reason →
      run.queries = [] ∨ router.FailedOn run.queries reason) ∧
    ∀ route windowLength, router.prepare request = .ok (route, windowLength) →
      router.Cleared request route windowLength := by
  refine ⟨fun reason herror => ?_, fun _ _ hprepare => cleared_of_prepare hlinear hprepare⟩
  unfold route at hroute
  split at hroute
  · cases hroute
    exact Or.inl rfl
  · rename_i route windowLength hprepare
    have hcleared := cleared_of_prepare hlinear hprepare
    right
    split at hroute
    · cases hroute
      exact hcleared.failedOn_of_routeDirect herror
    · exact hcleared.failedOn_of_routeVia hroute herror

/-- A bus from the first to the second stop. -/
private def firstBus : List Candidate :=
  [.ofLeg 0 (.onDay .bus (.inRow 0) (.inRow 1) 600 620)]

/-- A journey from the first stop by way of the second to the third. -/
private def bySecondStop : Request where
  origin := .ofPlace (.inRow 0)
  destination := .ofPlace (.inRow 2)
  waypoints := [⟨.ofPlace (.inRow 1), none, none⟩]
  time := .ofMinute 590
  arriveBy := false
  window := none
  wanted := -1
  modes := .default

/-- A router with an engine that answers its first query and fails from then on. -/
private def failingRouter : Router where
  engine asked query :=
    if asked = 0 then .ok (Search.replay firstBus query) else .error (.engine "timed out")
  settings := .default
  options := { Selection.Options.default with keepFewShare := 0.0 }

/-- The queries of a run that failed; none, if it did not. -/
private def queriesBeforeFailure : Except Fault Run → List Query
  | .ok ⟨.error _, queries⟩ => queries
  | _ => []

/-- When the second search fails, the run fails with its error, and the checks were passed. -/
theorem second_search_fails : failingRouter.engine.Linear ∧
    ∃ run, failingRouter.route bySecondStop = .ok run ∧ ∃ reason, run.outcome = .error reason ∧
      1 < run.queries.length ∧ failingRouter.FailedOn run.queries reason ∧
      ∃ route windowLength, failingRouter.prepare bySecondStop = .ok (route, windowLength) ∧
        failingRouter.Cleared bySecondStop route windowLength := by
  have hknown : ∀ c ∈ firstBus, c.Linear := by decide
  have hlinear : failingRouter.engine.Linear := by
    intro asked query answer hok
    unfold failingRouter at hok
    dsimp only at hok
    split_ifs at hok
    cases hok
    exact fun c hc => hknown c (Search.replay_answers hc).1
  have hasked : 1 < (queriesBeforeFailure (failingRouter.route bySecondStop)).length := by
    decide +kernel
  have hprepared : (failingRouter.prepare bySecondStop).toBool = true := by decide +kernel
  refine ⟨hlinear, ?_⟩
  cases hroute : failingRouter.route bySecondStop with
  | error cause =>
    rw [hroute] at hasked
    exact absurd hasked (Nat.not_lt_zero 1)
  | ok run =>
    obtain ⟨outcome, queries⟩ := run
    rw [hroute] at hasked
    cases outcome with
    | ok response => exact absurd hasked (Nat.not_lt_zero 1)
    | error reason =>
      obtain ⟨hfails, hclears⟩ := route_fails_early_or_by_engine hlinear hroute
      refine ⟨_, rfl, reason, rfl, hasked, ?_, ?_⟩
      · rcases hfails reason rfl with hnone | hfailed
        · cases hnone
          exact absurd hasked (Nat.not_lt_zero 1)
        · exact hfailed
      · cases hprepare : failingRouter.prepare bySecondStop with
        | error refusal =>
          rw [hprepare] at hprepared
          cases hprepared
        | ok prepared => exact ⟨_, _, rfl, hclears _ _ hprepare⟩

end Router

end Journey

end JourneyPlanner
