import JourneyPlanner.Proofs.Ensured
import JourneyPlanner.Proofs.RequestedTime
import JourneyPlanner.Proofs.Responses

/-!
# How many itineraries are shown

The request, the operator's settings, the user's options and a number that is built in all
limit how many itineraries are shown. They meet in one limit of the final plan. A limit of none
is no limit to a plan, and options overrule what the settings leave of the request, so that not
every limit holds in the end.
-/

namespace JourneyPlanner

namespace Selection

/-- A chain that drops leaves no more candidates than its plan allows, if that is any. -/
theorem Plan.length_run_le {plan : Plan} {chain : Chain} (hbuild : plan.build = .ok chain)
    (hdrops : plan.debug = false) (hlimited : 0 < plan.maxItineraries)
    (candidates : List Candidate) :
    ((chain.run candidates).candidates.length : Int) ≤ plan.maxItineraries := by
  have hrule : Rule.atMost "number-of-itineraries-filter" plan.maxItineraries.toNat
      plan.reportsCut ∈ plan.rules := mem_rules_iff.2 (by simp [numberRules, hlimited])
  rw [eq_ofRules_of_build hbuild, hdrops]
  obtain ⟨seen, -, hleft⟩ := Chain.exists_run_subperm_apply hrule candidates
  have hlength := hleft.length_le.trans (List.length_take_le plan.maxItineraries.toNat seen)
  omega

/-- A plan that allows no candidates does not limit their number. -/
theorem Plan.chain_eq_of_unlimited {plan : Plan} (hnone : plan.maxItineraries ≤ 0) :
    plan.chain = { plan with maxItineraries := -1 }.chain := by
  have hnumbers : plan.numberRules = { plan with maxItineraries := -1 }.numberRules := by
    simp [numberRules, Int.not_lt.2 hnone]
  unfold chain rules
  rw [hnumbers]
  rfl

namespace Options

variable {options : Options} {wanted : Int}

/-- The number of itineraries asked for: by the options, or else by the request. -/
def asked (options : Options) (wanted : Int) : Int :=
  if options.maxItineraries = -1 then wanted else options.maxItineraries

/-- A number of itineraries that keeps to the hard limit, to the options, and to the request
where they leave it to decide. -/
structure Caps (options : Options) (wanted : Int) (number : Nat) : Prop where
  /-- It is never more than the hard limit. -/
  hard : (number : Int) ≤ hardLimit
  /-- It is no more than the options say. -/
  byOptions : options.maxItineraries ≠ -1 → (number : Int) ≤ options.maxItineraries
  /-- If they say nothing, it is no more than the request wants. -/
  byRequest : options.maxItineraries = -1 → wanted ≠ -1 → (number : Int) ≤ wanted

/-- A plan keeps as many itineraries as are asked for, or else any number, up to the hard
limit. -/
theorem limitFor_eq (options : Options) (wanted : Int) : options.limitFor wanted =
    if options.asked wanted = -1 then hardLimit else min (options.asked wanted) hardLimit :=
  rfl

/-- Unless no itinerary is asked for, a limit that is accepted allows some. -/
theorem limitFor_pos (haccepted : -1 ≤ options.limitFor wanted)
    (hasked : options.asked wanted ≠ 0) : 0 < options.limitFor wanted := by
  rw [limitFor_eq] at haccepted ⊢
  unfold hardLimit at *
  split_ifs at * <;> omega

/-- A number within the limit of a plan is capped. -/
theorem caps_of_le_limitFor {number : Nat} (hle : (number : Int) ≤ options.limitFor wanted) :
    options.Caps wanted number := by
  rw [limitFor_eq] at hle
  unfold asked hardLimit at hle
  constructor
  · unfold hardLimit
    split_ifs at hle <;> omega
  · intro hset
    rw [if_neg hset, if_neg hset] at hle
    omega
  · intro hopen hwants
    rw [if_pos hopen, if_neg hwants] at hle
    omega

/-- Options that pass their check make a chain for any direction and number of itineraries, and
what it leaves is capped. Only where no itinerary is asked for is it the chain without a limit
on their number. -/
theorem chain_capped (hcheck : options.check = .ok ()) (hdrops : options.debug = false)
    (arriveBy : Bool) (hwanted : -1 ≤ wanted) :
    ∃ chain, (options.plan arriveBy wanted).build = .ok chain ∧
      (options.asked wanted ≠ 0 → ∀ candidates,
        options.Caps wanted (chain.run candidates).candidates.length) ∧
      (options.asked wanted = 0 →
        chain = { options.plan arriveBy wanted with maxItineraries := -1 }.chain) := by
  have haccepted := acceptable_plan hcheck arriveBy hwanted
  have hbuild := Plan.build_eq_ok (Plan.check_eq_ok_iff.2 haccepted)
  refine ⟨_, hbuild, fun hasked candidates => ?_, fun hnone => ?_⟩
  · have hlimited := limitFor_pos haccepted.maxItineraries hasked
    exact caps_of_le_limitFor (Plan.length_run_le hbuild hdrops hlimited candidates)
  · have hlimit : (options.plan arriveBy wanted).maxItineraries = 0 := by
      change options.limitFor wanted = 0
      rw [limitFor_eq, hnone]
      rfl
    exact Plan.chain_eq_of_unlimited hlimit.le

/-- Options that ask for twelve itineraries, whatever the request wants. -/
private def forTwelve : Options :=
  { default with maxItineraries := 12 }

/-- Twelve itineraries are a cap also for a request that wants three hundred. -/
theorem forTwelve_capped : forTwelve.check = .ok () ∧ forTwelve.debug = false ∧
    (-1 : Int) ≤ 300 ∧ ∃ chain, (forTwelve.plan false 300).build = .ok chain ∧
      (forTwelve.asked 300 ≠ 0 → ∀ candidates,
        forTwelve.Caps 300 (chain.run candidates).candidates.length) ∧
      (forTwelve.asked 300 = 0 →
        chain = { forTwelve.plan false 300 with maxItineraries := -1 }.chain) := by
  have hcheck : forTwelve.check = .ok () := by decide +kernel
  exact ⟨hcheck, rfl, by decide, chain_capped hcheck rfl false (by decide)⟩

/-- Options that ask for no itinerary, and for nothing else that compares more than costs. -/
private def forNone : Options :=
  { default with
    keepOneShare := 0.0, keepFewShare := 0.0, maxItineraries := 0, maxStreetOnly := -1,
    boundByStreetOnly := false }

/-- Any number of copies of one bus. -/
private def copies (number : Nat) : List Candidate :=
  .replicate number (.ofLeg 0 (.onDay .bus (.inRow 0) (.inRow 1) 490 510))

/-- The costs of the copies are within the limits, and no copy has to be in front of another. -/
private theorem copies_meet (number : Nat) {rule : Rule}
    (hrule : rule ∈ (forNone.plan false (-1)).rules) : rule.Meets (copies number) := by
  have hgroupings : forNone.groupings (-1) = [] := List.length_eq_zero_iff.1 (by decide +kernel)
  simp only [Plan.mem_rules_iff, Plan.groupingRules, Plan.sortedGroupings, plan, hgroupings]
    at hrule
  have hparts : rule = .transitCost defaultLimit ∨ rule = .streetOnlyCost defaultLimit ∨
      rule = .sort false := by
    simpa [Plan.costRules, Plan.numberRules, Plan.absoluteRules, Plan.new, forNone, default,
      limitFor, hardLimit, or_assoc] using hrule
  rcases hparts with rfl | rfl | rfl
  · intro b hb c hc _ _
    rw [List.eq_of_mem_replicate hb, List.eq_of_mem_replicate hc]
    decide +kernel
  · intro b hb c hc _
    rw [List.eq_of_mem_replicate hb, List.eq_of_mem_replicate hc]
    decide +kernel
  · exact List.pairwise_replicate.2 (Or.inr (by decide))

/-- Options that ask for no itinerary are accepted, but their chain keeps them all. -/
theorem forNone_not_capped : forNone.check = .ok () ∧ forNone.debug = false ∧
    forNone.maxItineraries = 0 ∧ ∃ chain, (forNone.plan false (-1)).build = .ok chain ∧
      ∃ candidates, hardLimit < (chain.run candidates).candidates.length := by
  have hcheck : forNone.check = .ok () := by decide +kernel
  have hbuild : (forNone.plan false (-1)).build = .ok (forNone.plan false (-1)).chain :=
    Plan.build_eq_ok (by decide +kernel)
  refine ⟨hcheck, rfl, rfl, _, hbuild, copies 201, ?_⟩
  rw [Plan.run_chain_eq_self rfl fun _ => copies_meet 201, copies, List.length_replicate]
  decide

end Options

end Selection

namespace Journey.Router

open Selection (Options Plan)

variable {router : Router} {request : Request}

/-- A number of itineraries that is limited for a request. -/
structure Limited (router : Router) (request : Request) (number : Nat) : Prop where
  /-- It keeps to the hard limit, and to the options or else to the request. -/
  caps : router.options.Caps (router.wantedCount request) number
  /-- It keeps to the settings, if these allow as many as the hard limit or the options do, or
  if it is the request that decides. -/
  bySettings : Options.hardLimit ≤ router.settings.maxItineraries ∨
      router.options.maxItineraries ≠ -1 ∧
        router.options.maxItineraries ≤ router.settings.maxItineraries ∨
      router.options.maxItineraries = -1 ∧ request.wanted ≠ -1 →
    number ≤ router.settings.maxItineraries

/-- A number within the limit of the final plan is limited. -/
theorem limited_of_le_limitFor {number : Nat}
    (haccepted : -1 ≤ router.options.limitFor (router.wantedCount request))
    (hle : (number : Int) ≤ router.options.limitFor (router.wantedCount request)) :
    router.Limited request number := by
  refine ⟨Options.caps_of_le_limitFor hle, fun hsettings => ?_⟩
  have hword : 0 ≤ Int.pow 2 31 - 1 := by decide
  rw [Options.limitFor_eq] at haccepted hle
  unfold Options.asked Options.hardLimit wantedCount limit at *
  split_ifs at * <;> omega

/-- What is shown is limited, unless no itinerary is asked for. -/
theorem route_limited (hdrops : router.options.debug = false) {run : Run} {response : Response}
    (hroute : router.route request = .ok run) (hresponse : run.outcome = .ok response)
    (hasked : router.options.asked (router.wantedCount request) ≠ 0) :
    router.Limited request response.itineraries.length := by
  obtain ⟨latest, pruning, chain, candidates, errors, searches, hbuild, rfl⟩ :=
    exists_plan_of_route hroute hresponse
  obtain ⟨_, hcheck, -⟩ := map_eq_ok_iff.1 hbuild
  have haccepted : -1 ≤ router.options.limitFor (router.wantedCount request) :=
    (Plan.check_eq_ok_iff.1 hcheck).maxItineraries
  have hlimited := Options.limitFor_pos haccepted hasked
  exact limited_of_le_limitFor haccepted (Plan.length_run_le hbuild hdrops hlimited candidates)

/-- Two buses, the earlier one in front. -/
private def busesInOrder : List Candidate :=
  [.ofLeg 0 (.onDay .bus (.inRow 0) (.inRow 1) 490 510),
    .ofLeg 1 (.onDay .bus (.inRow 0) (.inRow 1) 500 520)]

/-- A router that finds the two buses, with limits by its options and its settings. -/
private def offersTwo (ofOptions : Int) (ofSettings : Nat) : Router where
  engine := fun _ _ => .ok ⟨busesInOrder, [], none, []⟩
  settings := { Settings.default with maxItineraries := ofSettings }
  options := { Options.default with
    keepOneShare := 0.0, keepFewShare := 0.0, maxItineraries := ofOptions }

/-- A request for a number of itineraries. -/
private def wanting (wanted : Int) : Request where
  origin := .ofPlace (.inRow 0)
  destination := .ofPlace (.inRow 1)
  waypoints := []
  time := .ofMinute 480
  arriveBy := false
  window := none
  wanted := wanted
  modes := .default

/-- The plan for what it shows. -/
private def planForTwo (ofOptions wanted : Int) (ofSettings : Nat) : Plan :=
  withSearchLimits ((offersTwo ofOptions ofSettings).finalPlan (wanting wanted))
    (directQuery (wanting wanted) none) ⟨busesInOrder, [], none, []⟩

/-- A request for five itineraries is answered with no more than the one that settings allow. -/
theorem one_of_five_shown : (offersTwo (-1) 1).options.debug = false ∧
    (offersTwo (-1) 1).options.asked ((offersTwo (-1) 1).wantedCount (wanting 5)) ≠ 0 ∧
    ∃ run response, (offersTwo (-1) 1).route (wanting 5) = .ok run ∧
      run.outcome = .ok response ∧
      (offersTwo (-1) 1).Limited (wanting 5) response.itineraries.length := by
  have hbuild : (planForTwo (-1) 5 1).build = .ok (planForTwo (-1) 5 1).chain :=
    Plan.build_eq_ok (by decide +kernel)
  have hroute : (offersTwo (-1) 1).route (wanting 5) = .ok _ :=
    route_of_answer rfl rfl rfl hbuild
  have hasked : (offersTwo (-1) 1).options.asked ((offersTwo (-1) 1).wantedCount (wanting 5)) ≠ 0 :=
    by decide
  exact ⟨rfl, hasked, _, _, hroute, rfl, route_limited rfl hroute rfl hasked⟩

/-- A router that drops what it rejects shows more itineraries than its settings allow. -/
private def ExceedsSettings (router : Router) (request : Request) : Prop :=
  router.options.debug = false ∧ ∃ run response, router.route request = .ok run ∧
    run.outcome = .ok response ∧ router.settings.maxItineraries < response.itineraries.length

/-- If the plan has nothing against them, both buses are shown. -/
private theorem exceedsSettings_of_meets {ofOptions wanted : Int} {ofSettings : Nat}
    {route : List Stopover} (hfew : ofSettings < 2)
    (hprepare : (offersTwo ofOptions ofSettings).prepare (wanting wanted) = .ok (route, none))
    (hcheck : (planForTwo ofOptions wanted ofSettings).check = .ok ())
    (hmeets : ∀ rule ∈ (planForTwo ofOptions wanted ofSettings).rules, rule.Meets busesInOrder) :
    ExceedsSettings (offersTwo ofOptions ofSettings) (wanting wanted) := by
  have hroute : (offersTwo ofOptions ofSettings).route (wanting wanted) = .ok _ :=
    route_of_answer hprepare rfl rfl (Plan.build_eq_ok hcheck)
  refine ⟨rfl, _, _, hroute, rfl, ?_⟩
  change ofSettings <
    ((planForTwo ofOptions wanted ofSettings).chain.run busesInOrder).candidates.length
  rwa [Plan.run_chain_eq_self rfl hmeets]

/-- More itineraries are shown than the settings allow: if the request leaves their number
open, if the options ask for more, and if the settings allow none. -/
theorem settings_exceeded :
    ExceedsSettings (offersTwo (-1) 1) (wanting (-1)) ∧
      ExceedsSettings (offersTwo 2 1) (wanting 1) ∧
      ExceedsSettings (offersTwo (-1) 0) (wanting 1) := by
  refine ⟨exceedsSettings_of_meets (by decide) rfl ?_ ?_,
    exceedsSettings_of_meets (by decide) rfl ?_ ?_,
    exceedsSettings_of_meets (by decide) rfl ?_ ?_⟩
  all_goals decide +kernel

end Journey.Router

end JourneyPlanner
