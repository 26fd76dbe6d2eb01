import JourneyPlanner.Proofs.Idempotence

/-!
# What every chain ensures

A plan is read from its outcome: whatever rules it has and whatever they are applied to,
what it asks for holds of the candidates that are left in the end. Most of it is
established in the middle of the chain. The rules behind that place only drop more
candidates or sort them, which can take away a candidate that a limit was taken at, but
only for a dearer one.
-/

namespace JourneyPlanner.Selection.Plan

variable {plan : Plan} {rule : Rule} {candidates shown : List Candidate}

/-- The rules of a plan come from its parts, and the last one sorts. -/
theorem mem_rules_iff : rule ∈ plan.rules ↔ rule ∈ plan.groupingRules ∨ rule ∈ plan.costRules ∨
    rule ∈ plan.numberRules ∨ rule ∈ plan.absoluteRules ∨ rule = .sort plan.arriveBy := by
  simp [rules]

/-- What a plan asks for of some candidates, of those that are shown in the end. Limits hold
at the cheapest of what is shown. -/
structure Ensures (plan : Plan) (candidates shown : List Candidate) : Prop where
  /-- Nothing is shown that was not there, or more often than it was there, or changed. -/
  subperm : shown.Subperm candidates
  /-- Candidates are shown in the order of the plan. -/
  sorted : shown.Pairwise fun a b => mayPrecede plan.arriveBy a b = true
  /-- Their number is limited. -/
  length_le : 0 < plan.maxItineraries → (shown.length : Int) ≤ plan.maxItineraries
  /-- The number of those that do not ride transit is limited. -/
  streetOnly_le : 0 < plan.maxStreetOnly →
    (shown.countP (fun c => c.isStreetOnly) : Int) ≤ plan.maxStreetOnly
  /-- Transit costs no more than any way without it. -/
  no_dearer : plan.boundByStreetOnly = true → ∀ c ∈ shown, ∀ street ∈ shown,
    ridesTransit c = true → street.isStreetOnly = true → c.cost ≤ street.cost
  /-- Transit is within the limit at the cheapest transit. -/
  within_transitLimit : ∀ limit ∈ plan.transitLimit, ∀ best,
    lowestCost? ridesTransit shown = some best →
      ∀ c ∈ shown, ridesTransit c = true → limit.allows best c.cost = true
  /-- What does not ride transit is within the limit at the cheapest of all. -/
  within_streetOnlyLimit : ∀ limit ∈ plan.streetOnlyLimit, ∀ best,
    lowestCost? (fun _ => true) shown = some best →
      ∀ c ∈ shown, c.isStreetOnly = true → limit.allows best c.cost = true
  /-- No departure is too late. -/
  departs_by : ∀ limit ∈ plan.latestDeparture, ∀ c ∈ shown, c.start ≤ limit
  /-- What only served to bound a search is not shown. -/
  not_pruning : ∀ c ∈ shown, c.identity ∉ plan.pruning
  /-- A bicycle is parked after more than the distance asked for. -/
  cycles_further : ∀ distance ∈ plan.minCycling, ∀ c ∈ shown,
    distance < cycledDistance c.toItinerary
  /-- A bicycle is left before the end. -/
  leaves_bicycle : plan.parkAndRide = true → ∀ c ∈ shown, staysOnBicycle c.toItinerary = false
  /-- The destination is reached on demand. -/
  arrives_onDemand : plan.onDemand = true → ∀ c ∈ shown,
    reachesDestinationOnDemand longestFinalWalk c.toItinerary = true

/-- Candidates that are as each rule of a plan ensures are as the plan asks for. -/
theorem Ensures.of_meets (hpart : shown.Subperm candidates)
    (hmeets : ∀ rule ∈ plan.rules, rule.Meets shown) : plan.Ensures candidates shown where
  subperm := hpart
  sorted := hmeets (.sort plan.arriveBy) (mem_rules_iff.2 (by simp))
  length_le hlimited := by
    have hlength : shown.length ≤ plan.maxItineraries.toNat :=
      hmeets (.atMost "number-of-itineraries-filter" plan.maxItineraries.toNat plan.reportsCut)
        (mem_rules_iff.2 (by simp [numberRules, hlimited]))
    omega
  streetOnly_le hlimited := by
    have hcount : shown.countP (fun c => c.isStreetOnly) ≤ plan.maxStreetOnly.toNat :=
      hmeets (.streetOnlyAtMost "number-of-on-street-only-itineraries-filter"
        plan.maxStreetOnly.toNat) (mem_rules_iff.2 (by simp [numberRules, hlimited]))
    omega
  no_dearer hbound c hc street hstreet hride honly :=
    hmeets .noDearerThanStreetOnly (mem_rules_iff.2 (by simp [absoluteRules, hbound]))
      street hstreet c hc honly hride
  within_transitLimit limit hlimit best hbest c hc hride := by
    obtain ⟨⟨b, hb, hbRide, rfl⟩, -⟩ := lowestCost?_eq_some_iff.1 hbest
    exact hmeets (.transitCost limit)
      (mem_rules_iff.2 (by simp [costRules, Option.mem_def.1 hlimit])) b hb c hc hbRide hride
  within_streetOnlyLimit limit hlimit best hbest c hc hstreet := by
    obtain ⟨⟨b, hb, -, rfl⟩, -⟩ := lowestCost?_eq_some_iff.1 hbest
    exact hmeets (.streetOnlyCost limit)
      (mem_rules_iff.2 (by simp [costRules, Option.mem_def.1 hlimit])) b hb c hc hstreet
  departs_by limit hlimit :=
    hmeets (.departsBy limit)
      (mem_rules_iff.2 (by simp [absoluteRules, Option.mem_def.1 hlimit]))
  not_pruning := by
    by_cases hnone : plan.pruning = []
    · simp [hnone]
    · exact hmeets (.isShown plan.pruning) (mem_rules_iff.2 (by simp [absoluteRules, hnone]))
  cycles_further distance hdistance :=
    hmeets (.cyclesFurtherThan distance)
      (mem_rules_iff.2 (by simp [absoluteRules, Option.mem_def.1 hdistance]))
  leaves_bicycle hparks :=
    hmeets .leavesBicycle (mem_rules_iff.2 (by simp [absoluteRules, hparks]))
  arrives_onDemand hdemand :=
    hmeets (.arrivesOnDemand longestFinalWalk)
      (mem_rules_iff.2 (by simp [absoluteRules, hdemand]))

/-- The chain of a plan that drops candidates leaves what the plan asks for. -/
theorem ensures_run {chain : Chain} (hbuild : plan.build = .ok chain)
    (hdrops : plan.debug = false)
    (hlimits : ∀ limit, limit ∈ plan.transitLimit ∨ limit ∈ plan.streetOnlyLimit →
      limit.MonotoneOn (candidates.map fun c => c.cost)) :
    plan.Ensures candidates (chain.run candidates).candidates := by
  rw [eq_ofRules_of_build hbuild, hdrops]
  refine .of_meets (Chain.run_subperm plan.rules candidates) fun rule hrule => ?_
  cases hremoves : rule.removes with
  | true => exact Chain.meets_run (fun _ => monotoneOn_of_mem_rules hlimits) hrule hremoves
  | false => exact meets_sort hrule hremoves false candidates

/-- A plan that asks for something of every kind. -/
private def asksForAll : Plan :=
  { Plan.new false with
    groupings := [⟨0.68, 3⟩], maxItineraries := 2, transitLimit := some ⟨600.0, 2.0⟩,
    streetOnlyLimit := some ⟨300.0, 1.5⟩, latestDeparture := some (.ofMinute 540),
    pruning := [.known 3], minCycling := some 250.0, parkAndRide := true, onDemand := true }

/-- A bicycle to the stop and a bus on demand, a dear bus, a walk and one more bus. -/
private def toThirdStop : List Candidate :=
  [(Candidate.ofLegs 0
        [{ Leg.onDay .bicycle (.inRow 0) (.inRow 1) 480 490 with distance := 900.0 },
          { Leg.onDay .bus (.inRow 1) (.inRow 2) 495 510 with flexible := true }]
        (by decide) (by decide)).costing 900,
    (Candidate.ofLeg 1 (.onDay .bus (.inRow 0) (.inRow 2) 490 505)).costing 2500,
    (Candidate.ofLeg 2 (.onDay .walk (.inRow 0) (.inRow 2) 480 530)).costing 1200,
    (Candidate.ofLeg 3 (.onDay .bus (.inRow 0) (.inRow 2) 495 520)).costing 1300]

/-- What is shown of four ways to the third stop is all that was asked for. -/
theorem toThirdStop_ensured : asksForAll.build = .ok asksForAll.chain ∧
    asksForAll.debug = false ∧
    (∀ limit, limit ∈ asksForAll.transitLimit ∨ limit ∈ asksForAll.streetOnlyLimit →
      limit.MonotoneOn (toThirdStop.map fun c => c.cost)) ∧
    asksForAll.Ensures toThirdStop (asksForAll.chain.run toThirdStop).candidates := by
  have hbuild : asksForAll.build = .ok asksForAll.chain := build_eq_ok (by decide +kernel)
  have hlimits : ∀ limit, limit ∈ asksForAll.transitLimit ∨
      limit ∈ asksForAll.streetOnlyLimit →
        limit.MonotoneOn (toThirdStop.map fun c => c.cost) := by
    rintro limit (hlimit | hlimit)
    all_goals
      obtain rfl := Option.some.inj hlimit
      decide +kernel
  exact ⟨hbuild, rfl, hlimits, ensures_run hbuild rfl hlimits⟩

end JourneyPlanner.Selection.Plan
