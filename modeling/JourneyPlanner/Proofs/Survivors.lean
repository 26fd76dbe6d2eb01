import JourneyPlanner.Proofs.CheapestOfGroups
import JourneyPlanner.Proofs.Checks
import JourneyPlanner.Proofs.Ensured
import JourneyPlanner.Proofs.UsableLimits

/-!
# What survives every rule

Apart from the rules that judge each candidate on its own, a rule drops a candidate for
something else in the list. Each such rule leaves some candidate of a list that is not empty: a
limit on costs the candidates it is taken at, the comparison with the street what stays on the
street, a grouping the first of each group, a limit on numbers the first of the list. Which one
survives differs from rule to rule, so the rules are not followed for one candidate but for the
list, of which all that has to be kept is where its costs come from.
-/

namespace JourneyPlanner

namespace Selection

section Limits

variable {α : Type} [Quantity α] {limit : LinearFunction α} {candidates : List Candidate}
  {c : Candidate}

/-- Transit that costs no more than any other transit is within a limit that bounds its cost. -/
theorem mem_withinTransitLimit (hc : c ∈ candidates)
    (hleast : ∀ d ∈ candidates, ridesTransit d = true → c.cost ≤ d.cost)
    (hallowed : limit.allows c.cost c.cost = true) : c ∈ withinTransitLimit limit candidates := by
  unfold withinTransitLimit
  split
  · exact hc
  · rename_i best hbest
    refine List.mem_filter.2 ⟨hc, ?_⟩
    by_cases hride : ridesTransit c = true
    · obtain ⟨⟨d, hd, hdRide, rfl⟩, hbelow⟩ := lowestCost?_eq_some_iff.1 hbest
      rw [Int.le_antisymm (hbelow c hc hride) (hleast d hd hdRide), hallowed, Bool.or_true]
    · rw [ridesTransit, Bool.not_eq_true', Bool.not_eq_false] at hride
      rw [hride, Bool.true_or]

/-- What costs no more than any other candidate is within a limit that bounds its cost. -/
theorem mem_withinStreetOnlyLimit (hc : c ∈ candidates)
    (hleast : ∀ d ∈ candidates, c.cost ≤ d.cost) (hallowed : limit.allows c.cost c.cost = true) :
    c ∈ withinStreetOnlyLimit limit candidates := by
  unfold withinStreetOnlyLimit
  split
  · exact hc
  · rename_i best hbest
    obtain ⟨⟨d, hd, -, rfl⟩, hbelow⟩ := lowestCost?_eq_some_iff.1 hbest
    refine List.mem_filter.2 ⟨hc, ?_⟩
    rw [Int.le_antisymm (hbelow c hc rfl) (hleast d hd), hallowed, Bool.or_true]

/-- Some candidate of a list has the lowest cost of those with a property, if there are any. -/
theorem exists_cheapest {p : Candidate → Bool} (hc : c ∈ candidates) (hp : p c = true) :
    ∃ d ∈ candidates, p d = true ∧ ∀ e ∈ candidates, p e = true → d.cost ≤ e.cost := by
  cases hlowest : lowestCost? p candidates with
  | none =>
    rw [lowestCost?_eq_none_iff.1 hlowest c hc] at hp
    cases hp
  | some best =>
    obtain ⟨⟨d, hd, hpd, rfl⟩, hleast⟩ := lowestCost?_eq_some_iff.1 hlowest
    exact ⟨d, hd, hpd, hleast⟩

end Limits

/-- A grouping leaves the first of each group. -/
theorem cheapestOfSimilar_ne_nil (ridesOf : Candidate → List Ride) (wanted : Nat)
    {candidates : List Candidate} (hne : candidates ≠ []) :
    cheapestOfSimilar ridesOf wanted candidates ≠ [] := by
  obtain ⟨c, rest, rfl⟩ := List.exists_cons_of_ne_nil hne
  have hentry : (c, 0) ∈ (c :: rest).zipIdx := by simp [List.zipIdx_cons]
  obtain ⟨first, -, hkept, -⟩ := exists_first ridesOf wanted hentry
  rw [cheapestOfSimilar_eq_cheapestEntries]
  exact List.ne_nil_of_mem (List.mem_map_of_mem hkept)

/-- A limit on the number of street-only candidates leaves the first of all candidates. -/
theorem takeStreetOnly_ne_nil {limit : Nat} (hlimit : 0 < limit) {candidates : List Candidate}
    (hne : candidates ≠ []) : takeStreetOnly limit candidates ≠ [] := by
  fun_cases takeStreetOnly limit candidates with
  | case1 => exact absurd rfl hne
  | case2 => exact absurd hlimit (Nat.lt_irrefl 0)
  | case3 => exact List.cons_ne_nil _ _
  | case4 => exact List.cons_ne_nil _ _

namespace Rule

/-- What a rule needs of some costs to leave any candidates: room for one, and a limit that
allows what it is taken at. A rule that judges each candidate on its own can drop all. -/
def Spares (costs : List Int) : Rule → Prop
  | atMost _ limit _ | streetOnlyAtMost _ limit => 0 < limit
  | transitCost limit | streetOnlyCost limit => ∀ cost ∈ costs, limit.allows cost cost = true
  | departsBy _ | isShown _ | cyclesFurtherThan _ | leavesBicycle | arrivesOnDemand _ => False
  | sort _ | noDearerThanStreetOnly | cheapestOfSimilar _ _ => True

variable {rule : Rule} {costs : List Int} {candidates : List Candidate}

/-- What a rule needs of some costs it needs of fewer. -/
theorem Spares.of_subset {fewer : List Int} (h : rule.Spares costs) (hfewer : fewer ⊆ costs) :
    rule.Spares fewer := by
  cases rule with
  | transitCost | streetOnlyCost => exact fun cost hcost => h cost (hfewer hcost)
  | _ => exact h

/-- A rule that only drops candidates for something else in the list does not drop all. -/
theorem apply_ne_nil (h : rule.Spares (candidates.map fun c => c.cost)) (hne : candidates ≠ []) :
    rule.apply candidates ≠ [] := by
  obtain ⟨c, hc⟩ := List.exists_mem_of_ne_nil candidates hne
  cases rule with
  | sort arriveBy =>
    exact List.ne_nil_of_mem ((sortForShow_perm arriveBy candidates).mem_iff.2 hc)
  | atMost label limit reports =>
    exact fun hnil => (List.take_eq_nil_iff.1 hnil).elim (Nat.ne_of_gt h) hne
  | streetOnlyAtMost label limit => exact takeStreetOnly_ne_nil h hne
  | transitCost limit =>
    by_cases hride : ∃ d ∈ candidates, ridesTransit d = true
    · obtain ⟨d, hd, hdRide⟩ := hride
      obtain ⟨e, he, -, hleast⟩ := exists_cheapest hd hdRide
      exact List.ne_nil_of_mem
        (mem_withinTransitLimit he hleast (h e.cost (List.mem_map_of_mem he)))
    · -- Without transit there is no limit.
      have hleast : ∀ d ∈ candidates, ridesTransit d = true → c.cost ≤ d.cost :=
        fun d hd hdRide => absurd ⟨d, hd, hdRide⟩ hride
      exact List.ne_nil_of_mem
        (mem_withinTransitLimit hc hleast (h c.cost (List.mem_map_of_mem hc)))
  | streetOnlyCost limit =>
    obtain ⟨e, he, -, hleast⟩ := exists_cheapest (p := fun _ => true) hc rfl
    exact List.ne_nil_of_mem (mem_withinStreetOnlyLimit he (fun d hd => hleast d hd rfl)
      (h e.cost (List.mem_map_of_mem he)))
  | noDearerThanStreetOnly =>
    change withinStreetOnlyCost candidates ≠ []
    unfold withinStreetOnlyCost
    split
    · exact hne
    · rename_i best hbest
      obtain ⟨⟨street, hstreet, honly, -⟩, -⟩ := lowestCost?_eq_some_iff.1 hbest
      exact List.ne_nil_of_mem (List.mem_filter.2 ⟨hstreet, by rw [honly, Bool.true_or]⟩)
  | departsBy | isShown | cyclesFurtherThan | leavesBicycle | arrivesOnDemand => exact h.elim
  | cheapestOfSimilar share wanted => exact cheapestOfSimilar_ne_nil _ wanted hne

end Rule

/-- A chain of rules that drop candidates for something else in the list does not drop all. -/
theorem Chain.run_ne_nil {rules : List Rule} {candidates : List Candidate}
    (h : ∀ rule ∈ rules, rule.Spares (candidates.map fun c => c.cost)) (hne : candidates ≠ []) :
    ((ofRules false rules).run candidates).candidates ≠ [] := by
  induction rules generalizing candidates with
  | nil => exact hne
  | cons rule rest ih =>
    obtain ⟨hrule, hrest⟩ := List.forall_mem_cons.1 h
    have hstep : Step.apply ⟨rule, false⟩ candidates = rule.apply candidates := rfl
    have hcosts : (rule.apply candidates).map (fun c => c.cost) ⊆
        candidates.map fun c => c.cost :=
      List.map_subset _ (rule.apply_subperm candidates).subset
    simp only [ofRules, List.map_cons, run, hstep]
    exact ih (fun other hother => (hrest other hother).of_subset hcosts)
      (Rule.apply_ne_nil hrule hne)

namespace Plan

/-- A plan has no rule that judges each candidate on its own. -/
structure Relative (plan : Plan) : Prop where
  /-- No departure is too late. -/
  latestDeparture : plan.latestDeparture = none
  /-- Nothing only serves to bound a search. -/
  pruning : plan.pruning = []
  /-- No distance has to be cycled. -/
  minCycling : plan.minCycling = none
  /-- No bicycle has to be left. -/
  parkAndRide : plan.parkAndRide = false
  /-- Nothing has to run on demand. -/
  onDemand : plan.onDemand = false

variable {plan : Plan} {rule : Rule} {costs : List Int}

/-- Every rule of a plan that has none for each candidate on its own spares some candidate, if
the limits bound the costs from above. -/
theorem Relative.spares (hrelative : plan.Relative)
    (hlimits : ∀ limit, limit ∈ plan.transitLimit ∨ limit ∈ plan.streetOnlyLimit →
      ∀ cost ∈ costs, limit.allows cost cost = true)
    (hrule : rule ∈ plan.rules) : rule.Spares costs := by
  rcases mem_rules_iff.1 hrule with hgroup | hcost | hnumber | habsolute | rfl
  · obtain ⟨grouping, -, rfl⟩ := List.mem_map.1 hgroup
    trivial
  · rcases List.mem_append.1 hcost with hcost | hcost
    · obtain ⟨limit, hlimit, rfl⟩ := Option.map_eq_some_iff.1 (Option.mem_toList.1 hcost)
      exact hlimits limit (Or.inl hlimit)
    · obtain ⟨limit, hlimit, rfl⟩ := Option.map_eq_some_iff.1 (Option.mem_toList.1 hcost)
      exact hlimits limit (Or.inr hlimit)
  · unfold numberRules at hnumber
    rcases List.mem_append.1 hnumber with hnumber | hnumber
    all_goals
      split_ifs at hnumber with hlimited
      · rcases List.mem_cons.1 hnumber with rfl | hnumber
        · trivial
        · obtain rfl := List.mem_singleton.1 hnumber
          exact Int.pos_iff_toNat_pos.1 hlimited
      · cases hnumber
  · unfold absoluteRules at habsolute
    rw [hrelative.latestDeparture, hrelative.pruning, hrelative.minCycling,
      hrelative.parkAndRide, hrelative.onDemand] at habsolute
    cases hbound : plan.boundByStreetOnly with
    | false => simp [hbound] at habsolute
    | true =>
      obtain rfl : rule = .noDearerThanStreetOnly := by simpa [hbound] using habsolute
      trivial
  · trivial

/-- A limit of a plan that could be built allows every cost that is not negative, if it was
made. -/
theorem allows_of_build {chain : Chain} (hbuild : plan.build = .ok chain) {limit : CostLimit}
    (hlimit : limit ∈ plan.transitLimit ∨ limit ∈ plan.streetOnlyLimit) (hmade : limit.Made)
    (hcosts : ∀ cost ∈ costs, 0 ≤ cost) : ∀ cost ∈ costs, limit.allows cost cost = true := by
  obtain ⟨_, hcheck, -⟩ := map_eq_ok_iff.1 hbuild
  have haccepted := check_eq_ok_iff.1 hcheck
  have hpassed : checkCost (some limit) = .ok () := by
    rcases hlimit with hlimit | hlimit
    · exact Option.mem_def.1 hlimit ▸ haccepted.transitLimit
    · exact Option.mem_def.1 hlimit ▸ haccepted.streetOnlyLimit
  exact fun cost hcost => hmade.allows_self (ok_of_mapError hpassed) (hcosts cost hcost)

/-- The chain of a plan that drops candidates, none of them on its own merits, leaves some
candidate of a list that is not empty, whatever groupings, limits and order the plan has. -/
theorem run_ne_nil_of_relative {chain : Chain} (hbuild : plan.build = .ok chain)
    (hdrops : plan.debug = false) (hrelative : plan.Relative)
    (hmade : ∀ limit, limit ∈ plan.transitLimit ∨ limit ∈ plan.streetOnlyLimit → limit.Made)
    {candidates : List Candidate} (hcosts : ∀ c ∈ candidates, 0 ≤ c.cost) (hne : candidates ≠ []) :
    (chain.run candidates).candidates ≠ [] := by
  have hpositive : ∀ cost ∈ candidates.map fun c => c.cost, 0 ≤ cost := by
    simpa using hcosts
  have hallowed := fun limit hlimit =>
    allows_of_build hbuild hlimit (hmade limit hlimit) hpositive
  rw [eq_ofRules_of_build hbuild, hdrops]
  exact Chain.run_ne_nil (fun rule hrule => hrelative.spares hallowed hrule) hne

/-- A plan that keeps one of each group, few of many costs and one in all. -/
private def keepsOne : Plan :=
  { Plan.new false with
    groupings := [⟨0.68, 1⟩], maxItineraries := 1, transitLimit := some ⟨600.0, 2.0⟩,
    streetOnlyLimit := some ⟨0.0, 1.0⟩ }

/-- Three buses and a walk. The second bus arrives first, but is like the first one and dearer; the
walk is the best without transit, but too dear; the first bus is the cheapest of all, but arrives
after the last one. -/
private def noneBestInAll : List Candidate :=
  [(Candidate.ofLeg 0 (.onDay .bus (.inRow 0) (.inRow 1) 480 540)).costing 500,
    (Candidate.ofLeg 1 (.onDay .bus (.inRow 0) (.inRow 1) 480 500)).costing 900,
    (Candidate.ofLeg 2 (.onDay .walk (.inRow 0) (.inRow 1) 480 530)).costing 1200,
    (Candidate.ofLeg 3
      { Leg.onDay .bus (.inRow 0) (.inRow 1) 480 510 with trip := some "T" }).costing 600]

/-- One of the four is left. -/
theorem noneBestInAll_spared : keepsOne.build = .ok keepsOne.chain ∧ keepsOne.debug = false ∧
    keepsOne.Relative ∧
    (∀ limit, limit ∈ keepsOne.transitLimit ∨ limit ∈ keepsOne.streetOnlyLimit → limit.Made) ∧
    (∀ c ∈ noneBestInAll, 0 ≤ c.cost) ∧ noneBestInAll ≠ [] ∧
    (keepsOne.chain.run noneBestInAll).candidates ≠ [] := by
  have hbuild : keepsOne.build = .ok keepsOne.chain := build_eq_ok (by decide +kernel)
  have hrelative : keepsOne.Relative := ⟨rfl, rfl, rfl, rfl, rfl⟩
  have hmade : ∀ limit, limit ∈ keepsOne.transitLimit ∨ limit ∈ keepsOne.streetOnlyLimit →
      limit.Made := by
    rintro limit (hlimit | hlimit)
    all_goals
      obtain rfl := Option.some.inj hlimit
      exact CostLimit.made_iff_isFinite.2 ⟨by decide +kernel, by decide +kernel⟩
  have hcosts : ∀ c ∈ noneBestInAll, 0 ≤ c.cost := by decide
  have hne : noneBestInAll ≠ [] := List.cons_ne_nil _ _
  exact ⟨hbuild, rfl, hrelative, hmade, hcosts, hne,
    run_ne_nil_of_relative hbuild rfl hrelative hmade hcosts hne⟩

end Plan

end Selection

end JourneyPlanner
