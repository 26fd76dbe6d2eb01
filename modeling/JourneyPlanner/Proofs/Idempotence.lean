import JourneyPlanner.Proofs.Guarantees
import JourneyPlanner.Proofs.Tagging

/-!
# Chains that are applied again

What a chain leaves meets each of its rules: a rule's outcome does when the rule has been
applied, and the later rules only drop more of it or sort it. The last rule sorts. So a
chain that is applied again finds nothing to change, and a chain that tags finds nothing
more to tag.
-/

namespace JourneyPlanner.Selection

/-- A limit that keeps the order of some costs keeps that of fewer. -/
theorem Rule.MonotoneOn.of_subset {rule : Rule} {costs fewer : List Int}
    (h : rule.MonotoneOn costs) (hfewer : fewer ⊆ costs) : rule.MonotoneOn fewer := by
  cases rule with
  | transitCost | streetOnlyCost =>
    exact fun best hbest higher hhigher cost hcost =>
      h best (hfewer hbest) higher (hfewer hhigher) cost (hfewer hcost)
  | _ => trivial

/-- A rule leaves some of the candidates, in some order. -/
theorem Rule.apply_subperm (rule : Rule) (candidates : List Candidate) :
    (rule.apply candidates).Subperm candidates := by
  by_cases hremoves : rule.removes = true
  · exact (apply_sublist hremoves candidates).subperm
  · obtain ⟨arriveBy, rfl⟩ := eq_sort_of_not_removes (Bool.not_eq_true _ ▸ hremoves)
    exact (sortForShow_perm arriveBy candidates).subperm

/-- A step that tags changes nothing if its rule ensures already what it should of the
candidates without a notice. -/
theorem tagRejected_eq_self {rule : Rule} {candidates : List Candidate}
    (h : rule.Meets (unmarked candidates)) : tagRejected rule candidates = candidates := by
  unfold tagRejected
  rw [h.apply_eq_self]
  refine (List.map_congr_left fun c hc => if_neg ?_).trans (List.map_id candidates)
  intro hrejected
  obtain ⟨hfresh, hlost⟩ := Bool.and_eq_true_iff.1 hrejected
  have hmem : c ∈ unmarked candidates := List.mem_filter.2 ⟨hc, hfresh⟩
  simp [List.mem_map_of_mem hmem] at hlost

namespace Chain

/-- The rules of a chain are applied one part after the other. -/
theorem run_append (chain more : Chain) (candidates : List Candidate) :
    (run (chain ++ more) candidates).candidates =
      (run more (run chain candidates).candidates).candidates := by
  induction chain generalizing candidates with
  | nil => rfl
  | cons step rest ih => exact ih (step.apply candidates)

/-- A chain that drops leaves some of the candidates, in some order. -/
theorem run_subperm (rules : List Rule) (candidates : List Candidate) :
    ((ofRules false rules).run candidates).candidates.Subperm candidates := by
  induction rules generalizing candidates with
  | nil => exact List.Subperm.refl candidates
  | cons rule rules ih => exact (ih (rule.apply candidates)).trans (rule.apply_subperm candidates)

/-- What a chain that drops leaves is part of what each of its rules has made of some of the
candidates. -/
theorem exists_run_subperm_apply {rules : List Rule} {rule : Rule} (hrule : rule ∈ rules)
    (candidates : List Candidate) :
    ∃ seen, seen.Subperm candidates ∧
      ((ofRules false rules).run candidates).candidates.Subperm (rule.apply seen) := by
  induction rules generalizing candidates with
  | nil => cases hrule
  | cons first rules ih =>
    rcases List.mem_cons.1 hrule with rfl | hrule
    · exact ⟨candidates, List.Subperm.refl candidates, run_subperm rules _⟩
    · obtain ⟨seen, hseen, hleft⟩ := ih hrule (first.apply candidates)
      exact ⟨seen, hseen.trans (first.apply_subperm candidates), hleft⟩

/-- What a chain that drops leaves is as each of its rules that may drop candidates ensures. -/
theorem meets_run {rules : List Rule} {candidates : List Candidate}
    (hmono : ∀ rule ∈ rules, rule.MonotoneOn (candidates.map fun c => c.cost)) {rule : Rule}
    (hrule : rule ∈ rules) (hremoves : rule.removes = true) :
    rule.Meets ((ofRules false rules).run candidates).candidates := by
  obtain ⟨seen, hseen, hleft⟩ := exists_run_subperm_apply hrule candidates
  have hcosts := List.map_subset (fun c : Candidate => c.cost) hseen.subset
  exact (rule.meets_apply ((hmono rule hrule).of_subset hcosts)).of_subperm hremoves hleft

/-- A chain that drops changes nothing that is as each of its rules ensures. -/
theorem run_eq_self {rules : List Rule} {candidates : List Candidate}
    (h : ∀ rule ∈ rules, rule.Meets candidates) :
    ((ofRules false rules).run candidates).candidates = candidates := by
  induction rules with
  | nil => rfl
  | cons rule rules ih =>
    obtain ⟨hrule, hrest⟩ := List.forall_mem_cons.1 h
    have happly : Step.apply ⟨rule, false⟩ candidates = candidates := hrule.apply_eq_self
    change ((ofRules false rules).run (Step.apply ⟨rule, false⟩ candidates)).candidates = candidates
    rw [happly]
    exact ih hrest

/-- A chain that tags changes nothing that is sorted and whose candidates without a notice are
as each of its rules ensures. -/
theorem run_tagging_eq_self {rules : List Rule} {candidates : List Candidate}
    (hdrop : ∀ rule ∈ rules, rule.removes = true → rule.Meets (unmarked candidates))
    (hsort : ∀ rule ∈ rules, rule.removes = false → rule.Meets candidates) :
    ((ofRules true rules).run candidates).candidates = candidates := by
  induction rules with
  | nil => rfl
  | cons rule rules ih =>
    obtain ⟨hdropFirst, hdropRest⟩ := List.forall_mem_cons.1 hdrop
    obtain ⟨hsortFirst, hsortRest⟩ := List.forall_mem_cons.1 hsort
    have happly : Step.apply ⟨rule, true⟩ candidates = candidates := by
      by_cases hremoves : rule.removes = true
      · simpa [Step.apply, hremoves] using tagRejected_eq_self (hdropFirst hremoves)
      · have hsorts : rule.removes = false := by simpa using hremoves
        simpa [Step.apply, hsorts] using (hsortFirst hsorts).apply_eq_self
    change ((ofRules true rules).run (Step.apply ⟨rule, true⟩ candidates)).candidates = candidates
    rw [happly]
    exact ih hdropRest hsortRest

/-- What a chain leaves that sorts at its end is sorted. -/
theorem meets_run_sort (tags : Bool) (rules : List Rule) (arriveBy : Bool)
    (candidates : List Candidate) :
    (Rule.sort arriveBy).Meets
      ((ofRules tags (rules ++ [.sort arriveBy])).run candidates).candidates := by
  have hlast : ((ofRules tags (rules ++ [.sort arriveBy])).run candidates).candidates =
      (Rule.sort arriveBy).apply ((ofRules tags rules).run candidates).candidates := by
    unfold ofRules
    rw [List.map_append, run_append]
    simp [run, Step.apply, Rule.removes]
  rw [hlast]
  exact Rule.meets_apply (.sort arriveBy) trivial

end Chain

namespace Plan

variable {plan : Plan} {rule : Rule} {candidates : List Candidate}

/-- A rule of a plan that drops no candidates sorts in the order of the plan. -/
theorem eq_sort_of_mem_rules (hrule : rule ∈ plan.rules) (hsorts : rule.removes = false) :
    rule = .sort plan.arriveBy := by
  obtain ⟨arriveBy, rfl⟩ := Rule.eq_sort_of_not_removes hsorts
  have hplaces : 0 < plan.maxStreetOnly ∧ arriveBy = plan.arriveBy ∨
      0 < plan.maxItineraries ∧ arriveBy = plan.arriveBy ∨ arriveBy = plan.arriveBy := by
    simpa [rules, groupingRules, costRules, numberRules, absoluteRules] using hrule
  rcases hplaces with ⟨-, rfl⟩ | ⟨-, rfl⟩ | rfl
  all_goals rfl

/-- The limits on cost of a plan's rules are those of the plan. -/
theorem monotoneOn_of_mem_rules {costs : List Int}
    (hlimits : ∀ limit, limit ∈ plan.transitLimit ∨ limit ∈ plan.streetOnlyLimit →
      limit.MonotoneOn costs) (hrule : rule ∈ plan.rules) : rule.MonotoneOn costs := by
  cases rule with
  | transitCost limit =>
    refine hlimits limit (Or.inl ?_)
    simpa [rules, groupingRules, costRules, numberRules, absoluteRules] using hrule
  | streetOnlyCost limit =>
    refine hlimits limit (Or.inr ?_)
    simpa [rules, groupingRules, costRules, numberRules, absoluteRules] using hrule
  | _ => trivial

/-- The chain of a plan leaves, whether it tags or drops, a list in the order of the plan. -/
theorem meets_sort (hrule : rule ∈ plan.rules) (hsorts : rule.removes = false) (tags : Bool)
    (candidates : List Candidate) :
    rule.Meets ((Chain.ofRules tags plan.rules).run candidates).candidates := by
  rw [eq_sort_of_mem_rules hrule hsorts]
  exact Chain.meets_run_sort tags _ plan.arriveBy candidates

/-- The chain of a plan that drops changes nothing that is as each of its rules ensures. -/
theorem run_chain_eq_self (hdrops : plan.debug = false)
    (hmeets : ∀ rule ∈ plan.rules, rule.Meets candidates) :
    (plan.chain.run candidates).candidates = candidates := by
  change ((Chain.ofRules plan.debug plan.rules).run candidates).candidates = candidates
  rw [hdrops]
  exact Chain.run_eq_self hmeets

/-- The chain of a plan that has been applied once changes nothing when it is applied again. -/
theorem run_idempotent {chain : Chain} (hbuild : plan.build = .ok chain)
    (hlimits : ∀ limit, limit ∈ plan.transitLimit ∨ limit ∈ plan.streetOnlyLimit →
      limit.MonotoneOn (candidates.map fun c => c.cost))
    (hdebug : plan.debug = true → (candidates.map Candidate.identity).Nodup ∧
      ∀ c ∈ candidates, c.notices = []) :
    (chain.run (chain.run candidates).candidates).candidates =
      (chain.run candidates).candidates := by
  rw [eq_ofRules_of_build hbuild]
  have hdropped : ∀ rule ∈ plan.rules, rule.removes = true →
      rule.Meets ((Chain.ofRules false plan.rules).run candidates).candidates :=
    fun rule hrule => Chain.meets_run (fun _ => monotoneOn_of_mem_rules hlimits) hrule
  cases htags : plan.debug with
  | false =>
    refine Chain.run_eq_self fun rule hrule => ?_
    cases hremoves : rule.removes with
    | true => exact hdropped rule hrule hremoves
    | false => exact meets_sort hrule hremoves false candidates
  | true =>
    obtain ⟨hdistinct, hfresh⟩ := hdebug htags
    have hunmarked := Chain.unmarked_run plan.rules hdistinct
    rw [unmarked_eq_self hfresh] at hunmarked
    refine Chain.run_tagging_eq_self (fun rule hrule hremoves => ?_)
      fun rule hrule hsorts => meets_sort hrule hsorts true candidates
    rw [hunmarked]
    exact hdropped rule hrule hremoves

/-- A plan with rules of every kind that compares candidates, which tags what it rejects. -/
private def comparesAll : Plan :=
  { Plan.new false with
    groupings := [⟨0.85, 5⟩, ⟨0.68, 3⟩], debug := true, maxItineraries := 2,
    transitLimit := some ⟨600.0, 2.0⟩, streetOnlyLimit := some ⟨300.0, 1.5⟩ }

/-- A cheap bus, a much dearer one, a walk and one more bus. -/
private def ofManyCosts : List Candidate :=
  [(Candidate.ofLeg 0 (.onDay .bus (.inRow 0) (.inRow 1) 480 500)).costing 900,
    (Candidate.ofLeg 1 (.onDay .bus (.inRow 0) (.inRow 1) 490 505)).costing 2500,
    (Candidate.ofLeg 2 (.onDay .walk (.inRow 0) (.inRow 1) 480 510)).costing 1200,
    (Candidate.ofLeg 3 (.onDay .bus (.inRow 0) (.inRow 1) 495 520)).costing 1300]

/-- Candidates of many costs, once tagged, are not tagged again. -/
theorem ofManyCosts_tagged_once : comparesAll.build = .ok comparesAll.chain ∧
    (∀ limit, limit ∈ comparesAll.transitLimit ∨ limit ∈ comparesAll.streetOnlyLimit →
      limit.MonotoneOn (ofManyCosts.map fun c => c.cost)) ∧
    (comparesAll.debug = true → (ofManyCosts.map Candidate.identity).Nodup ∧
      ∀ c ∈ ofManyCosts, c.notices = []) ∧
    (comparesAll.chain.run (comparesAll.chain.run ofManyCosts).candidates).candidates =
      (comparesAll.chain.run ofManyCosts).candidates := by
  have hbuild : comparesAll.build = .ok comparesAll.chain := build_eq_ok (by decide +kernel)
  have hlimits : ∀ limit, limit ∈ comparesAll.transitLimit ∨
      limit ∈ comparesAll.streetOnlyLimit →
        limit.MonotoneOn (ofManyCosts.map fun c => c.cost) := by
    rintro limit (hlimit | hlimit)
    all_goals
      obtain rfl := Option.some.inj hlimit
      decide +kernel
  have hdebug : comparesAll.debug = true → (ofManyCosts.map Candidate.identity).Nodup ∧
      ∀ c ∈ ofManyCosts, c.notices = [] := by decide
  exact ⟨hbuild, hlimits, hdebug, run_idempotent hbuild hlimits hdebug⟩

end Plan

end JourneyPlanner.Selection
