import JourneyPlanner.Proofs.CheapestOfGroups
import JourneyPlanner.Proofs.Idempotence

/-!
# The order candidates come in

A chain makes the same of candidates in whatever order they come, if they differ in cost.
The rules that look at places in the list stand behind a sort, which leaves one order only.
The rules in front of it judge a candidate by its cost and by what is in the list, so they
keep the same candidates of a list that has been rearranged; of a group of similar ones the
cheapest are those with few cheaper ones beside them.
-/

namespace JourneyPlanner.Selection

/-! ### Similar candidates of different costs -/

section Similar

variable {ridesOf : Candidate → List Ride} {wanted : Nat} {candidates others : List Candidate}

/-- Whether a candidate is among the cheapest of those it is similar to. -/
def isCheapOfSimilar (ridesOf : Candidate → List Ride) (wanted : Nat)
    (candidates : List Candidate) (c : Candidate) : Bool :=
  decide (rideSet ridesOf c = ∅) ||
    decide (candidates.countP (fun d => rideSet ridesOf d = rideSet ridesOf c ∧ d.cost < c.cost) <
      keptPerGroup wanted (groupsBy ridesOf candidates).length)

/-- Of candidates of different costs, those that come before an entry of their group are the
cheaper ones of its kind. -/
theorem countP_groupOf_eq (hdistinct : (candidates.map fun c => c.cost).Nodup)
    {entry : Candidate × Nat} (hentry : entry ∈ candidates.zipIdx)
    (hsome : rideSet ridesOf entry.1 ≠ ∅) :
    (groupOf ridesOf candidates entry).countP (fun other => ComesBefore other entry) =
      candidates.countP fun d =>
        rideSet ridesOf d = rideSet ridesOf entry.1 ∧ d.cost < entry.1.cost := by
  have hfst : candidates.zipIdx.map Prod.fst = candidates := List.zipIdx_map_fst 0 _
  have hcosts : (candidates.zipIdx.map fun other => other.1.cost).Nodup := by
    rwa [← hfst, List.map_map] at hdistinct
  rw [groupOf, List.countP_filter]
  conv_rhs => rw [← hfst, List.countP_map]
  refine List.countP_congr fun other hother => ?_
  have hbefore : ComesBefore other entry ↔ other.1.cost < entry.1.cost := by
    refine or_iff_left ?_
    rintro ⟨hcost, hposition⟩
    rw [List.inj_on_of_nodup_map hcosts hother hentry hcost] at hposition
    exact lt_irrefl _ hposition
  have htogether : Together ridesOf other entry ↔
      rideSet ridesOf other.1 = rideSet ridesOf entry.1 :=
    and_iff_left_of_imp fun hsame hnone => absurd (hsame.symm.trans hnone) hsome
  simp only [Function.comp_apply, Bool.and_eq_true, decide_eq_true_eq, hbefore, htogether]
  exact and_comm

/-- Of candidates of different costs those are kept that are among the cheapest of their
kind. -/
theorem cheapestOfSimilar_eq_filter (hdistinct : (candidates.map fun c => c.cost).Nodup) :
    cheapestOfSimilar ridesOf wanted candidates =
      candidates.filter (isCheapOfSimilar ridesOf wanted candidates) := by
  have hfst : candidates.zipIdx.map Prod.fst = candidates := List.zipIdx_map_fst 0 _
  have hkept : ∀ entry ∈ candidates.zipIdx,
      decide ((groupOf ridesOf candidates entry).countP (fun other => ComesBefore other entry) <
        keptOfEach wanted (groupCount ridesOf candidates)) =
        isCheapOfSimilar ridesOf wanted candidates entry.1 := by
    intro entry hentry
    rw [Bool.eq_iff_iff, decide_eq_true_iff, isCheapOfSimilar, Bool.or_eq_true,
      decide_eq_true_iff, decide_eq_true_iff]
    by_cases hnone : rideSet ridesOf entry.1 = ∅
    · have hcheap : entry ∈ cheapestEntries ridesOf wanted candidates :=
        mem_cheapestEntries_of_rides_eq_nil hentry ((List.toFinset_eq_empty_iff _).1 hnone)
      exact iff_of_true (mem_cheapestEntries_iff.1 hcheap).2 (Or.inl hnone)
    · rw [countP_groupOf_eq hdistinct hentry hnone, keptPerGroup_groupsBy ridesOf wanted hentry,
        or_iff_right hnone]
  rw [cheapestOfSimilar_eq_cheapestEntries, cheapestEntries, List.filter_congr hkept]
  conv_rhs => rw [← hfst, List.filter_map]
  rw [hfst]
  rfl

/-- Which candidates are among the cheapest of their kind does not depend on their order. -/
theorem isCheapOfSimilar_perm (hperm : candidates.Perm others) :
    isCheapOfSimilar ridesOf wanted candidates = isCheapOfSimilar ridesOf wanted others := by
  funext c
  have hgroups : (groupsBy ridesOf candidates).length = (groupsBy ridesOf others).length :=
    Nat.le_antisymm (length_groupsBy_mono hperm.subperm) (length_groupsBy_mono hperm.symm.subperm)
  unfold isCheapOfSimilar
  rw [hperm.countP_eq, hgroups]

end Similar

/-! ### One rule on two orders of a list -/

section Rules

variable {candidates others : List Candidate}

/-- The lowest cost does not depend on the order of candidates. -/
theorem lowestCost?_perm {p : Candidate → Bool} (hperm : candidates.Perm others) :
    lowestCost? p candidates = lowestCost? p others := by
  ext best
  simp only [lowestCost?_eq_some_iff, hperm.mem_iff]

/-- What is kept within what the lowest cost allows does not depend on the order of
candidates. -/
theorem lowestCost_filter_perm {p : Candidate → Bool} {allowed : Int → Candidate → Bool}
    (hperm : candidates.Perm others) :
    (match lowestCost? p candidates with
      | none => candidates
      | some best => candidates.filter (allowed best)).Perm
    (match lowestCost? p others with
      | none => others
      | some best => others.filter (allowed best)) := by
  rw [lowestCost?_perm hperm]
  cases lowestCost? p others with
  | none => exact hperm
  | some best => exact hperm.filter _

/-- Sorting leaves one order of candidates of different costs. -/
theorem sortForShow_eq_of_perm (arriveBy : Bool)
    (hdistinct : (candidates.map fun c => c.cost).Nodup) (hperm : candidates.Perm others) :
    sortForShow arriveBy candidates = sortForShow arriveBy others := by
  have hsorted : ∀ items : List Candidate, (sortForShow arriveBy items).Pairwise
      fun a b => mayPrecede arriveBy a b = true :=
    List.pairwise_mergeSort (mayPrecede_trans arriveBy) (mayPrecede_total arriveBy)
  refine List.Perm.eq_of_pairwise (fun a b ha hb hab hba => ?_) (hsorted candidates)
    (hsorted others)
    ((sortForShow_perm arriveBy candidates).trans
      (hperm.trans (sortForShow_perm arriveBy others).symm))
  have hcost : a.cost = b.cost := by
    rw [mayPrecede_iff] at hab hba
    omega
  have ha' : a ∈ candidates := (sortForShow_perm arriveBy candidates).mem_iff.1 ha
  have hb' : b ∈ candidates := hperm.mem_iff.2 ((sortForShow_perm arriveBy others).mem_iff.1 hb)
  exact List.inj_on_of_nodup_map hdistinct ha' hb' hcost

namespace Rule

/-- Whether a rule looks at places in a list. -/
def looksAtPlaces : Rule → Bool
  | atMost _ _ _ => true
  | streetOnlyAtMost _ _ => true
  | _ => false

/-- A rule that does not look at places makes the same of two orders of candidates of
different costs, up to the order. -/
theorem apply_perm {rule : Rule} (hblind : rule.looksAtPlaces = false)
    (hdistinct : (candidates.map fun c => c.cost).Nodup) (hperm : candidates.Perm others) :
    (rule.apply candidates).Perm (rule.apply others) := by
  cases rule with
  | atMost | streetOnlyAtMost => cases hblind
  | sort arriveBy => exact List.Perm.of_eq (sortForShow_eq_of_perm arriveBy hdistinct hperm)
  | transitCost | streetOnlyCost | noDearerThanStreetOnly => exact lowestCost_filter_perm hperm
  | departsBy | isShown | cyclesFurtherThan | leavesBicycle | arrivesOnDemand =>
    exact hperm.filter _
  | cheapestOfSimilar share wanted =>
    have hdistinct' : (others.map fun c => c.cost).Nodup := (hperm.map _).nodup_iff.1 hdistinct
    change (Selection.cheapestOfSimilar _ wanted candidates).Perm
      (Selection.cheapestOfSimilar _ wanted others)
    rw [cheapestOfSimilar_eq_filter hdistinct, cheapestOfSimilar_eq_filter hdistinct',
      isCheapOfSimilar_perm hperm]
    exact hperm.filter _

/-- A rule that does not look at places reports nothing. -/
theorem reports_eq_false {rule : Rule} (hblind : rule.looksAtPlaces = false) :
    rule.reports = false := by
  cases rule with
  | atMost | streetOnlyAtMost => cases hblind
  | _ => rfl

end Rule

end Rules

namespace Step

variable {candidates others : List Candidate}

/-- Tagging leaves the same candidates, up to their order, if the rule keeps the same of
those without a notice. -/
theorem tagRejected_perm {rule : Rule} (hperm : candidates.Perm others)
    (hkept : (rule.apply (unmarked candidates)).Perm (rule.apply (unmarked others))) :
    (tagRejected rule candidates).Perm (tagRejected rule others) := by
  unfold tagRejected
  simp only [(hkept.map Candidate.identity).contains_eq]
  exact hperm.map _

/-- A step whose rule does not look at places makes the same of two orders of candidates of
different costs, up to the order. -/
theorem apply_perm (step : Step) (hblind : step.rule.looksAtPlaces = false)
    (hdistinct : (candidates.map fun c => c.cost).Nodup) (hperm : candidates.Perm others) :
    (step.apply candidates).Perm (step.apply others) := by
  unfold apply
  split_ifs
  · refine tagRejected_perm hperm (Rule.apply_perm hblind ?_ (hperm.filter _))
    exact hdistinct.sublist (List.filter_sublist.map _)
  · exact Rule.apply_perm hblind hdistinct hperm

/-- A step leaves candidates of different costs. -/
theorem distinctCosts_apply (step : Step) (hdistinct : (candidates.map fun c => c.cost).Nodup) :
    ((step.apply candidates).map fun c => c.cost).Nodup := by
  unfold apply
  split_ifs
  · have hsame : ((tagRejected step.rule candidates).map fun c => c.cost) =
        candidates.map fun c => c.cost := by
      unfold tagRejected
      rw [List.map_map]
      refine List.map_congr_left fun c _ => ?_
      simp only [Function.comp_apply]
      split_ifs
      · rfl
      · rfl
    rwa [hsame]
  · obtain ⟨some, hperm, hsub⟩ := step.rule.apply_subperm candidates
    exact (hperm.map _).nodup_iff.1 (hdistinct.sublist (hsub.map _))

end Step

/-- A chain whose first step to look at places stands behind a sort makes the same of two
orders of candidates of different costs, and reports the same. -/
theorem Chain.run_eq_of_perm (tags : Bool) {front : List Rule} (arriveBy : Bool)
    (back : List Rule) (hfront : ∀ rule ∈ front, rule.looksAtPlaces = false)
    {candidates others : List Candidate}
    (hdistinct : (candidates.map fun c => c.cost).Nodup) (hperm : candidates.Perm others) :
    (ofRules tags (front ++ .sort arriveBy :: back)).run candidates =
      (ofRules tags (front ++ .sort arriveBy :: back)).run others := by
  induction front generalizing candidates others with
  | nil =>
    have hsorted : Step.apply ⟨.sort arriveBy, tags⟩ candidates =
        Step.apply ⟨.sort arriveBy, tags⟩ others := by
      simpa [Step.apply, Rule.removes, Rule.apply] using
        sortForShow_eq_of_perm arriveBy hdistinct hperm
    simp only [ofRules, List.nil_append, List.map_cons, run, hsorted, Step.firstCut?,
      Rule.firstCut?]
  | cons rule front ih =>
    obtain ⟨hblind, hrest⟩ := List.forall_mem_cons.1 hfront
    have hlater := ih hrest (Step.distinctCosts_apply ⟨rule, tags⟩ hdistinct)
      (Step.apply_perm ⟨rule, tags⟩ hblind hdistinct hperm)
    simp only [ofRules, List.cons_append, List.map_cons, run, Step.firstCut?,
      Rule.firstCut?_eq_none (Rule.reports_eq_false hblind)] at hlater ⊢
    rw [hlater]

namespace Plan

variable {plan : Plan}

/-- The rules that limit numbers start with a sort, if there are any. -/
theorem numberRules_cases (plan : Plan) :
    plan.numberRules = [] ∨ ∃ rest, plan.numberRules = .sort plan.arriveBy :: rest := by
  unfold numberRules
  by_cases hstreet : 0 < plan.maxStreetOnly
  · rw [if_pos hstreet]
    exact Or.inr ⟨_, rfl⟩
  · rw [if_neg hstreet, List.nil_append]
    by_cases hlimit : 0 < plan.maxItineraries
    · rw [if_pos hlimit]
      exact Or.inr ⟨_, rfl⟩
    · exact Or.inl (if_neg hlimit)

/-- No rule of a plan looks at places before the candidates have been sorted. -/
theorem exists_sort_of_rules (plan : Plan) : ∃ front back,
    plan.rules = front ++ .sort plan.arriveBy :: back ∧
      ∀ rule ∈ front, rule.looksAtPlaces = false := by
  have hgrouping : ∀ rule ∈ plan.groupingRules, rule.looksAtPlaces = false := by
    simp [groupingRules, Rule.looksAtPlaces]
  have hcost : ∀ rule ∈ plan.costRules, rule.looksAtPlaces = false := by
    simp [costRules, Rule.looksAtPlaces, or_imp, forall_and]
  have habsolute : ∀ rule ∈ plan.absoluteRules, rule.looksAtPlaces = false := by
    simp [absoluteRules, Rule.looksAtPlaces, or_imp, forall_and]
  have hfront := List.forall_mem_append.2 ⟨hgrouping, hcost⟩
  rcases plan.numberRules_cases with hnone | ⟨rest, hsome⟩
  · refine ⟨plan.groupingRules ++ plan.costRules ++ plan.absoluteRules, [], ?_, ?_⟩
    · simp [rules, hnone]
    · exact List.forall_mem_append.2 ⟨hfront, habsolute⟩
  · refine ⟨plan.groupingRules ++ plan.costRules,
      rest ++ (plan.absoluteRules ++ [.sort plan.arriveBy]), ?_, hfront⟩
    simp [rules, hsome]

/-- The chain of a plan makes the same of candidates of different costs in whatever order
they come: it leaves the same ones in the same order, and reports the same one as the first
that was cut off. -/
theorem run_independent_of_order {chain : Chain} (hbuild : plan.build = .ok chain)
    {candidates others : List Candidate} (hperm : candidates.Perm others)
    (hdistinct : (candidates.map fun c => c.cost).Nodup) :
    chain.run candidates = chain.run others := by
  obtain ⟨front, back, hrules, hfront⟩ := plan.exists_sort_of_rules
  rw [eq_ofRules_of_build hbuild, hrules]
  exact Chain.run_eq_of_perm plan.debug plan.arriveBy back hfront hdistinct hperm

/-- A plan that tags similar itineraries and all but one street-only and two in all, and
reports the third. -/
private def tagsAllButTwo : Plan :=
  { Plan.new true with
    groupings := [⟨0.85, 1⟩], debug := true, maxItineraries := 2, reportsCut := true }

/-- Two buses and a walk that arrive together, at different costs. -/
private def atOneTime : List Candidate :=
  [(Candidate.ofLeg 0 (.onDay .bus (.inRow 0) (.inRow 1) 480 510)).costing 900,
    (Candidate.ofLeg 1 (.onDay .bus (.inRow 0) (.inRow 1) 480 510)).costing 800,
    (Candidate.ofLeg 2 (.onDay .walk (.inRow 0) (.inRow 1) 480 510)).costing 1200]

/-- Ways that arrive together are shown and tagged in the same order, whichever was found
first. -/
theorem atOneTime_independent_of_order : tagsAllButTwo.build = .ok tagsAllButTwo.chain ∧
    atOneTime.Perm atOneTime.reverse ∧ (atOneTime.map fun c => c.cost).Nodup ∧
    tagsAllButTwo.chain.run atOneTime = tagsAllButTwo.chain.run atOneTime.reverse := by
  have hcheck : tagsAllButTwo.check = .ok () := by decide +kernel
  have hbuild : tagsAllButTwo.build = .ok tagsAllButTwo.chain :=
    map_eq_ok_iff.2 ⟨(), hcheck, rfl⟩
  have hperm : atOneTime.Perm atOneTime.reverse := (List.reverse_perm atOneTime).symm
  have hdistinct : (atOneTime.map fun c => c.cost).Nodup := by decide
  exact ⟨hbuild, hperm, hdistinct, run_independent_of_order hbuild hperm hdistinct⟩

end Plan

end JourneyPlanner.Selection
