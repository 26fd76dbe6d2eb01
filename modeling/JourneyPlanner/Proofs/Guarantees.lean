import JourneyPlanner.Proofs.RuleEffects
import JourneyPlanner.Proofs.SimilarGroups

/-!
# What rules guarantee

Every rule stands for a property of the list it leaves, which is said here without
applying the rule. A rule's own outcome has the property, a rule changes nothing that has
it, and what a rule that may drop candidates guarantees of a list it guarantees of each
part of it. Most limits are taken at the best of a list: once others have been dropped
they can only be more lenient.
-/

namespace JourneyPlanner

/-- A limit keeps the order of some costs: what it allows at a best cost it allows at any
higher one. So it is with a coefficient of one or more where converting, multiplying and
adding keep the order of numbers. -/
def LinearFunction.MonotoneOn {α : Type} [Quantity α] (limit : LinearFunction α)
    (costs : List Int) : Prop :=
  ∀ best ∈ costs, ∀ higher ∈ costs, ∀ cost ∈ costs, best ≤ higher →
    limit.allows best cost = true → limit.allows higher cost = true

instance {α : Type} [Quantity α] (limit : LinearFunction α) (costs : List Int) :
    Decidable (limit.MonotoneOn costs) :=
  inferInstanceAs (Decidable (∀ best ∈ costs, ∀ higher ∈ costs, ∀ cost ∈ costs, best ≤ higher →
    limit.allows best cost = true → limit.allows higher cost = true))

/-- A limit keeps the order of costs if converting them, multiplying by its coefficient and
adding its constant do. -/
theorem LinearFunction.monotoneOn_of_steps {α : Type} [Quantity α] {limit : LinearFunction α}
    (htrans : ∀ x y z : α, Quantity.le x y → Quantity.le y z → Quantity.le x z)
    (hofInt : ∀ low high : Int, low ≤ high →
      Quantity.le (Quantity.ofInt low : α) (Quantity.ofInt high))
    (hmul : ∀ x y, Quantity.le x y →
      Quantity.le (Quantity.mul limit.coefficient x) (Quantity.mul limit.coefficient y))
    (hadd : ∀ x y, Quantity.le x y →
      Quantity.le (Quantity.add limit.constant x) (Quantity.add limit.constant y))
    (costs : List Int) : limit.MonotoneOn costs := by
  intro best _ higher _ cost _ hle hallowed
  exact htrans _ _ _ hallowed (hadd _ _ (hmul _ _ (hofInt _ _ hle)))

namespace Selection

/-! ### The cheapest of a list -/

section Lowest

variable {p : Candidate → Bool} {candidates : List Candidate} {best : Int}

/-- The lowest cost is that of one of the candidates and at most that of each. -/
theorem lowestCost?_eq_some_iff :
    lowestCost? p candidates = some best ↔
      (∃ c ∈ candidates, p c = true ∧ c.cost = best) ∧
        ∀ c ∈ candidates, p c = true → best ≤ c.cost := by
  unfold lowestCost?
  rw [List.min?_eq_some_iff]
  simp only [List.mem_map, List.mem_filter]
  constructor
  · rintro ⟨⟨c, ⟨hc, hp⟩, hcost⟩, hleast⟩
    exact ⟨⟨c, hc, hp, hcost⟩, fun d hd hpd => hleast d.cost ⟨d, ⟨hd, hpd⟩, rfl⟩⟩
  · rintro ⟨⟨c, hc, hp, hcost⟩, hleast⟩
    refine ⟨⟨c, ⟨hc, hp⟩, hcost⟩, ?_⟩
    rintro cost ⟨d, ⟨hd, hpd⟩, rfl⟩
    exact hleast d hd hpd

/-- There is no lowest cost only if there is no candidate of the kind. -/
theorem lowestCost?_eq_none_iff :
    lowestCost? p candidates = none ↔ ∀ c ∈ candidates, p c = false := by
  simp [lowestCost?]

end Lowest

/-- What is kept within what the cheapest of some candidates allows was there before, and is
allowed by a cost that is no higher than that of any of those that are kept. -/
theorem of_mem_lowestCost_filter {p : Candidate → Bool} {allowed : Int → Candidate → Bool}
    {candidates : List Candidate} {b c : Candidate}
    (hb : b ∈ match lowestCost? p candidates with
      | none => candidates
      | some best => candidates.filter (allowed best))
    (hc : c ∈ match lowestCost? p candidates with
      | none => candidates
      | some best => candidates.filter (allowed best))
    (hp : p b = true) :
    b ∈ candidates ∧ c ∈ candidates ∧
      ∃ d ∈ candidates, d.cost ≤ b.cost ∧ allowed d.cost c = true := by
  cases hlowest : lowestCost? p candidates with
  | none =>
    simp only [hlowest] at hb
    rw [lowestCost?_eq_none_iff.1 hlowest b hb] at hp
    cases hp
  | some best =>
    simp only [hlowest, List.mem_filter] at hb hc
    obtain ⟨⟨d, hd, -, rfl⟩, hleast⟩ := lowestCost?_eq_some_iff.1 hlowest
    exact ⟨hb.1, hc.1, d, hd, hleast b hb.1 hp, hc.2⟩

/-- The street-only candidates that are kept are no more than there is room for. -/
theorem countP_takeStreetOnly_le (limit : Nat) (candidates : List Candidate) :
    (takeStreetOnly limit candidates).countP (fun c => c.isStreetOnly) ≤ limit := by
  fun_induction takeStreetOnly limit candidates with
  | case1 limit => exact Nat.zero_le limit
  | case2 c rest hstreet ih => exact ih
  | case3 c rest hstreet left ih =>
    rw [List.countP_cons, if_pos hstreet]
    exact Nat.succ_le_succ ih
  | case4 limit c rest hride ih => rwa [List.countP_cons, if_neg hride]

/-- If there is room for all street-only candidates, all candidates are kept. -/
theorem takeStreetOnly_eq_self {limit : Nat} {candidates : List Candidate}
    (hroom : candidates.countP (fun c => c.isStreetOnly) ≤ limit) :
    takeStreetOnly limit candidates = candidates := by
  fun_induction takeStreetOnly limit candidates with
  | case1 => rfl
  | case2 c rest hstreet ih =>
    rw [List.countP_cons, if_pos hstreet] at hroom
    omega
  | case3 c rest hstreet left ih =>
    rw [List.countP_cons, if_pos hstreet] at hroom
    rw [ih (by omega)]
  | case4 limit c rest hride ih =>
    rw [List.countP_cons, if_neg hride] at hroom
    rw [ih hroom]

/-- No more candidates share their main rides than each group may keep of this list. -/
def SharedByFew (ridesOf : Candidate → List Ride) (wanted : Nat)
    (candidates : List Candidate) : Prop :=
  ∀ rides : Finset Ride, rides ≠ ∅ →
    candidates.countP (fun c => rideSet ridesOf c = rides) ≤
      keptPerGroup wanted (groupsBy ridesOf candidates).length

/-- It is enough to count those that share their main rides with one of the list. -/
theorem sharedByFew_iff {ridesOf : Candidate → List Ride} {wanted : Nat}
    {candidates : List Candidate} : SharedByFew ridesOf wanted candidates ↔
      ∀ d ∈ candidates, rideSet ridesOf d ≠ ∅ →
        candidates.countP (fun c => rideSet ridesOf c = rideSet ridesOf d) ≤
          keptPerGroup wanted (groupsBy ridesOf candidates).length := by
  constructor
  · exact fun h d _ hne => h (rideSet ridesOf d) hne
  · intro h rides hne
    by_cases hshared : ∃ d ∈ candidates, rideSet ridesOf d = rides
    · obtain ⟨d, hd, rfl⟩ := hshared
      exact h d hd hne
    · have hzero : candidates.countP (fun c => rideSet ridesOf c = rides) = 0 := by
        rw [List.countP_eq_zero]
        exact fun c hc => by simpa using fun heq => hshared ⟨c, hc, heq⟩
      omega

instance (ridesOf : Candidate → List Ride) (wanted : Nat) (candidates : List Candidate) :
    Decidable (SharedByFew ridesOf wanted candidates) :=
  decidable_of_iff _ sharedByFew_iff.symm

/-- What few share in a list few share in each part of it, where fewer groups may each keep
more. -/
theorem SharedByFew.of_counts {ridesOf : Candidate → List Ride} {wanted : Nat}
    {part candidates : List Candidate} (hpart : part.Subperm candidates)
    (hfew : ∀ rides : Finset Ride, rides ≠ ∅ →
      part.countP (fun c => rideSet ridesOf c = rides) ≤
        keptPerGroup wanted (groupsBy ridesOf candidates).length) :
    SharedByFew ridesOf wanted part := by
  intro rides hrides
  cases part with
  | nil => exact Nat.zero_le _
  | cons first rest =>
    have hfirst : (first, 0) ∈ (first :: rest).zipIdx := by simp [List.zipIdx_cons]
    obtain ⟨group, hgroup, -⟩ := (grouped_groupsBy ridesOf (first :: rest)).exists_group hfirst
    exact (hfew rides hrides).trans
      (keptPerGroup_antitone (List.length_pos_of_mem hgroup) (length_groupsBy_mono hpart))

namespace Rule

/-- The limit on cost that a rule computes, if it does, keeps the order of some costs. -/
def MonotoneOn (costs : List Int) : Rule → Prop
  | transitCost limit => limit.MonotoneOn costs
  | streetOnlyCost limit => limit.MonotoneOn costs
  | _ => True

/-- What a rule ensures of a list of candidates. A limit that is taken at the cheapest of some
candidates holds at each of them. -/
def Meets : Rule → List Candidate → Prop
  | sort arriveBy, candidates => candidates.Pairwise fun a b => mayPrecede arriveBy a b = true
  | atMost _ limit _, candidates => candidates.length ≤ limit
  | streetOnlyAtMost _ limit, candidates =>
    candidates.countP (fun c => c.isStreetOnly) ≤ limit
  | transitCost limit, candidates => ∀ b ∈ candidates, ∀ c ∈ candidates,
    ridesTransit b = true → ridesTransit c = true → limit.allows b.cost c.cost = true
  | streetOnlyCost limit, candidates => ∀ b ∈ candidates, ∀ c ∈ candidates,
    c.isStreetOnly = true → limit.allows b.cost c.cost = true
  | noDearerThanStreetOnly, candidates => ∀ b ∈ candidates, ∀ c ∈ candidates,
    b.isStreetOnly = true → ridesTransit c = true → c.cost ≤ b.cost
  | departsBy limit, candidates => ∀ c ∈ candidates, c.start ≤ limit
  | isShown pruning, candidates => ∀ c ∈ candidates, c.identity ∉ pruning
  | cyclesFurtherThan distance, candidates =>
    ∀ c ∈ candidates, distance < cycledDistance c.toItinerary
  | leavesBicycle, candidates => ∀ c ∈ candidates, staysOnBicycle c.toItinerary = false
  | arrivesOnDemand longestWalk, candidates =>
    ∀ c ∈ candidates, reachesDestinationOnDemand longestWalk c.toItinerary = true
  | cheapestOfSimilar share wanted, candidates =>
    SharedByFew (fun c => mainRides Leg.distance share c.toItinerary) wanted candidates

instance (rule : Rule) (candidates : List Candidate) : Decidable (rule.Meets candidates) :=
  match rule with
  | sort arriveBy =>
    inferInstanceAs (Decidable (candidates.Pairwise fun a b => mayPrecede arriveBy a b = true))
  | atMost _ limit _ => inferInstanceAs (Decidable (candidates.length ≤ limit))
  | streetOnlyAtMost _ limit =>
    inferInstanceAs (Decidable (candidates.countP (fun c => c.isStreetOnly) ≤ limit))
  | transitCost _ | streetOnlyCost _ | noDearerThanStreetOnly =>
    inferInstanceAs (Decidable (∀ b ∈ candidates, ∀ c ∈ candidates, _))
  | departsBy _ | isShown _ | cyclesFurtherThan _ | leavesBicycle | arrivesOnDemand _ =>
    inferInstanceAs (Decidable (∀ c ∈ candidates, _))
  | cheapestOfSimilar share wanted =>
    inferInstanceAs (Decidable
      (SharedByFew (fun c => mainRides Leg.distance share c.toItinerary) wanted candidates))

variable {rule : Rule} {part candidates : List Candidate}

/-- What a rule that may drop candidates ensures of a list it ensures of each part of it. -/
theorem Meets.of_subperm (h : rule.Meets candidates) (hremoves : rule.removes = true)
    (hpart : part.Subperm candidates) : rule.Meets part := by
  have hsubset := hpart.subset
  cases rule with
  | sort arriveBy => cases hremoves
  | atMost label limit reports => exact hpart.length_le.trans h
  | streetOnlyAtMost label limit => exact (hpart.countP_le _).trans h
  | transitCost | streetOnlyCost | noDearerThanStreetOnly =>
    exact fun b hb c hc => h b (hsubset hb) c (hsubset hc)
  | departsBy | isShown | cyclesFurtherThan | leavesBicycle | arrivesOnDemand =>
    exact fun c hc => h c (hsubset hc)
  | cheapestOfSimilar share wanted =>
    exact SharedByFew.of_counts hpart fun rides hrides =>
      (hpart.countP_le _).trans (h rides hrides)

/-- A rule changes nothing that it ensures already. -/
theorem Meets.apply_eq_self (h : rule.Meets candidates) : rule.apply candidates = candidates := by
  cases rule with
  | sort arriveBy => exact List.mergeSort_of_pairwise h
  | atMost label limit reports => exact List.take_of_length_le h
  | streetOnlyAtMost label limit => exact takeStreetOnly_eq_self h
  | transitCost limit =>
    change withinTransitLimit limit candidates = candidates
    unfold withinTransitLimit
    split
    · rfl
    · rename_i best hbest
      obtain ⟨⟨b, hb, hride, rfl⟩, -⟩ := lowestCost?_eq_some_iff.1 hbest
      refine List.filter_eq_self.2 fun c hc => ?_
      by_cases hstreet : c.isStreetOnly = true
      · simp [hstreet]
      · simp [h b hb c hc hride (by simpa [ridesTransit] using hstreet)]
  | streetOnlyCost limit =>
    change withinStreetOnlyLimit limit candidates = candidates
    unfold withinStreetOnlyLimit
    split
    · rfl
    · rename_i best hbest
      obtain ⟨⟨b, hb, -, rfl⟩, -⟩ := lowestCost?_eq_some_iff.1 hbest
      refine List.filter_eq_self.2 fun c hc => ?_
      by_cases hstreet : c.isStreetOnly = true
      · simp [h b hb c hc hstreet]
      · simp [ridesTransit, hstreet]
  | noDearerThanStreetOnly =>
    change withinStreetOnlyCost candidates = candidates
    unfold withinStreetOnlyCost
    split
    · rfl
    · rename_i best hbest
      obtain ⟨⟨b, hb, hstreet, rfl⟩, -⟩ := lowestCost?_eq_some_iff.1 hbest
      refine List.filter_eq_self.2 fun c hc => ?_
      by_cases hcStreet : c.isStreetOnly = true
      · simp [hcStreet]
      · simp [h b hb c hc hstreet (by simpa [ridesTransit] using hcStreet)]
  | departsBy limit => exact List.filter_eq_self.2 fun c hc => decide_eq_true (h c hc)
  | isShown pruning => exact List.filter_eq_self.2 fun c hc => by simpa using h c hc
  | cyclesFurtherThan distance =>
    exact List.filter_eq_self.2 fun c hc => decide_eq_true (h c hc)
  | leavesBicycle => exact List.filter_eq_self.2 fun c hc => by simpa using h c hc
  | arrivesOnDemand longestWalk => exact List.filter_eq_self.2 h
  | cheapestOfSimilar share wanted => exact cheapestOfSimilar_eq_self h

/-- What a rule leaves is as the rule ensures. -/
theorem meets_apply (rule : Rule) {candidates : List Candidate}
    (hmono : rule.MonotoneOn (candidates.map fun c => c.cost)) :
    rule.Meets (rule.apply candidates) := by
  cases rule with
  | sort arriveBy =>
    exact List.pairwise_mergeSort (mayPrecede_trans arriveBy) (mayPrecede_total arriveBy) candidates
  | atMost label limit reports => exact List.length_take_le limit candidates
  | streetOnlyAtMost label limit => exact countP_takeStreetOnly_le limit candidates
  | transitCost limit =>
    intro b hb c hc hbRide hcRide
    obtain ⟨hb, hc, d, hd, hle, hallowed⟩ := of_mem_lowestCost_filter hb hc hbRide
    have hride : c.isStreetOnly = false := by simpa [ridesTransit] using hcRide
    rw [hride, Bool.false_or] at hallowed
    exact hmono _ (List.mem_map_of_mem hd) _ (List.mem_map_of_mem hb) _ (List.mem_map_of_mem hc)
      hle hallowed
  | streetOnlyCost limit =>
    intro b hb c hc hstreet
    obtain ⟨hb, hc, d, hd, hle, hallowed⟩ := of_mem_lowestCost_filter hb hc rfl
    rw [ridesTransit, hstreet, Bool.not_true, Bool.false_or] at hallowed
    exact hmono _ (List.mem_map_of_mem hd) _ (List.mem_map_of_mem hb) _ (List.mem_map_of_mem hc)
      hle hallowed
  | noDearerThanStreetOnly =>
    intro b hb c hc hstreet hcRide
    obtain ⟨-, -, d, -, hle, hallowed⟩ := of_mem_lowestCost_filter hb hc hstreet
    have hride : c.isStreetOnly = false := by simpa [ridesTransit] using hcRide
    rw [hride, Bool.false_or, decide_eq_true_eq] at hallowed
    exact hallowed.trans hle
  | departsBy limit => exact fun c hc => of_decide_eq_true (List.mem_filter.1 hc).2
  | isShown pruning => exact fun c hc => by simpa using (List.mem_filter.1 hc).2
  | cyclesFurtherThan distance => exact fun c hc => of_decide_eq_true (List.mem_filter.1 hc).2
  | leavesBicycle => exact fun c hc => by simpa using (List.mem_filter.1 hc).2
  | arrivesOnDemand longestWalk => exact fun c hc => (List.mem_filter.1 hc).2
  | cheapestOfSimilar share wanted =>
    have hpart := (cheapestOfSimilar_sublist
      (fun c => mainRides Leg.distance share c.toItinerary) wanted candidates).subperm
    exact SharedByFew.of_counts hpart fun rides hrides => countP_cheapestOfSimilar_le hrides

end Rule

end Selection

end JourneyPlanner
