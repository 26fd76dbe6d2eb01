import JourneyPlanner.Proofs.LinearTime
import JourneyPlanner.Proofs.Survivors
import JourneyPlanner.Proofs.UsableLimits

/-!
# The best candidate and limits on costs

A limit on costs is taken at the lowest cost there is, of transit or of all candidates, and drops
what costs more than its value there. It leaves the cheapest candidate exactly if it allows the
cost that it is taken at. A limit that may be used does so at every cost that is not negative, and
at a negative one only if its constant makes up for what the coefficient takes away.
-/

namespace JourneyPlanner

namespace Selection

/-- A candidate is the cheapest of those in a list that have a property. -/
structure IsCheapest (p : Candidate → Bool) (candidates : List Candidate) (c : Candidate) :
    Prop where
  /-- It is one of them. -/
  mem : c ∈ candidates
  /-- It has the property. -/
  holds : p c = true
  /-- No other that has the property costs less. -/
  least : ∀ d ∈ candidates, p d = true → c.cost ≤ d.cost

variable {candidates : List Candidate} {c : Candidate}

section Limits

variable {α : Type} [Quantity α] {limit : LinearFunction α}

/-- The cheapest candidate has the lowest cost. -/
theorem IsCheapest.lowestCost?_eq {p : Candidate → Bool} (h : IsCheapest p candidates c) :
    lowestCost? p candidates = some c.cost :=
  lowestCost?_eq_some_iff.2 ⟨⟨c, h.mem, h.holds, rfl⟩, h.least⟩

/-- The cheapest transit is within a limit exactly if the limit is no less than its cost. -/
theorem IsCheapest.mem_withinTransitLimit_iff (h : IsCheapest ridesTransit candidates c) :
    c ∈ withinTransitLimit limit candidates ↔ limit.allows c.cost c.cost = true := by
  have hstreet : c.isStreetOnly = false := by simpa [ridesTransit] using h.holds
  rw [withinTransitLimit, h.lowestCost?_eq]
  dsimp only
  rw [List.mem_filter, and_iff_right h.mem, hstreet, Bool.false_or]

/-- The cheapest of all is within a limit exactly if it rides transit or the limit is no less than
its cost. -/
theorem IsCheapest.mem_withinStreetOnlyLimit_iff (h : IsCheapest (fun _ => true) candidates c) :
    c ∈ withinStreetOnlyLimit limit candidates ↔
      ridesTransit c = true ∨ limit.allows c.cost c.cost = true := by
  rw [withinStreetOnlyLimit, h.lowestCost?_eq]
  dsimp only
  rw [List.mem_filter, and_iff_right h.mem, Bool.or_eq_true]

end Limits

/-- A limit that may be used keeps the cheapest candidate if its cost is not negative: a limit for
transit the cheapest transit, a limit for the others the cheapest of all, which stays in any case
if it rides transit. Without rounding, a candidate of negative cost is kept exactly if the
constant makes up for what the coefficient takes away. -/
theorem keep_cheapest {limit : CostLimit} (hmade : limit.Made) (hpassed : limit.check = .ok ()) :
    (IsCheapest ridesTransit candidates c →
      (0 ≤ c.cost → c ∈ (Rule.transitCost limit).apply candidates) ∧
      (c ∈ withinTransitLimit limit.exactly candidates ↔
        0 ≤ c.cost ∨ (limit.exactly.coefficient - 1) * -c.cost ≤ limit.exactly.constant)) ∧
    (IsCheapest (fun _ => true) candidates c →
      (ridesTransit c = true ∨ 0 ≤ c.cost → c ∈ (Rule.streetOnlyCost limit).apply candidates) ∧
      (c ∈ withinStreetOnlyLimit limit.exactly candidates ↔
        ridesTransit c = true ∨ 0 ≤ c.cost ∨
          (limit.exactly.coefficient - 1) * -c.cost ≤ limit.exactly.constant)) := by
  have hexactly : limit.exactly.allows c.cost c.cost = true ↔ _ :=
    hmade.allows_exactly_iff hpassed
  refine ⟨fun h => ⟨fun hcost => ?_, ?_⟩, fun h => ⟨fun hstays => ?_, ?_⟩⟩
  · exact h.mem_withinTransitLimit_iff.2 (hmade.allows_self hpassed hcost)
  · rw [h.mem_withinTransitLimit_iff, hexactly]
  · exact h.mem_withinStreetOnlyLimit_iff.2 (hstays.imp_right (hmade.allows_self hpassed))
  · rw [h.mem_withinStreetOnlyLimit_iff, hexactly]

/-- A bus at some cost. -/
private def busAt (cost : Int) : Candidate :=
  (Candidate.ofLeg 0 (.onDay .bus (.inRow 0) (.inRow 1) 480 500)).costing cost

/-- A walk at some cost. -/
private def walkAt (cost : Int) : Candidate :=
  (Candidate.ofLeg 1 (.onDay .walk (.inRow 0) (.inRow 1) 480 540)).costing cost

/-- Half as much again as the lowest cost leaves the cheaper bus and the cheaper walk. -/
theorem cheaper_bus_and_walk_kept :
    let limit : CostLimit := ⟨0.0, 1.5⟩
    let candidates := [walkAt 700, busAt 1000, busAt 600, walkAt 400]
    limit.Made ∧ limit.check = .ok () ∧
      IsCheapest ridesTransit candidates (busAt 600) ∧
      busAt 600 ∈ (Rule.transitCost limit).apply candidates ∧
      busAt 600 ∈ withinTransitLimit limit.exactly candidates ∧
      IsCheapest (fun _ => true) candidates (walkAt 400) ∧
      walkAt 400 ∈ (Rule.streetOnlyCost limit).apply candidates ∧
      walkAt 400 ∈ withinStreetOnlyLimit limit.exactly candidates := by
  intro limit candidates
  have hmade : limit.Made := CostLimit.made_iff_isFinite.2 ⟨by decide +kernel, by decide +kernel⟩
  have hpassed : limit.check = .ok () := if_pos (by decide +kernel)
  have hbus : IsCheapest ridesTransit candidates (busAt 600) :=
    ⟨by simp [candidates], by decide, by decide⟩
  have hwalk : IsCheapest (fun _ => true) candidates (walkAt 400) :=
    ⟨by simp [candidates], rfl, by decide⟩
  obtain ⟨hbusKept, hbusExactly⟩ := (keep_cheapest hmade hpassed).1 hbus
  obtain ⟨hwalkKept, hwalkExactly⟩ := (keep_cheapest hmade hpassed).2 hwalk
  exact ⟨hmade, hpassed, hbus, hbusKept (by decide), hbusExactly.2 (Or.inl (by decide)),
    hwalk, hwalkKept (Or.inr (by decide)), hwalkExactly.2 (Or.inr (Or.inl (by decide)))⟩

/-- Twice a negative cost is less than the cost: the only bus is dropped, as is the only walk. -/
theorem negative_costs_dropped :
    let limit : CostLimit := ⟨0.0, 2.0⟩
    limit.Made ∧ limit.check = .ok () ∧
      IsCheapest ridesTransit [busAt (-100)] (busAt (-100)) ∧
      (Rule.transitCost limit).apply [busAt (-100)] = [] ∧
      withinTransitLimit limit.exactly [busAt (-100)] = [] ∧
      IsCheapest (fun _ => true) [walkAt (-100)] (walkAt (-100)) ∧
      (Rule.streetOnlyCost limit).apply [walkAt (-100)] = [] ∧
      withinStreetOnlyLimit limit.exactly [walkAt (-100)] = [] := by
  intro limit
  have hmade : limit.Made := CostLimit.made_iff_isFinite.2 ⟨by decide +kernel, by decide +kernel⟩
  have hpassed : limit.check = .ok () := if_pos (by decide +kernel)
  exact ⟨hmade, hpassed, ⟨List.mem_singleton_self _, by decide, by decide⟩, by decide +kernel,
    by decide +kernel, ⟨List.mem_singleton_self _, rfl, by decide⟩, by decide +kernel,
    by decide +kernel⟩

end Selection

end JourneyPlanner
