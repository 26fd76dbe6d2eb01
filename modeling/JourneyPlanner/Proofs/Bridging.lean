import JourneyPlanner.Proofs.Bridges
import JourneyPlanner.Proofs.Stepping

/-!
# Bridging a route

As long as a search only finds itineraries between the two locations it is asked about,
the sequences of an assembly bridge the part of the route behind it, one junction more
with each step.
-/

namespace JourneyPlanner

/-- An itinerary runs between the two locations of a query. -/
def Search.Query.Answers (query : Search.Query) (it : Itinerary) : Prop :=
  query.origin.isAt it.origin = true ∧ query.destination.isAt it.destination = true

namespace Composition

open Journey (Stopover)
open Search (Coverage Query)

/-- What is found for a junction leads to its far stopover. What is found for the first one
also starts at its near stopover; later this is a matter of joining. -/
structure Spans (direction : Direction) (stops : List Stopover) (begun : Nat)
    (c : Candidate) : Prop where
  /-- It has no inserted seconds. -/
  linear : c.Linear
  /-- It leads to the next stopover. -/
  far : ∀ {stop}, stops[begun + 1]? = some stop →
    stop.location.isAt (direction.farPlace c.toItinerary) = true
  /-- On the first junction it starts at the first stopover. -/
  near : begun = 0 → ∀ {stop}, stops[0]? = some stop →
    stop.location.isAt (direction.nearPlace c.toItinerary) = true

namespace Assembly

variable {direction : Direction} {route : List Stopover} {begun : Nat} {a b : Assembly}
  {found : List Candidate}

/-- An answer to a query runs from the location that has to be covered to the far stopover of
the junction. -/
theorem answers_query {junction : Junction} {coverage : Coverage} {query : Query}
    {it : Itinerary} (hjunction : a.junction? = some junction)
    (hquery : a.query? coverage = some query) (hanswers : query.Answers it) :
    coverage.location.isAt (a.direction.nearPlace it) = true ∧
      (junction.reachedEnd a.direction).location.isAt (a.direction.farPlace it) = true := by
  unfold query? at hquery
  rw [hjunction] at hquery
  cases hquery
  obtain ⟨horigin, hdestination⟩ := hanswers
  unfold Direction.nearPlace Direction.farPlace Junction.reachedEnd
  cases hdirection : a.direction <;> simp only [hdirection] at horigin hdestination
  · exact ⟨horigin, hdestination⟩
  · exact ⟨hdestination, horigin⟩

/-- On the first junction only its near stopover has to be covered. -/
theorem Along.coverages_first (h : a.Along direction route 1) (hbegun : 0 < a.junctions.length)
    {stop : Stopover} (hstop : (direction.inTravelOrder route)[0]? = some stop) :
    a.coverages = .ok [.empty stop.location] := by
  have hfirst : a.isFirstStep = true := by
    unfold isFirstStep
    rw [h.step_eq]
    rfl
  unfold coverages
  rw [h.mergeEnd?_eq hbegun, hstop, hfirst]
  rfl

/-- What answers a query of a step spans its junction. -/
theorem Along.spans_of_query (h : a.Along direction route (begun + 1))
    (hbegun : begun < a.junctions.length) {coverages : List Coverage}
    (hcoverages : a.coverages = .ok coverages) {query : Query}
    (hquery : query ∈ coverages.filterMap a.query?) {c : Candidate} (hlinear : c.Linear)
    (hanswers : query.Answers c.toItinerary) :
    Spans direction (direction.inTravelOrder route) begun c := by
  obtain ⟨junction, hjunction, -, hreached⟩ := h.exists_junction hbegun
  obtain ⟨coverage, hcoverage, hasked⟩ := List.mem_filterMap.1 hquery
  obtain ⟨hnear, hfar⟩ := answers_query hjunction hasked hanswers
  rw [h.direction_eq] at hnear hfar
  refine ⟨hlinear, fun hstop => ?_, ?_⟩
  · rw [hreached] at hstop
    cases hstop
    exact hfar
  · rintro rfl stop hstop
    rw [h.coverages_first hbegun hstop] at hcoverages
    cases hcoverages
    obtain rfl := List.mem_singleton.1 hcoverage
    exact hnear

/-- The sequences of an assembly bridge the stopovers up to where it has come. -/
structure Bridged (direction : Direction) (route : List Stopover) (begun : Nat)
    (a : Assembly) : Prop where
  /-- It has begun so many junctions. -/
  along : a.Along direction route begun
  /-- Each sequence bridges them. -/
  bridges : ∀ s ∈ a.sequences, ∃ first via last,
    (direction.inTravelOrder route).take (begun + 1) = first :: (via ++ [last]) ∧
      s.Bridges direction first via last

namespace Bridged

/-- On the first junction each itinerary found bridges it. -/
theorem merge_first (h : a.Bridged direction route 0) (hmore : 0 < a.junctions.length)
    (hspans : ∀ c ∈ found, Spans direction (direction.inTravelOrder route) 0 c)
    (hok : a.advance.merge found = .ok b) : b.Bridged direction route 1 := by
  have halong := h.along.advance hmore
  have hbegun : 0 < a.advance.junctions.length := by rwa [advance_junctions]
  obtain ⟨junction, -, hfirst, hlast⟩ := halong.exists_junction hbegun
  refine ⟨halong.of_merge hok, ?_⟩
  rw [halong.merge_first hbegun] at hok
  cases hok
  intro s hs
  obtain ⟨c, hc, rfl⟩ := List.mem_map.1 hs
  have hc := hspans c hc
  refine ⟨_, [], _, ?_, Sequence.Bridges.single hc.linear (hc.near rfl hfirst) (hc.far hlast)⟩
  rw [List.take_add_one, List.take_add_one, hfirst, hlast]
  rfl

/-- On a later junction each extension goes on from the stopover reached before to the next
one. -/
theorem merge_later (h : a.Bridged direction route (begun + 1))
    (hmore : begun + 1 < a.junctions.length)
    (hspans : ∀ c ∈ found, Spans direction (direction.inTravelOrder route) (begun + 1) c)
    (hok : a.advance.merge found = .ok b) : b.Bridged direction route (begun + 2) := by
  have halong := h.along.advance hmore
  have hbegun : begun + 1 < a.advance.junctions.length := by rwa [advance_junctions]
  obtain ⟨junction, -, hjoin, hreached⟩ := halong.exists_junction hbegun
  refine ⟨halong.of_merge hok, ?_⟩
  rw [halong.merge_later hbegun hjoin] at hok
  obtain ⟨extended, hextended, rfl⟩ := map_eq_ok_iff.1 hok
  intro t ht
  obtain ⟨s, hs, next, hnext, hextend⟩ := mem_extendAll hextended ht
  rw [advance_sequences] at hs
  obtain ⟨first, via, last, hstops, hbridges⟩ := h.bridges s hs
  have hnext := hspans next hnext
  -- The stopover reached before is the one at which the extension joins.
  obtain rfl : last = junction.mergeEnd direction := by
    rw [List.take_add_one, hjoin, ← List.cons_append] at hstops
    exact (List.singleton_inj.1 (List.append_inj' hstops rfl).2).symm
  refine ⟨first, via ++ [junction.mergeEnd direction], _, ?_,
    hbridges.extend hnext.linear (hnext.far hreached) hextend⟩
  rw [List.take_add_one, hstops, hreached]
  simp

/-- Each junction is bridged by what spans it. -/
theorem merge (h : a.Bridged direction route begun) (hmore : begun < a.junctions.length)
    (hspans : ∀ c ∈ found, Spans direction (direction.inTravelOrder route) begun c)
    (hok : a.advance.merge found = .ok b) : b.Bridged direction route (begun + 1) := by
  cases begun with
  | zero => exact h.merge_first hmore hspans hok
  | succ begun => exact h.merge_later hmore hspans hok

/-- At the end each sequence bridges the whole route. -/
theorem whole (h : a.Bridged direction route begun) (hend : begun = a.junctions.length)
    {s : Sequence} (hs : s ∈ a.sequences) :
    ∃ first via last, direction.inTravelOrder route = first :: (via ++ [last]) ∧
      s.Bridges direction first via last := by
  obtain ⟨first, via, last, hstops, hbridges⟩ := h.bridges s hs
  rw [List.take_of_length_le] at hstops
  · exact ⟨first, via, last, hstops, hbridges⟩
  · have hlength : (direction.inTravelOrder route).length = route.length := by
      cases direction <;> simp [Direction.inTravelOrder]
    rw [hlength, hend, h.along.length_junctions]
    omega

end Bridged

end Assembly

/-- Each itinerary of flattened sequences comes from one of them. -/
theorem Sequence.mem_flattenAll {index : Nat} {sequences : List Sequence}
    {flattened : List Candidate} (hok : flattenAll index sequences = .ok flattened)
    {c : Candidate} (hc : c ∈ flattened) :
    ∃ s ∈ sequences, ∃ identity, s.flatten identity = .ok c := by
  induction sequences generalizing index flattened with
  | nil =>
    cases hok
    cases hc
  | cons s rest ih =>
    obtain ⟨flat, hflat, hmore⟩ := bind_eq_ok_iff.1 hok
    obtain ⟨others, hothers, hall⟩ := bind_eq_ok_iff.1 hmore
    cases hall
    rcases List.mem_cons.1 hc with rfl | hc
    · exact ⟨s, by simp, _, hflat⟩
    · obtain ⟨s', hs', hidentity⟩ := ih hothers hc
      exact ⟨s', List.mem_cons_of_mem s hs', hidentity⟩

end Composition

end JourneyPlanner
