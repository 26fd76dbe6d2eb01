import JourneyPlanner.Journey.Waypoint
import JourneyPlanner.Proofs.Growth

/-!
# Feasible combinations

Whether itineraries can be joined is decided one extension at a time, from when and
where the growing end is passed. Here it is said of the whole combination: neighbours
touch, and between two rides that only have street in between there is as much time as
the stopover in front of the second one allows. A sequence decides as the whole
combination does because its growing end stays behind its last ride by what has been
crossed since.
-/

namespace JourneyPlanner.Composition

open Journey (Stopover)

/-- A list that ends with an item is cut either at this item or in front of it. -/
theorem concat_eq_append_cons {α : Type} {items front back : List α} {last a : α}
    (h : items ++ [last] = front ++ a :: back) :
    (back = [] ∧ items = front ∧ last = a) ∨
      ∃ rest, back = rest ++ [last] ∧ items = front ++ a :: rest := by
  rcases List.eq_nil_or_concat back with rfl | ⟨rest, b, rfl⟩
  · obtain ⟨hfront, hlast⟩ := List.append_inj' h rfl
    exact Or.inl ⟨rfl, hfront, by simpa using hlast⟩
  · have hassoc : items ++ [last] = (front ++ a :: rest) ++ [b] := by simpa using h
    obtain ⟨hitems, hlast⟩ := List.append_inj' hassoc rfl
    cases hlast
    exact Or.inr ⟨rest, by simp, hitems⟩

/-- Of the items with a property the last one has only items without it behind it. -/
theorem exists_last_of_mem {α : Type} {p : α → Bool} {items : List α}
    (h : ∃ a ∈ items, p a = false) :
    ∃ front a back, items = front ++ a :: back ∧ p a = false ∧ ∀ b ∈ back, p b = true := by
  induction items with
  | nil => simp at h
  | cons first rest ih =>
    by_cases hlater : ∃ a ∈ rest, p a = false
    · obtain ⟨front, a, back, rfl, ha, hback⟩ := ih hlater
      exact ⟨first :: front, a, back, rfl, ha, hback⟩
    · obtain ⟨a, ha, hpa⟩ := h
      rcases List.mem_cons.1 ha with rfl | ha
      · refine ⟨[], a, rest, rfl, hpa, fun b hb => ?_⟩
        by_contra hpb
        exact hlater ⟨b, hb, by simpa using hpb⟩
      · exact absurd ⟨a, ha, hpa⟩ hlater

/-- One itinerary of a combination, with the stopover at its near end. -/
structure Part where
  /-- The stopover. -/
  stopover : Stopover
  /-- The itinerary. -/
  itinerary : Candidate

/-- The time an itinerary on the street takes, with the wait in front of it. -/
def Part.crossing (part : Part) : Int :=
  part.stopover.minWait + part.itinerary.duration

/-- Itineraries in the order of growth, each with the stopover at its near end. -/
def parts (stops : List Stopover) (itineraries : List Candidate) : List Part :=
  List.zipWith Part.mk stops itineraries

/-- One more itinerary has the next stopover at its near end. -/
theorem parts_concat {stops : List Stopover} {stop : Stopover} {itineraries : List Candidate}
    (next : Candidate) (hstop : stops[itineraries.length]? = some stop) :
    parts stops (itineraries ++ [next]) = parts stops itineraries ++ [⟨stop, next⟩] := by
  induction itineraries generalizing stops with
  | nil =>
    cases stops with
    | nil => simp at hstop
    | cons first stops =>
      cases hstop
      simp [parts]
  | cons c itineraries ih =>
    cases stops with
    | nil => simp at hstop
    | cons first stops =>
      have hstop' : stops[itineraries.length]? = some stop := by simpa using hstop
      have hrest := ih hstop'
      simpa [parts] using hrest

/-- A single itinerary has the first stopover at its near end. -/
theorem parts_singleton {stops : List Stopover} {stop : Stopover} (next : Candidate)
    (hstop : stops[0]? = some stop) : parts stops [next] = [⟨stop, next⟩] := by
  have hconcat : parts stops ([] ++ [next]) = parts stops [] ++ [⟨stop, next⟩] :=
    parts_concat next hstop
  rwa [show parts stops [] = [] from List.zipWith_nil_right] at hconcat

/-- There are parts, if there are stopovers and itineraries. -/
theorem parts_ne_nil {stops : List Stopover} {itineraries : List Candidate} (hstops : stops ≠ [])
    (hne : itineraries ≠ []) : parts stops itineraries ≠ [] := by
  intro hnil
  rcases List.zipWith_eq_nil_iff.1 hnil with h | h
  · exact hstops h
  · exact hne h

/-- The itineraries of parts are those they were made of, if there are enough stopovers. -/
theorem map_itinerary_parts {stops : List Stopover} {itineraries : List Candidate}
    (h : itineraries.length ≤ stops.length) :
    (parts stops itineraries).map Part.itinerary = itineraries := by
  induction itineraries generalizing stops with
  | nil => simp [parts]
  | cons c itineraries ih =>
    cases stops with
    | nil => simp at h
    | cons first stops =>
      have hlength : itineraries.length ≤ stops.length := by simpa using h
      have hrest := ih hlength
      simpa [parts] using hrest

/-- The stopovers of parts are those they were made of, if there are enough itineraries. -/
theorem map_stopover_parts {stops : List Stopover} {itineraries : List Candidate}
    (h : stops.length ≤ itineraries.length) :
    (parts stops itineraries).map Part.stopover = stops := by
  induction stops generalizing itineraries with
  | nil => rfl
  | cons first stops ih =>
    cases itineraries with
    | nil => simp at h
    | cons c itineraries =>
      have hlength : stops.length ≤ itineraries.length := by simpa using h
      have hrest := ih hlength
      simpa [parts] using hrest

/-- The parts of two lists are those of the one and then those of the other. -/
theorem parts_append {stops stops' : List Stopover} {members members' : List Candidate}
    (h : stops.length = members.length) :
    parts (stops ++ stops') (members ++ members') = parts stops members ++ parts stops' members' :=
  List.zipWith_append h

/-- Stopovers for which there are no itineraries make no parts. -/
theorem parts_append_stops {stops : List Stopover} {members : List Candidate}
    (more : List Stopover) (h : members.length ≤ stops.length) :
    parts (stops ++ more) members = parts stops members := by
  induction members generalizing stops with
  | nil => simp [parts]
  | cons c members ih =>
    cases stops with
    | nil => simp at h
    | cons first stops =>
      have hlength : members.length ≤ stops.length := by simpa using h
      have hrest := ih hlength
      simpa [parts] using hrest

/-- The time that two rides leave each other, less what is crossed between them. -/
def slack (direction : Direction) (ride : Candidate) (between : List Part) (next : Candidate) :
    Int :=
  direction.sign *
      (direction.nearTime next.toItinerary).since (direction.farTime ride.toItinerary) -
    (between.map Part.crossing).sum

/-- A combination of itineraries can be travelled. -/
structure Feasible (direction : Direction) (parts : List Part) : Prop where
  /-- There is an itinerary. -/
  ne_nil : parts ≠ []
  /-- The near place of each itinerary is the far place of the one before it. -/
  touches : ∀ {front a b back}, parts = front ++ a :: b :: back →
    (direction.nearPlace b.itinerary.toItinerary).sameLocation
      (direction.farPlace a.itinerary.toItinerary) = true
  /-- From the last ride before a ride there is as much time as the stopover allows. -/
  fits : ∀ {front ride between next back}, parts = front ++ ride :: (between ++ next :: back) →
    ride.itinerary.isStreetOnly = false → next.itinerary.isStreetOnly = false →
    (∀ part ∈ between, part.itinerary.isStreetOnly = true) →
    next.stopover.minWait ≤ slack direction ride.itinerary between next.itinerary ∧
      slack direction ride.itinerary between next.itinerary ≤ next.stopover.maxWait

/-- A combination can be continued by one more itinerary. -/
structure Continues (direction : Direction) (parts : List Part) (next : Part) : Prop where
  /-- The near place of the itinerary is the far place of the last one. -/
  touches : ∀ {front a}, parts = front ++ [a] →
    (direction.nearPlace next.itinerary.toItinerary).sameLocation
      (direction.farPlace a.itinerary.toItinerary) = true
  /-- From the last ride there is as much time as the stopover allows. -/
  fits : ∀ {front ride between}, parts = front ++ ride :: between →
    ride.itinerary.isStreetOnly = false → next.itinerary.isStreetOnly = false →
    (∀ part ∈ between, part.itinerary.isStreetOnly = true) →
    next.stopover.minWait ≤ slack direction ride.itinerary between next.itinerary ∧
      slack direction ride.itinerary between next.itinerary ≤ next.stopover.maxWait

/-- A single itinerary is feasible. -/
theorem feasible_singleton (direction : Direction) (part : Part) :
    Feasible direction [part] := by
  constructor
  · simp
  · intro front a b back h
    have hlength := congrArg List.length h
    simp at hlength
    omega
  · intro front ride between next back h
    have hlength := congrArg List.length h
    simp at hlength
    omega

/-- The front of a feasible combination is feasible. -/
theorem Feasible.of_append {direction : Direction} {front back : List Part}
    (h : Feasible direction (front ++ back)) (hne : front ≠ []) : Feasible direction front := by
  refine ⟨hne, fun heq => ?_, fun heq hride hnext hbetween => ?_⟩
  · exact h.touches (by rw [heq, List.append_assoc, List.cons_append, List.cons_append])
  · exact h.fits (by simp [heq]; rfl) hride hnext hbetween

/-- A longer combination is feasible exactly if the shorter one is and the last itinerary
continues it. -/
theorem feasible_concat_iff {direction : Direction} {parts : List Part} {next : Part}
    (hne : parts ≠ []) :
    Feasible direction (parts ++ [next]) ↔
      Feasible direction parts ∧ Continues direction parts next := by
  constructor
  · intro h
    refine ⟨h.of_append hne, fun heq => ?_, fun heq hride hnext hbetween => ?_⟩
    · exact h.touches (by rw [heq, List.append_assoc, List.cons_append, List.nil_append])
    · exact h.fits (by rw [heq, List.append_assoc, List.cons_append]) hride hnext hbetween
  · rintro ⟨h, hnext⟩
    refine ⟨by simp, ?_, ?_⟩
    · intro front a b back heq
      have hassoc : parts ++ [next] = (front ++ [a]) ++ b :: back := by simpa using heq
      rcases concat_eq_append_cons hassoc with ⟨-, hfront, rfl⟩ | ⟨rest, -, hrest⟩
      · exact hnext.touches hfront
      · exact h.touches (by simpa using hrest)
    · intro front ride between last back heq
      have hassoc : parts ++ [next] = (front ++ ride :: between) ++ last :: back := by
        simpa using heq
      rcases concat_eq_append_cons hassoc with ⟨-, hfront, rfl⟩ | ⟨rest, -, hrest⟩
      · exact hnext.fits hfront
      · exact h.fits (by simpa using hrest)

namespace Sequence

/-- A sequence and the combination it holds: the growing end is as far behind the last ride
as what lies behind that ride takes to cross. -/
structure Tracks (direction : Direction) (stops : List Stopover) (s : Sequence) : Prop where
  /-- It grows in the direction. -/
  direction_eq : s.direction = direction
  /-- It has grown by extensions. -/
  grown : s.Grown
  /-- There is a stopover for each of its itineraries. -/
  length_le : s.grown.length ≤ stops.length
  /-- The growing end is passed after what has been crossed since the last ride. -/
  frontier : ∀ {front ride between}, parts stops s.grown = front ++ ride :: between →
    ride.itinerary.isStreetOnly = false →
    (∀ part ∈ between, part.itinerary.isStreetOnly = true) →
    s.frontierTime.nanos = (direction.farTime ride.itinerary.toItinerary).nanos +
      direction.sign * (between.map Part.crossing).sum

namespace Tracks

variable {direction : Direction} {stops : List Stopover} {s t : Sequence} {stop : Stopover}
  {next : Candidate}

/-- The itineraries of the combination are those of the sequence. -/
theorem map_itinerary (h : Tracks direction stops s) :
    (parts stops s.grown).map Part.itinerary = s.grown :=
  map_itinerary_parts h.length_le

/-- The combination ends with the itinerary at the growing end. -/
theorem last_eq (h : Tracks direction stops s) {front : List Part} {a : Part}
    (hparts : parts stops s.grown = front ++ [a]) : s.last = a.itinerary := by
  have hgrown := h.map_itinerary
  rw [hparts, List.map_append, List.map_singleton] at hgrown
  have hlast := s.getLast?_grown
  rw [← hgrown, List.getLast?_concat] at hlast
  exact (Option.some.inj hlast).symm

/-- There is an itinerary at the growing end. -/
theorem exists_last (h : Tracks direction stops s) :
    ∃ front a, parts stops s.grown = front ++ [a] := by
  rcases List.eq_nil_or_concat (parts stops s.grown) with hnil | ⟨front, a, hconcat⟩
  · have hgrown := h.map_itinerary
    rw [hnil] at hgrown
    cases hgrown
  · exact ⟨front, a, by simpa using hconcat⟩

/-- Every part of the combination is an itinerary of the sequence. -/
theorem mem_grown (h : Tracks direction stops s) {part : Part}
    (hpart : part ∈ parts stops s.grown) : part.itinerary ∈ s.grown := by
  have hmem := List.mem_map_of_mem (f := Part.itinerary) hpart
  rwa [h.map_itinerary] at hmem

/-- A sequence with a ride is not on the street only. -/
theorem streetOnly_eq_false_of_mem (h : Tracks direction stops s) {part : Part}
    (hpart : part ∈ parts stops s.grown) (hride : part.itinerary.isStreetOnly = false) :
    s.streetOnly = false := by
  rw [h.grown.streetOnly_eq, List.all_eq_false]
  exact ⟨part.itinerary, h.mem_grown hpart, by simp [hride]⟩

/-- A sequence that is not on the street only has a last ride. -/
theorem exists_last_ride (h : Tracks direction stops s) (hscheduled : s.streetOnly = false) :
    ∃ front ride between, parts stops s.grown = front ++ ride :: between ∧
      ride.itinerary.isStreetOnly = false ∧
      ∀ part ∈ between, part.itinerary.isStreetOnly = true := by
  apply exists_last_of_mem
  rw [h.grown.streetOnly_eq, List.all_eq_false, ← h.map_itinerary] at hscheduled
  obtain ⟨c, hc, hride⟩ := hscheduled
  obtain ⟨part, hpart, rfl⟩ := List.mem_map.1 hc
  exact ⟨part, hpart, by simpa using hride⟩

/-- The wait that is left by two schedules is the time between the two rides, less what has
been crossed since the first one. -/
theorem scheduledWait_eq (h : Tracks direction stops s) (hnext : next.Linear)
    {front between : List Part} {ride : Part}
    (hparts : parts stops s.grown = front ++ ride :: between)
    (hride : ride.itinerary.isStreetOnly = false)
    (hbetween : ∀ part ∈ between, part.itinerary.isStreetOnly = true) :
    s.scheduledWait next = slack direction ride.itinerary between next := by
  have hmem : ride ∈ parts stops s.grown := by simp [hparts]
  have hlinear := h.grown.linear_of_mem _ (h.mem_grown hmem)
  have hnear := direction.nearTime_linear hnext
  have hfar := direction.farTime_linear hlinear
  have hfrontier := h.frontier hparts hride hbetween
  unfold scheduledWait slack
  rw [h.direction_eq, Instant.since_eq hnear h.grown.linear.2, Instant.since_eq hnear hfar,
    hfrontier]
  cases direction <;> simp only [Direction.sign] <;> omega

/-- An itinerary that extends a sequence continues its combination. -/
theorem continues_of_extend (h : Tracks direction stops s) (hnext : next.Linear)
    (hok : s.extend next stop.minWait stop.maxWait = .ok (some t)) :
    Continues direction (parts stops s.grown) ⟨stop, next⟩ := by
  obtain ⟨htouches, hextends⟩ := extend_cases hok
  constructor
  · intro front a hparts
    rw [frontierPlace, h.direction_eq, h.last_eq hparts] at htouches
    exact htouches
  · intro front ride between hparts hride hrides hbetween
    have hmem : ride ∈ parts stops s.grown := by simp [hparts]
    have hscheduled := h.streetOnly_eq_false_of_mem hmem hride
    rw [← h.scheduledWait_eq hnext hparts hride hbetween]
    cases hextends with
    | follows hstreet => rw [hrides] at hstreet; cases hstreet
    | meets _ hstreet => rw [hscheduled] at hstreet; cases hstreet
    | connects _ _ hmin hmax => exact ⟨hmin, hmax⟩

/-- An itinerary that does not extend a sequence does not continue its combination. -/
theorem not_continues_of_extend (h : Tracks direction stops s) (hnext : next.Linear)
    (hok : s.extend next stop.minWait stop.maxWait = .ok none) :
    ¬Continues direction (parts stops s.grown) ⟨stop, next⟩ := by
  intro hcontinues
  rcases not_extended hok with hapart | ⟨hrides, hscheduled, hbounds⟩
  · obtain ⟨front, a, hparts⟩ := h.exists_last
    have htouches := hcontinues.touches hparts
    rw [frontierPlace, h.direction_eq, h.last_eq hparts, htouches] at hapart
    cases hapart
  · obtain ⟨front, ride, between, hparts, hride, hbetween⟩ := h.exists_last_ride hscheduled
    rw [h.scheduledWait_eq hnext hparts hride hbetween] at hbounds
    exact hbounds (hcontinues.fits hparts hride hrides hbetween)

/-- A single itinerary tracks itself. -/
theorem single (direction : Direction) (hstop : stops[0]? = some stop) (hnext : next.Linear) :
    Tracks direction stops (.single direction next) := by
  have hparts : parts stops (Sequence.single direction next).grown = [⟨stop, next⟩] :=
    parts_singleton next hstop
  have hlength : 0 < stops.length := (List.getElem?_eq_some_iff.1 hstop).1
  refine ⟨rfl, .single hnext, hlength, ?_⟩
  intro front ride between heq _ _
  have hone : [] ++ [⟨stop, next⟩] = front ++ ride :: between := by rw [← heq, hparts]; rfl
  rcases concat_eq_append_cons hone with ⟨rfl, -, rfl⟩ | ⟨rest, -, hnil⟩
  · simp [Sequence.single]
  · simp at hnil

/-- An extended sequence tracks the combination with the itinerary that extends it. -/
theorem extend (h : Tracks direction stops s) (hstop : stops[s.grown.length]? = some stop)
    (hnext : next.Linear) (hok : s.extend next stop.minWait stop.maxWait = .ok (some t)) :
    t.grown = s.grown ++ [next] ∧ Tracks direction stops t := by
  have hextends := (extend_cases hok).2
  have ht : t.Grown := h.grown.extend hnext stop.minWait_nonneg hok
  obtain ⟨wait, origin, frontier, hpush, -⟩ := hextends.eq_push
  have hgrown : t.grown = s.grown ++ [next] := by rw [hpush, push_grown]
  have hlength : s.grown.length < stops.length := (List.getElem?_eq_some_iff.1 hstop).1
  refine ⟨hgrown, by rw [hpush, push_direction, h.direction_eq], ht, by simpa [hgrown], ?_⟩
  intro front ride between hparts hride hbetween
  rw [hgrown, parts_concat next hstop] at hparts
  rcases concat_eq_append_cons hparts with ⟨rfl, -, rfl⟩ | ⟨rest, rfl, hrest⟩
  · -- The new itinerary is the last ride, so its own far end is the growing end.
    cases hextends with
    | follows hstreet => rw [hride] at hstreet; cases hstreet
    | meets => simp [h.direction_eq]
    | connects => simp [h.direction_eq]
  · -- The last ride is an earlier one, so the new itinerary slides behind the growing end.
    have hmem : ride ∈ parts stops s.grown := by simp [hrest]
    have hscheduled := h.streetOnly_eq_false_of_mem hmem hride
    have hstreet := hbetween ⟨stop, next⟩ (by simp)
    have hbefore := h.frontier hrest hride fun part hpart => hbetween part (by simp [hpart])
    cases hextends with
    | follows _ hshift =>
      have hmoved := (h.grown.linear.2.shift_eq_ok_iff.1 hshift).1
      rw [push_frontierTime, hmoved, hbefore, h.direction_eq, List.map_append, List.sum_append]
      simp only [List.map_singleton, List.sum_singleton, Part.crossing]
      cases direction <;> simp only [Direction.sign] <;> omega
    | meets hrides => rw [hstreet] at hrides; cases hrides
    | connects hrides => rw [hstreet] at hrides; cases hrides

end Tracks

end Sequence

end JourneyPlanner.Composition
