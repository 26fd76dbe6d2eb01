import JourneyPlanner.Proofs.BothDirections

/-!
# One journey in both directions

From the fixed end up to the first ride, and from the last ride on to the growing end, a sequence
takes what its itineraries and the shortest waits between them take. Those sums are the same from
the other end, so a journey with a ride starts and ends at the same times in both directions, and
one without takes as long. Where the longest wait exceeds the shortest by as much at each stopover,
a list composes in both directions or in neither.
-/

namespace JourneyPlanner.Composition

open Journey (Stopover)

/-! ### The time along a list -/

/-- What itineraries on the street and the shortest waits at stopovers take together. -/
def timeAlong (stops : List Stopover) (members : List Candidate) : Int :=
  (members.map fun c => c.duration).sum + (stops.map Stopover.minWait).sum

/-- It takes as long from the other end. -/
@[simp] theorem timeAlong_reverse (stops : List Stopover) (members : List Candidate) :
    timeAlong stops.reverse members.reverse = timeAlong stops members := by
  simp [timeAlong, List.sum_reverse]

/-- One more stopover takes its shortest wait. -/
theorem timeAlong_stop (stops : List Stopover) (stop : Stopover) (members : List Candidate) :
    timeAlong (stops ++ [stop]) members = timeAlong stops members + stop.minWait := by
  simp only [timeAlong, List.map_append, List.sum_append, List.map_singleton, List.sum_singleton]
  omega

/-- One more itinerary takes its duration. -/
theorem timeAlong_member (stops : List Stopover) (members : List Candidate) (next : Candidate) :
    timeAlong stops (members ++ [next]) = timeAlong stops members + next.duration := by
  simp only [timeAlong, List.map_append, List.sum_append, List.map_singleton, List.sum_singleton]
  omega

/-- What is crossed along parts takes the time along their stopovers and itineraries. -/
theorem sum_crossing_parts {stops : List Stopover} {members : List Candidate}
    (hlength : stops.length = members.length) :
    ((parts stops members).map Part.crossing).sum = timeAlong stops members := by
  have hsum : ((parts stops members).map Part.crossing).sum =
      ((parts stops members).map fun part => part.stopover.minWait).sum +
        ((parts stops members).map fun part => part.itinerary.duration).sum :=
    List.sum_map_add
  have hwaits := map_stopover_parts (Nat.le_of_eq hlength)
  have hmembers := map_itinerary_parts (Nat.le_of_eq hlength.symm)
  have hstops : (parts stops members).map (fun part => part.stopover.minWait) =
      stops.map Stopover.minWait := by
    conv_rhs => rw [← hwaits]
    rw [List.map_map]
    rfl
  have hdurations : (parts stops members).map (fun part => part.itinerary.duration) =
      members.map fun c => c.duration := by
    conv_rhs => rw [← hmembers]
    rw [List.map_map]
    rfl
  rw [hsum, hstops, hdurations, timeAlong]
  omega

@[simp] theorem Sequence.push_originTime (s : Sequence) (wait : Int) (next : Candidate)
    (origin frontier : Instant) : (s.push wait next origin frontier).originTime = origin := rfl

namespace Sequence.Over

variable {direction : Direction} {stops : List Stopover} {members front back : List Candidate}
  {ride : Candidate} {s s' : Sequence}

/-- A sequence stays on the street exactly if each itinerary of its list does. -/
theorem streetOnly_eq (h : Over direction stops members s) :
    s.streetOnly = members.all fun c => c.isStreetOnly := by
  rw [h.grows.streetOnly_eq, h.grown_eq]

/-- On the street it takes from one end to the other what the list takes. -/
theorem since_eq_of_street (h : Over direction stops members s)
    (hstreet : ∀ c ∈ members, c.isStreetOnly = true) :
    s.finish.since s.start = timeAlong stops members := by
  have hends : s.frontierTime.nanos =
      s.originTime.nanos + timeAlong stops members * direction.sign := by
    induction h with
    | @single first hfirst =>
      have hends := direction.farTime_nanos hfirst
      simpa [timeAlong, Sequence.single] using hends
    | @extend stops members s t stop next hs hnext hok ih =>
      rw [List.forall_mem_append, List.forall_mem_singleton] at hstreet
      have hbefore := ih hstreet.1
      cases (extend_cases hok).2 with
      | follows _ hfrontier =>
        have hshift := (hs.grows.linear.2.shift_eq_ok_iff.1 hfrontier).1
        rw [hs.direction_eq] at hshift
        rw [timeAlong_member, timeAlong_stop, Int.add_mul, Int.add_mul]
        rw [Int.add_mul] at hshift
        simp only [push_frontierTime, push_originTime]
        omega
      | meets hride => simp [hstreet.2] at hride
      | connects hride => simp [hstreet.2] at hride
  have hspan := frontierTime_nanos h.grows.linear.1 h.grows.linear.2
  rw [h.direction_eq] at hspan
  cases direction
  · simp only [Direction.sign] at hspan hends
    omega
  · simp only [Direction.sign] at hspan hends
    omega

/-- The fixed end is passed so long before the first ride as what lies in front of it takes. -/
theorem originTime_nanos (h : Over direction stops members s)
    (hmembers : members = front ++ ride :: back) (hfront : ∀ c ∈ front, c.isStreetOnly = true)
    (hride : ride.isStreetOnly = false) :
    s.originTime.nanos = (direction.nearTime ride.toItinerary).nanos -
      direction.sign * timeAlong (stops.take front.length) front := by
  induction h generalizing back with
  | @single first hfirst =>
    have hlength := congrArg List.length hmembers
    simp only [List.length_append, List.length_cons, List.length_nil] at hlength
    obtain rfl : front = [] := List.length_eq_zero_iff.1 (by omega)
    obtain ⟨rfl, -⟩ := List.cons.inj hmembers
    simp [Sequence.single, timeAlong]
  | @extend stops members s t stop next hs hnext hok ih =>
    have hlength := hs.length_eq
    have hext := (extend_cases hok).2
    rcases concat_eq_append_cons hmembers with ⟨-, rfl, rfl⟩ | ⟨rest, rfl, hrest⟩
    · -- The ride has just been joined to a sequence on the street, which was moved to meet it.
      have hstreet : s.streetOnly = true := by
        rw [hs.streetOnly_eq, List.all_eq_true]
        exact hfront
      cases hext with
      | follows hnextStreet => simp [hride] at hnextStreet
      | meets _ _ horigin =>
        have hnear := direction.nearTime_linear hnext
        rw [hs.direction_eq, hs.since_eq_of_street hfront] at horigin
        have hshift := (hnear.shift_eq_ok_iff.1 horigin).1
        rw [List.take_of_length_le (by simp [← hlength]), timeAlong_stop, push_originTime, hshift,
          Int.mul_comm, Int.add_comm stop.minWait]
        rfl
      | connects _ hscheduled => simp [hstreet] at hscheduled
    · -- The ride was there before, so the fixed end stays where it was.
      have hscheduled : s.streetOnly = false := by
        rw [hs.streetOnly_eq, hrest, List.all_eq_false]
        exact ⟨ride, by simp, by simp [hride]⟩
      have hcount := congrArg List.length hrest
      simp only [List.length_append, List.length_cons] at hcount
      rw [List.take_append_of_le_length (by omega), ← ih hrest]
      cases hext with
      | follows => rfl
      | meets _ hstreet => simp [hscheduled] at hstreet
      | connects => rfl

/-- The growing end is passed so long behind the last ride as what lies behind it takes. -/
theorem frontierTime_nanos_of_ride (h : Over direction stops members s)
    (hmembers : members = front ++ ride :: back) (hback : ∀ c ∈ back, c.isStreetOnly = true)
    (hride : ride.isStreetOnly = false) :
    s.frontierTime.nanos = (direction.farTime ride.toItinerary).nanos +
      direction.sign * timeAlong (stops.drop front.length) back := by
  have hlength := h.length_eq
  have hgrown := h.grown_eq
  rw [hmembers] at hlength hgrown
  simp only [List.length_append, List.length_cons] at hlength
  have htracks : Tracks direction (.atEnd (.ofPlace ride.origin) :: stops) s := h.tracks
  have htaken : (stops.take front.length).length = front.length := by simp; omega
  obtain ⟨before, stop, hparts⟩ := exists_parts_behind (.atEnd (.ofPlace ride.origin)) front back
    ride (stops.drop front.length) htaken
  rw [List.take_append_drop, ← hgrown] at hparts
  have hcrossed : ∀ part ∈ parts (stops.drop front.length) back,
      part.itinerary.isStreetOnly = true := by
    intro part hpart
    have hmem := List.mem_map_of_mem (f := Part.itinerary) hpart
    rw [map_itinerary_parts (by simp; omega)] at hmem
    exact hback _ hmem
  rw [htracks.frontier hparts hride hcrossed, sum_crossing_parts (by simp; omega)]

/-- With a ride, the fixed end of a sequence is passed when the growing end of the sequence is that
comes from the other end. -/
theorem originTime_eq_frontierTime (h : Over direction stops members s)
    (h' : Over direction.opposite stops.reverse members.reverse s')
    (hride : ∃ c ∈ members, c.isStreetOnly = false) : s.originTime = s'.frontierTime := by
  obtain ⟨behind, ride, before, hsplit, hrides, hbefore⟩ :=
    @exists_last_of_mem _ (fun c : Candidate => c.isStreetOnly) members.reverse
      (by simpa using hride)
  have hmembers : members = before.reverse ++ ride :: behind.reverse := by
    rw [← List.reverse_reverse members, hsplit]
    simp
  have hlength := h.length_eq
  rw [hmembers] at hlength
  simp only [List.length_append, List.length_cons, List.length_reverse] at hlength
  have horigin := h.originTime_nanos hmembers (by simpa using hbefore) hrides
  have hfrontier := h'.frontierTime_nanos_of_ride hsplit hbefore hrides
  have hstops : stops.reverse.drop behind.length = (stops.take before.length).reverse := by
    rw [List.drop_reverse]
    congr 2
    omega
  have hsame : timeAlong (stops.take before.length).reverse before =
      timeAlong (stops.take before.length) before.reverse := by
    rw [← timeAlong_reverse, List.reverse_reverse]
  rw [List.length_reverse] at horigin
  rw [hstops, hsame, Direction.sign_opposite, direction.opposite.farTime_eq,
    direction.opposite_opposite] at hfrontier
  refine h.grows.linear.1.eq_of_nanos_eq h'.grows.linear.2 ?_
  rw [horigin, hfrontier, Int.neg_mul]
  omega

end Sequence.Over

/-! ### The journey from both ends -/

namespace Sequence

variable {stops : List Stopover} {members : List Candidate} {s s' : Sequence}

/-- A sequence for a departure and one for an arrival make the same journey of the same
itineraries. -/
structure SameJourney (stops : List Stopover) (members : List Candidate) (s s' : Sequence) :
    Prop where
  /-- Both take the same time. -/
  duration_eq : s'.finish.since s'.start = s.finish.since s.start
  /-- If a member rides, both start at the same time. -/
  start_eq : (∃ c ∈ members, c.isStreetOnly = false) → s'.start = s.start
  /-- If a member rides, both end at the same time. -/
  finish_eq : (∃ c ∈ members, c.isStreetOnly = false) → s'.finish = s.finish
  /-- If a member rides, the itineraries of both are timed alike. -/
  travelAlike : (∃ c ∈ members, c.isStreetOnly = false) →
    ∀ identity identity' flat flat', s.flatten identity = .ok flat →
      s'.flatten identity' = .ok flat' →
      TravelAlike stops members flat.toItinerary flat'.toItinerary
  /-- Neither is refused when it is flattened. -/
  not_refused : ∀ identity reason,
    s.flatten identity ≠ .error (.refused reason) ∧ s'.flatten identity ≠ .error (.refused reason)

/-- Sequences over the same itineraries that grow in opposite directions make the same journey. -/
theorem sameJourney_of_over (h : Over .departAt stops members s)
    (h' : Over .arriveBy stops.reverse members.reverse s') (hlinear : ∀ c ∈ members, c.Linear) :
    SameJourney stops members s s' := by
  have hdirection := h.direction_eq
  have hdirection' := h'.direction_eq
  have hstart : (∃ c ∈ members, c.isStreetOnly = false) → s'.start = s.start := by
    intro hride
    unfold start
    rw [hdirection, hdirection']
    exact (h.originTime_eq_frontierTime h' hride).symm
  have hfinish : (∃ c ∈ members, c.isStreetOnly = false) → s'.finish = s.finish := by
    intro hride
    have hback : Over Direction.arriveBy.opposite stops.reverse.reverse members.reverse.reverse
        s := by
      rw [List.reverse_reverse, List.reverse_reverse]
      exact h
    unfold finish
    rw [hdirection, hdirection']
    exact h'.originTime_eq_frontierTime hback (by simpa using hride)
  refine
    { duration_eq := ?_
      start_eq := hstart
      finish_eq := hfinish
      travelAlike := fun hride _ _ _ _ hok hok' =>
        travelAlike_of_flatten h h' hlinear hride hok hok'
      not_refused := fun identity reason =>
        ⟨h.grows.not_refused identity reason, h'.grows.not_refused identity reason⟩ }
  by_cases hride : ∃ c ∈ members, c.isStreetOnly = false
  · rw [hstart hride, hfinish hride]
  · -- Without a ride both take what their list takes.
    have hstreet : ∀ c ∈ members, c.isStreetOnly = true := by simpa using hride
    rw [h.since_eq_of_street hstreet, h'.since_eq_of_street (by simpa using hstreet),
      timeAlong_reverse]

/-- If the longest wait exceeds the shortest by as much at each stopover, itineraries compose in
both directions or in neither, unless a time leaves the calendar. Whatever the waits are, whenever
itineraries compose in both directions, they make the same journey. -/
theorem directions_make_same_journey (hlength : stops.length + 1 = members.length)
    (hlinear : ∀ c ∈ members, c.Linear) :
    ((∀ stop ∈ stops, ∀ stop' ∈ stops, stop.leeway = stop'.leeway) →
      (∀ cause, composeAlong .departAt stops members ≠ .error cause) →
      (∀ cause, composeAlong .arriveBy stops members ≠ .error cause) →
      ((∃ s, composeAlong .departAt stops members = .ok (some s)) ↔
        ∃ s', composeAlong .arriveBy stops members = .ok (some s'))) ∧
    ∀ s s', composeAlong .departAt stops members = .ok (some s) →
      composeAlong .arriveBy stops members = .ok (some s') → SameJourney stops members s s' := by
  constructor
  · intro hleeway hfault hfault'
    obtain ⟨result, hresult⟩ := exists_ok hfault
    obtain ⟨result', hresult'⟩ := exists_ok hfault'
    obtain ⟨leeway, hsame⟩ : ∃ leeway, ∀ stop ∈ stops, stop.leeway = leeway := by
      cases stops with
      | nil => exact ⟨0, by simp⟩
      | cons first rest =>
        exact ⟨first.leeway, fun stop hstop => hleeway stop hstop first (by simp)⟩
    have hbalanced : ∀ stretch : Stretch, stretch.Along stops members → stretch.Balanced :=
      fun stretch halong => halong.balanced hsame
    have hboth := composed_iff_of_balanced hlength hlinear hbalanced hresult hresult'
    simpa [hresult, hresult', Option.isSome_iff_exists] using hboth
  · intro s s' hok hok'
    exact sameJourney_of_over (over_of_composeAlong hlength hlinear hok)
      (over_of_composeAlong hlength hlinear hok') hlinear

/-- One of the stops in a row, where up to an hour may be waited longer than needed. -/
private def stopWithHour (index : Fin 4) (shortest : Nat) : Stopover where
  location := .ofPlace (.inRow index)
  minWait := Span.minutes shortest
  maxWait := Span.minutes (shortest + 60)
  minWait_nonneg := by unfold Span.minutes Span.minute Span.second Span.millisecond; omega
  minWait_le_maxWait := by unfold Span.minutes Span.minute Span.second Span.millisecond; omega

/-- Two buses with a walk in front of each and one at the end. -/
private def walksAndBuses : List Candidate :=
  [between .walk 0 1 400 410, between .bus 1 2 480 500, between .walk 2 3 600 610,
    between .bus 3 0 540 560, between .walk 0 1 700 705]

/-- The stops between them. -/
private def stopsWithHour : List Stopover :=
  [stopWithHour 1 5, stopWithHour 2 0, stopWithHour 3 3, stopWithHour 0 2]

/-- The walks and buses compose in both directions and make the same journey. -/
theorem walksAndBuses_make_same_journey : stopsWithHour.length + 1 = walksAndBuses.length ∧
    (∀ c ∈ walksAndBuses, c.Linear) ∧ (∃ c ∈ walksAndBuses, c.isStreetOnly = false) ∧
    ∃ s s', composeAlong .departAt stopsWithHour walksAndBuses = .ok (some s) ∧
      composeAlong .arriveBy stopsWithHour walksAndBuses = .ok (some s') ∧
      SameJourney stopsWithHour walksAndBuses s s' := by
  have hlength : stopsWithHour.length + 1 = walksAndBuses.length := rfl
  have hlinear : ∀ c ∈ walksAndBuses, c.Linear := by decide
  have hleeway : ∀ stop ∈ stopsWithHour, ∀ stop' ∈ stopsWithHour,
      stop.leeway = stop'.leeway := by decide
  obtain ⟨hboth, hsame⟩ := directions_make_same_journey hlength hlinear
  have hiff := hboth hleeway (ne_error_of_toBool (by decide)) (ne_error_of_toBool (by decide))
  obtain ⟨s, hs⟩ : ∃ s, composeAlong .departAt stopsWithHour walksAndBuses = .ok (some s) :=
    ⟨_, rfl⟩
  obtain ⟨s', hs'⟩ := hiff.1 ⟨s, hs⟩
  exact ⟨hlength, hlinear, by decide, s, s', hs, hs', hsame s s' hs hs'⟩

end Sequence

end JourneyPlanner.Composition
