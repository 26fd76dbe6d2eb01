import JourneyPlanner.Proofs.Stretches

/-!
# Waits along a list

A sequence that has grown over a list of itineraries keeps the shortest wait wherever one of the two
sides of a stopover has not ridden yet or stays on the street. Only in front of the second of two
consecutive rides is the wait longer, and there it is so by all the time to spare between them.
Seen from the other end of the list, the shortest waits are behind the members on the street
instead of in front of them.
-/

namespace JourneyPlanner.Composition

open Journey (Stopover)

namespace Stretch.At

variable {stops : List Stopover} {members : List Candidate} {position : Nat} {stretch : Stretch}

/-- Behind the first ride come the members between the rides, which stay on the street. -/
theorem exists_between (h : stretch.At stops members position) {index : Nat}
    (hfirst : position < index) (hlast : index ≤ position + stretch.between.length) :
    ∃ c, members[index]? = some c ∧ c.isStreetOnly = true := by
  obtain ⟨front, back, -, -, rfl, -, rfl, -⟩ := h
  obtain ⟨offset, rfl⟩ : ∃ offset, index = front.length + (offset + 1) :=
    ⟨index - front.length - 1, by omega⟩
  have hoffset : offset < stretch.between.length := by omega
  refine ⟨stretch.between[offset], ?_, stretch.between_street _ (List.getElem_mem hoffset)⟩
  rw [List.getElem?_append_right (by omega), Nat.add_sub_cancel_left, List.getElem?_cons_succ,
    List.getElem?_append_left hoffset, List.getElem?_eq_getElem hoffset]

/-- Behind these comes the second ride. -/
theorem getElem?_next (h : stretch.At stops members position) :
    members[position + stretch.between.length + 1]? = some stretch.next := by
  obtain ⟨front, back, -, -, rfl, -, rfl, -⟩ := h
  rw [Nat.add_assoc, List.getElem?_append_right (by omega), Nat.add_sub_cancel_left,
    List.getElem?_cons_succ, List.getElem?_append_right (by omega), Nat.sub_self]
  rfl

/-- The last stopover is in front of the second ride. -/
theorem getElem?_lastStop (h : stretch.At stops members position) :
    stops[position + stretch.between.length]? = some stretch.lastStop := by
  obtain ⟨-, -, stopsFront, stopsBack, -, rfl, -, rfl⟩ := h
  have hlength := stretch.length_stops
  rw [List.getElem?_append_right (by omega), Nat.add_sub_cancel_left,
    List.getElem?_append_left (by omega), lastStop, List.getLast_eq_getElem,
    ← List.getElem?_eq_getElem]
  congr 1
  omega

/-- A stretch of a list with one more itinerary ends at that one, or is a stretch of the list. -/
theorem concat_cases {last : Stopover} {added : Candidate}
    (hlength : stops.length + 1 = members.length)
    (h : stretch.At (stops ++ [last]) (members ++ [added]) position) :
    (last = stretch.lastStop ∧ added = stretch.next ∧ ∃ front stopsFront,
      members = front ++ stretch.ride :: stretch.between ∧
      stops = stopsFront ++ stretch.stops.dropLast ∧
      front.length = position ∧ stopsFront.length = front.length) ∨
    stretch.At stops members position := by
  obtain ⟨front, back, stopsFront, stopsBack, hmembers, hstops, rfl, hfront⟩ := h
  have hcrossed := stretch.length_stops
  have hcount := congrArg List.length hstops
  simp only [List.length_append, List.length_singleton] at hcount
  have hassoc : members ++ [added] =
      (front ++ stretch.ride :: stretch.between) ++ stretch.next :: back := by
    simpa using hmembers
  rcases concat_eq_append_cons hassoc with ⟨rfl, hbefore, rfl⟩ | ⟨rest, rfl, hbefore⟩
  · have hmembersCount := congrArg List.length hbefore
    simp only [List.length_append, List.length_cons] at hmembersCount
    obtain rfl : stopsBack = [] := List.length_eq_zero_iff.1 (by omega)
    have hstopsAssoc : stops ++ [last] =
        (stopsFront ++ stretch.stops.dropLast) ++ [stretch.lastStop] := by
      rw [hstops, List.append_nil, List.append_assoc]
      exact congrArg _ (List.dropLast_append_getLast stretch.stops_ne_nil).symm
    obtain ⟨hstopsBefore, hlast⟩ := List.append_inj' hstopsAssoc rfl
    exact Or.inl ⟨List.singleton_inj.1 hlast, rfl, front, stopsFront, hbefore, hstopsBefore,
      rfl, hfront⟩
  · have hmembersCount := congrArg List.length hbefore
    simp only [List.length_append, List.length_cons] at hmembersCount
    rcases List.eq_nil_or_concat stopsBack with rfl | ⟨stopsRest, stop, rfl⟩
    · simp only [List.length_nil] at hcount
      omega
    · have hstopsAssoc : stops ++ [last] =
          (stopsFront ++ (stretch.stops ++ stopsRest)) ++ [stop] := by
        simpa using hstops
      obtain ⟨hstopsBefore, -⟩ := List.append_inj' hstopsAssoc rfl
      exact Or.inr ⟨front, rest, stopsFront, stopsRest, by simpa using hbefore, hstopsBefore,
        rfl, hfront⟩

end Stretch.At

/-- A sequence keeps its waits when it is extended. -/
theorem Sequence.Extends.wait_eq {s t : Sequence} {next : Candidate} {minWait maxWait wait : Int}
    (h : s.Extends next minWait maxWait t) {index : Nat}
    (hwait : (s.links.map Link.wait)[index]? = some wait) :
    (t.links.map Link.wait)[index]? = some wait := by
  obtain ⟨added, origin, frontier, rfl, -, -⟩ := h.eq_push
  rw [push_links, List.map_append, List.getElem?_append_left (List.getElem?_eq_some_iff.1 hwait).1]
  exact hwait

namespace Sequence.Over

variable {direction : Direction} {stops : List Stopover} {members : List Candidate}
  {s s' : Sequence}

/-- The wait at which an itinerary is joined is the shortest one, unless the itinerary rides and
so does one of those in front of it. -/
theorem wait_eq (h : Over direction stops members s) {index : Nat} {stop : Stopover}
    {next : Candidate} (hstop : stops[index]? = some stop) (hnext : members[index + 1]? = some next)
    (hfree : next.isStreetOnly = true ∨ ∀ c ∈ members.take (index + 1), c.isStreetOnly = true) :
    (s.links.map Link.wait)[index]? = some stop.minWait := by
  induction h with
  | single => simp at hstop
  | @extend stops members s t last added hs hadded hok ih =>
    have hext := (extend_cases hok).2
    have hlength := hs.length_eq
    have hlinks := hs.length_links
    by_cases hearlier : index < stops.length
    · rw [List.getElem?_append_left hearlier] at hstop
      rw [List.getElem?_append_left (by omega)] at hnext
      rw [List.take_append_of_le_length (by omega)] at hfree
      exact hext.wait_eq (ih hstop hnext hfree)
    · -- The itinerary is the one that has been joined last.
      obtain rfl : index = stops.length := by
        have hindex := (List.getElem?_eq_some_iff.1 hstop).1
        rw [List.length_append, List.length_singleton] at hindex
        omega
      obtain rfl : last = stop := by simpa using hstop
      obtain rfl : added = next := by simpa [hlength] using hnext
      rw [hlength, List.take_left' rfl] at hfree
      have hwait : ∃ origin frontier, t = s.push last.minWait added origin frontier := by
        cases hext with
        | follows => exact ⟨_, _, rfl⟩
        | meets => exact ⟨_, _, rfl⟩
        | connects hride hscheduled =>
          rcases hfree with hstreet | hstreet
          · rw [hride] at hstreet
            cases hstreet
          · rw [hs.grows.streetOnly_eq, hs.grown_eq, List.all_eq_false] at hscheduled
            obtain ⟨c, hc, hcRide⟩ := hscheduled
            exact absurd (hstreet c hc) hcRide
      obtain ⟨origin, frontier, rfl⟩ := hwait
      simp [← hlinks]

/-- A ride that is joined behind a ride and members on the street waits for the shortest time and
all the time that is to spare. -/
theorem wait_of_extend {stretch : Stretch} {front : List Candidate} {stopsFront : List Stopover}
    (h : Over direction (stopsFront ++ stretch.stops.dropLast)
      (front ++ stretch.ride :: stretch.between) s)
    (hfront : stopsFront.length = front.length) (hlinear : stretch.next.Linear) {t : Sequence}
    (hok : s.extend stretch.next stretch.lastStop.minWait stretch.lastStop.maxWait =
      .ok (some t)) :
    (t.links.map Link.wait)[s.links.length]? =
      some (stretch.spare direction + stretch.lastStop.minWait) := by
  have htracks : Tracks direction (stretch.lastStop :: (stopsFront ++ stretch.stops.dropLast)) s :=
    h.tracks
  obtain ⟨before, stop, hparts⟩ : ∃ before stop,
      parts (stretch.lastStop :: (stopsFront ++ stretch.stops.dropLast)) s.grown =
        before ++ ⟨stop, stretch.ride⟩ :: stretch.crossed := by
    rw [h.grown_eq]
    exact exists_parts_behind _ front _ _ _ hfront
  have hwait := htracks.scheduledWait_eq hlinear hparts stretch.ride_rides stretch.crossed_street
  rw [stretch.slack_crossed] at hwait
  cases (extend_cases hok).2 with
  | follows hstreet =>
    rw [stretch.next_rides] at hstreet
    cases hstreet
  | meets _ hstreet =>
    have hmem : ⟨stop, stretch.ride⟩ ∈ parts
        (stretch.lastStop :: (stopsFront ++ stretch.stops.dropLast)) s.grown := by
      rw [hparts]
      simp
    rw [htracks.streetOnly_eq_false_of_mem hmem stretch.ride_rides] at hstreet
    cases hstreet
  | connects =>
    rw [← hwait]
    simp

/-- The wait in front of the second ride of a stretch is the shortest one and all the time that
is to spare. -/
theorem wait_of_stretch (h : Over direction stops members s) {stretch : Stretch} {position : Nat}
    (hat : stretch.At stops members position) :
    (s.links.map Link.wait)[position + stretch.between.length]? =
      some (stretch.spare direction + stretch.lastStop.minWait) := by
  induction h with
  | single =>
    obtain ⟨front, back, -, -, hmembers, -⟩ := hat
    have hcount := congrArg List.length hmembers
    simp at hcount
    omega
  | @extend stops members s t last added hs hadded hok ih =>
    rcases hat.concat_cases hs.length_eq with
      ⟨rfl, rfl, front, stopsFront, rfl, rfl, rfl, hfront⟩ | hearlier
    · have hlinks := hs.length_links
      have hcrossed := stretch.length_stops
      have hindex : front.length + stretch.between.length = s.links.length := by
        rw [hlinks, List.length_append, List.length_dropLast, hfront]
        omega
      rw [hindex]
      exact hs.wait_of_extend hfront hadded hok
    · exact (extend_cases hok).2.wait_eq (ih hearlier)

/-- Where a street-only member is joined from behind, the wait behind it is the shortest one. -/
theorem wait_behind_eq (h : Over direction stops.reverse members.reverse s)
    {index : Nat} {stop : Stopover} {c : Candidate} (hstop : stops[index]? = some stop)
    (hc : members[index]? = some c) (hstreet : c.isStreetOnly = true) :
    (s.links.map Link.wait).reverse[index]? = some stop.minWait := by
  have hlength := h.length_eq
  have hlinks := h.length_links
  rw [List.length_reverse] at hlinks
  rw [List.length_reverse, List.length_reverse] at hlength
  have hindex := (List.getElem?_eq_some_iff.1 hstop).1
  have hstop' : stops.reverse[stops.length - 1 - index]? = some stop := by
    rw [List.getElem?_reverse (by omega), ← hstop]
    congr 1
    omega
  have hc' : members.reverse[stops.length - 1 - index + 1]? = some c := by
    rw [List.getElem?_reverse (by omega), ← hc]
    congr 1
    omega
  have hwait := h.wait_eq hstop' hc' (Or.inl hstreet)
  have hcount : (s.links.map Link.wait).length = stops.length := by
    rw [List.length_map, hlinks]
  rw [List.getElem?_reverse (by omega), hcount]
  exact hwait

/-- Up to the first ride the waits are the shortest ones from either end. -/
theorem waits_eq (h : Over direction stops members s)
    (h' : Over direction.opposite stops.reverse members.reverse s') {index : Nat}
    (hthrough : ∀ c ∈ members.take (index + 1), c.isStreetOnly = true)
    (hbehind : index + 1 < members.length) :
    ∃ wait, (s.links.map Link.wait)[index]? = some wait ∧
      (s'.links.map Link.wait).reverse[index]? = some wait := by
  have hlength := h.length_eq
  have hstop : stops[index]? = some stops[index] := List.getElem?_eq_getElem (by omega)
  have hc : members[index]? = some members[index] := List.getElem?_eq_getElem (by omega)
  have hnext : members[index + 1]? = some members[index + 1] := List.getElem?_eq_getElem hbehind
  have hstreet : members[index].isStreetOnly = true :=
    hthrough _ (List.mem_take_iff_getElem.2 ⟨index, by omega, rfl⟩)
  exact ⟨stops[index].minWait, h.wait_eq hstop hnext (Or.inr hthrough),
    h'.wait_behind_eq hstop hc hstreet⟩

end Sequence.Over

end JourneyPlanner.Composition
