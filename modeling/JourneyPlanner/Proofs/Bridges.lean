import JourneyPlanner.Journey.Waypoint
import JourneyPlanner.Proofs.Flattening

/-!
# Sequences that bridge a route

A sequence that has been joined at the stopovers of a route passes them in order, and
waits at each for a time within its bounds. Flattening may move legs that have been
placed already, but neither their places nor the waits change, so the itinerary can be
cut into one run of legs for each itinerary of the sequence.
-/

namespace JourneyPlanner.Composition

open Journey (Stopover)

/-! ### Places of runs -/

/-- A moved leg connects the same places. -/
theorem places_of_shift {leg moved : Leg} {span : Int} (h : leg.shift span = .ok moved) :
    moved.origin = leg.origin ∧ moved.destination = leg.destination := by
  obtain ⟨start, finish, -, -, rfl⟩ := Leg.shift_eq_ok_iff.1 h
  exact ⟨rfl, rfl⟩

namespace MovedAs

variable {c : Candidate} {run : List Leg}

/-- A run starts where the member does. -/
theorem origin_eq (h : MovedAs c run) {leg : Leg} (hleg : run.head? = some leg) :
    leg.origin = c.origin := by
  obtain ⟨span, hmoved, -⟩ := h
  have hfirst : c.legs.head? = some c.firstLeg := List.head?_eq_some_head c.legs_ne_nil
  obtain ⟨first, hhead, hshift⟩ := head?_of_forall₂ (shiftLegs_eq_ok_iff.1 hmoved) hfirst
  obtain rfl : first = leg := Option.some.inj (hhead.symm.trans hleg)
  exact (places_of_shift hshift).1

/-- A run ends where the member does. -/
theorem destination_eq (h : MovedAs c run) {leg : Leg} (hleg : run.getLast? = some leg) :
    leg.destination = c.destination := by
  obtain ⟨span, hmoved, -⟩ := h
  have hlast : c.legs.getLast? = some c.lastLeg := List.getLast?_eq_some_getLast c.legs_ne_nil
  obtain ⟨last, hgetLast, hshift⟩ := getLast?_of_forall₂ (shiftLegs_eq_ok_iff.1 hmoved) hlast
  obtain rfl : last = leg := Option.some.inj (hgetLast.symm.trans hleg)
  exact (places_of_shift hshift).2

/-- An itinerary made of runs starts where its first member does. -/
theorem origin_flatten {members : List Candidate} {runs : List (List Leg)} {it : Itinerary}
    (h : List.Forall₂ MovedAs members runs) (hlegs : it.legs = runs.flatten)
    (hfirst : members.head? = some c) : it.origin = c.origin := by
  obtain ⟨run, hrun, hmoved⟩ := head?_of_forall₂ h hfirst
  obtain ⟨rest, rfl⟩ := List.head?_eq_some_iff.1 hrun
  have hhead : it.legs.head? = some it.firstLeg := List.head?_eq_some_head it.legs_ne_nil
  rw [hlegs, List.flatten_cons, List.head?_append_of_ne_nil _ hmoved.ne_nil] at hhead
  exact hmoved.origin_eq hhead

/-- An itinerary made of runs ends where its last member does. -/
theorem destination_flatten {members : List Candidate} {runs : List (List Leg)} {it : Itinerary}
    (h : List.Forall₂ MovedAs members runs) (hlegs : it.legs = runs.flatten)
    (hlast : members.getLast? = some c) : it.destination = c.destination := by
  obtain ⟨run, hrun, hmoved⟩ := getLast?_of_forall₂ h hlast
  obtain ⟨front, rfl⟩ := List.getLast?_eq_some_iff.1 hrun
  have hend : it.legs.getLast? = some it.lastLeg := List.getLast?_eq_some_getLast it.legs_ne_nil
  rw [hlegs, List.flatten_append, List.flatten_singleton,
    List.getLast?_append_of_ne_nil _ hmoved.ne_nil] at hend
  exact hmoved.destination_eq hend

end MovedAs

/-! ### Cuts -/

/-- The place at which a journey that grows had arrived when two legs were joined. -/
def Direction.reachedPlace (direction : Direction) (last next : Leg) : Place :=
  match direction with
  | .departAt => last.destination
  | .arriveBy => next.origin

/-- The place from which it went on. -/
def Direction.joinedPlace (direction : Direction) (last next : Leg) : Place :=
  match direction with
  | .departAt => next.origin
  | .arriveBy => last.destination

/-- Two runs of legs, the second travelled behind the first, meet at a stopover: they are joined
at one location, the one that was reached first is at the stopover, and the time between the
two lies within the bounds there. -/
def CutAt (direction : Direction) (stop : Stopover) (before after : List Leg) : Prop :=
  ∃ last next, before.getLast? = some last ∧ after.head? = some next ∧
    (direction.joinedPlace last next).sameLocation (direction.reachedPlace last next) = true ∧
    stop.location.isAt (direction.reachedPlace last next) = true ∧
    stop.minWait ≤ next.start.since last.finish ∧ next.start.since last.finish ≤ stop.maxWait

/-- An itinerary joins another at a stopover. -/
def JoinsAt (direction : Direction) (stop : Stopover) (c next : Candidate) : Prop :=
  (direction.nearPlace next.toItinerary).sameLocation (direction.farPlace c.toItinerary) = true ∧
    stop.location.isAt (direction.farPlace c.toItinerary) = true

/-- A wait lies within the bounds of a stopover. -/
def WaitsAt (stop : Stopover) (wait : Int) : Prop :=
  stop.minWait ≤ wait ∧ wait ≤ stop.maxWait

/-- Departing runs that join at a stopover are cut there. -/
theorem JoinsAt.cutAt_departAt {stop : Stopover} {wait : Int} {c next : Candidate}
    {placed added : List Leg} (h : JoinsAt .departAt stop c next) (hc : MovedAs c placed)
    (hnext : MovedAs next added) (hwait : WaitsAt stop wait)
    (hapart : Direction.departAt.Apart wait placed added) :
    CutAt .departAt stop placed added := by
  obtain ⟨last, first, hlast, hfirst, hspan⟩ := hapart.waitBetween_departAt
  refine ⟨last, first, hlast, hfirst, ?_, ?_, hspan ▸ hwait.1, hspan ▸ hwait.2⟩
  · rw [Direction.joinedPlace, Direction.reachedPlace, hc.destination_eq hlast,
      hnext.origin_eq hfirst]
    exact h.1
  · rw [Direction.reachedPlace, hc.destination_eq hlast]
    exact h.2

/-- Arriving runs that join at a stopover are cut there. -/
theorem JoinsAt.cutAt_arriveBy {stop : Stopover} {wait : Int} {c next : Candidate}
    {placed added : List Leg} (h : JoinsAt .arriveBy stop c next) (hc : MovedAs c placed)
    (hnext : MovedAs next added) (hwait : WaitsAt stop wait)
    (hapart : Direction.arriveBy.Apart wait placed added) :
    CutAt .arriveBy stop added placed := by
  obtain ⟨last, first, hlast, hfirst, hspan⟩ := hapart.waitBetween_arriveBy
  refine ⟨last, first, hlast, hfirst, ?_, ?_, hspan ▸ hwait.1, hspan ▸ hwait.2⟩
  · rw [Direction.joinedPlace, Direction.reachedPlace, hc.origin_eq hfirst,
      hnext.destination_eq hlast]
    exact h.1
  · rw [Direction.reachedPlace, hc.origin_eq hfirst]
    exact h.2

/-- Runs of itineraries that join at stopovers are cut at these in the order of travel. -/
theorem Direction.linked_cutAt (direction : Direction) {via : List Stopover} {waits : List Int}
    {members : List Candidate} {runs : List (List Leg)}
    (hapart : Linked direction.Apart waits runs)
    (hjoins : Linked (JoinsAt direction) via members)
    (hwaits : List.Forall₂ WaitsAt via waits) (hmoved : List.Forall₂ MovedAs members runs) :
    Linked (CutAt direction) (direction.inTravelOrder via) (direction.inTravelOrder runs) := by
  cases direction with
  | departAt =>
    exact hapart.combine hjoins hwaits hmoved fun hwait hc hnext hrun hjoin =>
      hjoin.cutAt_departAt hc hnext hwait hrun
  | arriveBy =>
    have hgrowth : Linked (fun stop placed added => CutAt .arriveBy stop added placed) via runs :=
      hapart.combine hjoins hwaits hmoved fun hwait hc hnext hrun hjoin =>
        hjoin.cutAt_arriveBy hc hnext hwait hrun
    exact hgrowth.reverse

namespace Sequence

/-- A sequence bridges a route from its first stopover by way of others to its last, in the
order of growth. -/
structure Bridges (direction : Direction) (first : Stopover) (via : List Stopover)
    (last : Stopover) (s : Sequence) : Prop where
  /-- It grows in the direction. -/
  direction_eq : s.direction = direction
  /-- It has grown by extensions. -/
  grown : s.Grown
  /-- Its itineraries join at the stopovers on the way. -/
  joins : Linked (JoinsAt direction) via s.grown
  /-- Its waits lie within the bounds there. -/
  waits : List.Forall₂ WaitsAt via (s.links.map Link.wait)
  /-- Its fixed end is at the first stopover. -/
  near : first.location.isAt (direction.nearPlace s.first.toItinerary) = true
  /-- Its growing end is at the last stopover. -/
  far : last.location.isAt (direction.farPlace s.last.toItinerary) = true

namespace Bridges

variable {direction : Direction} {first last reached : Stopover} {via : List Stopover}
  {s t : Sequence} {next : Candidate}

/-- A single itinerary bridges the stopovers at its ends. -/
theorem single (hlinear : next.Linear)
    (hnear : first.location.isAt (direction.nearPlace next.toItinerary) = true)
    (hfar : last.location.isAt (direction.farPlace next.toItinerary) = true) :
    Bridges direction first [] last (.single direction next) where
  direction_eq := rfl
  grown := .single hlinear
  joins := .single next
  waits := .nil
  near := hnear
  far := hfar

/-- An extension at the last stopover leads on to the next one. -/
theorem extend (h : Bridges direction first via last s) (hlinear : next.Linear)
    (hfar : reached.location.isAt (direction.farPlace next.toItinerary) = true)
    (hok : s.extend next last.minWait last.maxWait = .ok (some t)) :
    Bridges direction first (via ++ [last]) reached t := by
  obtain ⟨htouches, hextends⟩ := extend_cases hok
  have ht : t.Grown := h.grown.extend hlinear last.minWait_nonneg hok
  obtain ⟨wait, origin, frontier, rfl, hmin, hmax⟩ := hextends.eq_push
  rw [frontierPlace, h.direction_eq] at htouches
  obtain ⟨init, hinit⟩ := List.getLast?_eq_some_iff.1 s.getLast?_grown
  have hjoins := h.joins
  rw [hinit] at hjoins
  refine ⟨h.direction_eq, ht, ?_, ?_, h.near, ?_⟩
  · rw [push_grown, hinit, List.append_assoc]
    exact hjoins.concat ⟨htouches, h.far⟩
  · rw [push_links, List.map_append]
    exact List.rel_append h.waits (.cons ⟨hmin, hmax last.minWait_le_maxWait⟩ .nil)
  · rw [push_last]
    exact hfar

/-- In the order of travel the first member is at the start of the route, the last one at its
end. -/
theorem ends (h : Bridges direction first via last s) {it : Itinerary} {runs : List (List Leg)}
    (hmoved : List.Forall₂ MovedAs s.members runs) (hlegs : it.legs = runs.flatten) :
    first.location.isAt (direction.nearPlace it) = true ∧
      last.location.isAt (direction.farPlace it) = true := by
  have hfirst : s.grown.head? = some s.first := rfl
  have hlast := s.getLast?_grown
  have hnear := h.near
  have hfar := h.far
  unfold members at hmoved
  rw [h.direction_eq] at hmoved
  cases direction with
  | departAt =>
    have horigin := MovedAs.origin_flatten hmoved hlegs hfirst
    have hdestination := MovedAs.destination_flatten hmoved hlegs hlast
    simp only [Direction.nearPlace, Direction.farPlace] at *
    exact ⟨horigin ▸ hnear, hdestination ▸ hfar⟩
  | arriveBy =>
    simp only [Direction.inTravelOrder] at hmoved
    rw [← List.head?_reverse] at hlast
    rw [← List.getLast?_reverse] at hfirst
    have horigin := MovedAs.origin_flatten hmoved hlegs hlast
    have hdestination := MovedAs.destination_flatten hmoved hlegs hfirst
    simp only [Direction.nearPlace, Direction.farPlace] at *
    exact ⟨hdestination ▸ hnear, horigin ▸ hfar⟩

/-- The itinerary that a sequence comes to passes the stopovers that the sequence bridges. -/
theorem exists_cuts (h : Bridges direction first via last s) {identity : Identity}
    {flat : Candidate} (hok : s.flatten identity = .ok flat) :
    ∃ runs, runs.flatten = flat.legs ∧ (∀ run ∈ runs, run ≠ []) ∧
      Linked (CutAt direction) (direction.inTravelOrder via) runs ∧
      first.location.isAt (direction.nearPlace flat.toItinerary) = true ∧
      last.location.isAt (direction.farPlace flat.toItinerary) = true := by
  obtain ⟨placed, hplaced, hlegs⟩ := legs_of_flatten hok
  obtain ⟨runs, hlayout⟩ := h.grown.exists_layout hplaced
  have hmoved := hlayout.members_moved
  rw [hlayout.legs_eq] at hlegs
  obtain ⟨hnear, hfar⟩ := h.ends hmoved hlegs
  have hapart := hlayout.apart
  rw [h.direction_eq] at hapart hlegs hmoved
  refine ⟨direction.inTravelOrder runs, hlegs.symm, ?_,
    direction.linked_cutAt hapart h.joins h.waits hlayout.moved, hnear, hfar⟩
  intro run hrun
  obtain ⟨c, -, hrunMoved⟩ := exists_of_forall₂ hmoved hrun
  exact hrunMoved.ne_nil

end Bridges

end Sequence

end JourneyPlanner.Composition
