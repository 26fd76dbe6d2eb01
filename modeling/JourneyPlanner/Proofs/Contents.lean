import JourneyPlanner.Proofs.Flattening
import Mathlib.Algebra.BigOperators.Group.List.Basic

/-!
# What flattening leaves alone

Flattening only ever moves whole members, and only members on the street. The legs of the
itinerary are those of the members, each in its own order, and differ from them in their times
alone; what a member has besides legs is summed. This holds whatever the waits of a sequence are,
also if one of them is negative, so that the legs may come to overlap.
-/

namespace JourneyPlanner

/-- A leg has been moved by a span: so have its two ends, and all else is as it was. -/
structure Leg.MovedBy (span : Int) (leg moved : Leg) : Prop where
  /-- The start has been moved. -/
  start : leg.start.shift span = .ok moved.start
  /-- The end has been moved. -/
  finish : leg.finish.shift span = .ok moved.finish
  /-- Nothing else differs. -/
  rest : moved = { leg with start := moved.start, finish := moved.finish }

/-- This is what moving a leg does. -/
theorem Leg.movedBy_iff {span : Int} {leg moved : Leg} :
    leg.MovedBy span moved ↔ leg.shift span = .ok moved := by
  rw [shift_eq_ok_iff]
  constructor
  · rintro ⟨hstart, hfinish, hrest⟩
    exact ⟨_, _, hstart, hfinish, hrest⟩
  · rintro ⟨start, finish, hstart, hfinish, rfl⟩
    exact ⟨hstart, hfinish, rfl⟩

namespace Composition

/-! ### The placed legs -/

/-- The placed legs are one run for each of some members, listed in the order of growth. -/
structure Placed.Keeps (direction : Direction) (members : List Candidate) (runs : List (List Leg))
    (placed : Placed) : Prop where
  /-- The legs are those of the runs. -/
  legs_eq : placed.legs = (direction.inTravelOrder runs).flatten
  /-- Each run is a member that has been moved as a whole, if at all. -/
  moved : List.Forall₂ MovedAs members runs
  /-- It is known whether all members stay on the street. -/
  streetOnly_eq : placed.streetOnly = members.all fun c => c.isStreetOnly

namespace Placed.Keeps

variable {direction : Direction} {members : List Candidate} {runs : List (List Leg)}
  {placed placed' : Placed}

/-- The first member is placed as it is. -/
theorem start (direction : Direction) (first : Candidate) :
    Keeps direction [first] [first.legs] (Placed.start direction first) where
  legs_eq := by cases direction <;> simp [Placed.start, Direction.inTravelOrder]
  moved := .cons ⟨0, shiftLegs_zero _, fun _ => rfl⟩ .nil
  streetOnly_eq := by simp [Placed.start]

/-- One more run may be put behind those of the members before. -/
theorem attach (h : placed.Keeps direction members runs) {next : Candidate} {added : List Leg}
    (hadded : MovedAs next added) (frontier : Instant) :
    Keeps direction (members ++ [next]) (runs ++ [added])
      ⟨Placed.attach direction placed.legs added, frontier,
        placed.streetOnly && next.isStreetOnly⟩ where
  legs_eq := by rw [Direction.flatten_inTravelOrder_concat, h.legs_eq]
  moved := List.rel_append h.moved (.cons hadded .nil)
  streetOnly_eq := by simp [h.streetOnly_eq]

/-- Legs that are moved together, while no member rides, are moved run by run. -/
theorem shift (h : placed.Keeps direction members runs) (hlinear : ∀ c ∈ members, c.Linear)
    (hstreet : placed.streetOnly = true) {span : Int} {moved : List Leg}
    (hmoved : shiftLegs span placed.legs = .ok moved) (frontier : Instant) :
    ∃ runs', Keeps direction members runs' ⟨moved, frontier, placed.streetOnly⟩ := by
  have hall : ∀ c ∈ members, c.isStreetOnly = true := by
    rwa [h.streetOnly_eq, List.all_eq_true] at hstreet
  rw [h.legs_eq] at hmoved
  obtain ⟨runs', hruns, rfl⟩ := direction.shiftLegs_inTravelOrder hmoved
  exact ⟨runs', rfl, MovedAs.shift_all h.moved hlinear hall hruns, h.streetOnly_eq⟩

/-- In whichever form one more member is placed, it and those before are kept. -/
theorem joins (h : placed.Keeps direction members runs) (hlinear : ∀ c ∈ members, c.Linear)
    {link : Link} (hjoins : placed.Joins direction link placed') :
    ∃ runs', placed'.Keeps direction (members ++ [link.member]) runs' := by
  cases hjoins with
  | @follows due added frontier hstreet _ hadded _ =>
    have hkeeps := h.attach ⟨_, hadded, by simp [hstreet]⟩ frontier
    rw [hstreet, Bool.and_true] at hkeeps
    exact ⟨_, hkeeps⟩
  | meets hride hstreet _ hbefore =>
    obtain ⟨runs', hshifted⟩ := h.shift hlinear hstreet hbefore placed.frontier
    have hkeeps := hshifted.attach ⟨0, shiftLegs_zero link.member.legs, fun _ => rfl⟩
      (direction.farTime link.member.toItinerary)
    rw [hride, Bool.and_false] at hkeeps
    exact ⟨_, hkeeps⟩
  | connects hride _ =>
    have hkeeps := h.attach ⟨0, shiftLegs_zero link.member.legs, fun _ => rfl⟩
      (direction.farTime link.member.toItinerary)
    rw [hride, Bool.and_false] at hkeeps
    exact ⟨_, hkeeps⟩

/-- So they are when more members are placed one after the other. -/
theorem joinAll (h : placed.Keeps direction members runs) (hlinear : ∀ c ∈ members, c.Linear)
    {links : List Link} (hlinks : ∀ link ∈ links, link.member.Linear)
    (hok : placed.joinAll direction links = .ok placed') :
    ∃ runs', placed'.Keeps direction (members ++ links.map Link.member) runs' := by
  induction links generalizing placed members runs with
  | nil =>
    cases hok
    exact ⟨runs, by simpa using h⟩
  | cons link rest ih =>
    rw [List.forall_mem_cons] at hlinks
    obtain ⟨next, hnext, hrest⟩ := bind_eq_ok_iff.1 hok
    obtain ⟨runs', hkeeps⟩ := h.joins hlinear (join_cases hnext)
    have hlinear' : ∀ c ∈ members ++ [link.member], c.Linear := by
      rw [List.forall_mem_append, List.forall_mem_singleton]
      exact ⟨hlinear, hlinks.1⟩
    simpa using ih hkeeps hlinear' hlinks.2 hrest

end Placed.Keeps

namespace Sequence

variable {s : Sequence}

/-- The legs of a sequence are placed in one run for each of its members. -/
theorem exists_keeps (hlinear : ∀ c ∈ s.grown, c.Linear) {placed : Placed}
    (hplaced : s.place = .ok placed) : ∃ runs, placed.Keeps s.direction s.grown runs := by
  unfold grown at hlinear
  rw [List.forall_mem_cons, List.forall_mem_map] at hlinear
  have hfirst : ∀ c ∈ [s.first], c.Linear := by simpa using hlinear.1
  simpa [grown] using (Placed.Keeps.start s.direction s.first).joinAll hfirst hlinear.2 hplaced

/-! ### The itinerary -/

/-- A run of legs is a member whose legs have all been moved by one span. The span is nothing if
the member rides transit. -/
def MovedTogether (c : Candidate) (run : List Leg) : Prop :=
  ∃ span, List.Forall₂ (fun leg leg' => leg.MovedBy span leg') c.legs run ∧
    (c.isStreetOnly = false → span = 0)

/-- The runs of flattening are moved together. -/
theorem movedTogether_iff {c : Candidate} {run : List Leg} :
    MovedTogether c run ↔ MovedAs c run := by
  unfold MovedTogether MovedAs
  simp only [shiftLegs_eq_ok_iff, Leg.movedBy_iff]

/-- The rides of some runs are the rides of the members, at their own times. -/
theorem filter_isTransit_flatten {members : List Candidate} {runs : List (List Leg)}
    (h : List.Forall₂ MovedAs members runs) :
    runs.flatten.filter Leg.isTransit = members.flatMap fun c => c.transitLegs := by
  induction h with
  | nil => rfl
  | @cons c run members runs hrun _ ih =>
    rw [List.flatten_cons, List.filter_append, List.flatMap_cons, ih]
    congr 1
    cases hride : c.isStreetOnly with
    | false => rw [hrun.eq_legs hride, Itinerary.transitLegs]
    | true =>
      have hany := hrun.any_isTransit
      rw [hride, Bool.not_true, List.any_eq_false] at hany
      rw [Itinerary.isStreetOnly, Bool.not_eq_true', List.any_eq_false] at hride
      rw [Itinerary.transitLegs, List.filter_eq_nil_iff.2 hany, List.filter_eq_nil_iff.2 hride]

/-- What an itinerary has kept of the members of a sequence. -/
structure KeptBy (s : Sequence) (flat : Candidate) : Prop where
  /-- The legs are one run for each member, in the order of travel. -/
  runs : ∃ runs, flat.legs = runs.flatten ∧ List.Forall₂ MovedTogether s.members runs
  /-- The rides are those of the members, at their own times. -/
  rides : flat.transitLegs = s.members.flatMap fun c => c.transitLegs
  /-- A single member is the itinerary. -/
  single : s.links = [] → flat = s.first
  /-- The costs of several members are summed. -/
  cost : s.links ≠ [] → flat.cost = (s.grown.map fun c => c.cost).sum
  /-- So are the metres climbed, from the fixed end on. -/
  climb : s.links ≠ [] → flat.climb = Quantity.sum (s.grown.map fun c => c.climb)
  /-- So are the metres descended. -/
  descent : s.links ≠ [] → flat.descent = Quantity.sum (s.grown.map fun c => c.descent)
  /-- A limit is exceeded if it is for one of them. -/
  limitExceeded : s.links ≠ [] → flat.limitExceeded = s.grown.any fun c => c.limitExceeded
  /-- It is too steep if one of them is. -/
  tooSloped : s.links ≠ [] → flat.tooSloped = s.grown.any fun c => c.tooSloped

/-- What flattening several members makes of them beside their legs. -/
theorem sums_of_flatten {identity : Identity} {flat : Candidate} (hlinks : s.links ≠ [])
    (hok : s.flatten identity = .ok flat) :
    sumCosts (s.grown.map fun c => c.cost) = .ok flat.cost ∧
      flat.climb = Quantity.sum (s.grown.map fun c => c.climb) ∧
      flat.descent = Quantity.sum (s.grown.map fun c => c.descent) ∧
      flat.limitExceeded = (s.grown.any fun c => c.limitExceeded) ∧
      flat.tooSloped = s.grown.any fun c => c.tooSloped := by
  unfold flatten at hok
  rw [List.isEmpty_eq_false_iff.2 hlinks, if_neg Bool.false_ne_true] at hok
  obtain ⟨placed, -, hok⟩ := bind_eq_ok_iff.1 hok
  obtain ⟨it, -, hok⟩ := bind_eq_ok_iff.1 hok
  obtain ⟨cost, hcost, hok⟩ := bind_eq_ok_iff.1 hok
  cases hok
  exact ⟨ok_of_mapError hcost, rfl, rfl, rfl, rfl⟩

/-- A single member is flattened into itself. -/
theorem eq_first_of_flatten {identity : Identity} {flat : Candidate} (hlinks : s.links = [])
    (hok : s.flatten identity = .ok flat) : flat = s.first := by
  unfold flatten at hok
  rw [hlinks, List.isEmpty_nil, if_pos rfl] at hok
  exact (Except.ok.inj hok).symm

/-- An itinerary has kept what the members of its sequence have. -/
theorem keptBy_of_flatten (hlinear : ∀ c ∈ s.grown, c.Linear) {identity : Identity}
    {flat : Candidate} (hok : s.flatten identity = .ok flat) : s.KeptBy flat := by
  obtain ⟨placed, hplaced, hlegs⟩ := legs_of_flatten hok
  obtain ⟨runs, hkeeps⟩ := exists_keeps hlinear hplaced
  have hall := hlegs.trans hkeeps.legs_eq
  have hmoved : List.Forall₂ MovedAs s.members (s.direction.inTravelOrder runs) := by
    unfold members
    cases s.direction with
    | departAt => exact hkeeps.moved
    | arriveBy => exact List.forall₂_reverse_iff.2 hkeeps.moved
  exact
    { runs := ⟨_, hall, hmoved.imp fun _ _ => movedTogether_iff.2⟩
      rides := by rw [Itinerary.transitLegs, hall, filter_isTransit_flatten hmoved]
      single := fun hlinks => eq_first_of_flatten hlinks hok
      cost := fun hlinks => by
        rw [sumCostsFrom_eq (sums_of_flatten hlinks hok).1, List.sum_eq_foldl]
      climb := fun hlinks => (sums_of_flatten hlinks hok).2.1
      descent := fun hlinks => (sums_of_flatten hlinks hok).2.2.1
      limitExceeded := fun hlinks => (sums_of_flatten hlinks hok).2.2.2.1
      tooSloped := fun hlinks => (sums_of_flatten hlinks hok).2.2.2.2 }

/-! ### Sequences with any waits -/

/-- A sequence that has come from a single itinerary by successful extensions, with any bounds on
the waits. Its itineraries are linear. -/
inductive Built : Sequence → Prop
  | single {direction : Direction} {first : Candidate} (hfirst : first.Linear) :
      Built (single direction first)
  | extend {s t : Sequence} {next : Candidate} {minWait maxWait : Int} (hs : Built s)
      (hnext : next.Linear) (hok : s.extend next minWait maxWait = .ok (some t)) : Built t

namespace Built

/-- Every itinerary of such a sequence is linear. -/
theorem linear_of_mem (h : s.Built) : ∀ c ∈ s.grown, c.Linear := by
  induction h with
  | single hfirst => simpa [grown, Sequence.single] using hfirst
  | extend _ hnext hok ih =>
    obtain ⟨wait, origin, frontier, rfl, -, -⟩ := (extend_cases hok).2.eq_push
    rw [push_grown, List.forall_mem_append, List.forall_mem_singleton]
    exact ⟨ih, hnext⟩

/-- If no wait has come out negative, the bounds need not have been negative either. -/
theorem grown_of_waits (h : s.Built) (hwaits : ∀ link ∈ s.links, 0 ≤ link.wait) : s.Grown := by
  induction h with
  | single hfirst => exact .single hfirst
  | @extend s t next minWait maxWait hs hnext hok ih =>
    obtain ⟨htouches, hext⟩ := extend_cases hok
    have hbefore : (∀ link ∈ s.links, 0 ≤ link.wait) → s.Grown := ih
    cases hext with
    | follows hstreet hfrontier =>
      rw [push_links, List.forall_mem_append, List.forall_mem_singleton] at hwaits
      exact (hbefore hwaits.1).extend hnext hwaits.2 hok
    | meets hride hstreet horigin =>
      rw [push_links, List.forall_mem_append, List.forall_mem_singleton] at hwaits
      exact (hbefore hwaits.1).extend hnext hwaits.2 hok
    | connects hride hscheduled hmin hmax =>
      rw [push_links, List.forall_mem_append, List.forall_mem_singleton] at hwaits
      have hzero : s.Extends next 0 maxWait _ := .connects hride hscheduled hwaits.2 hmax
      exact (hbefore hwaits.1).extend hnext (Int.le_refl 0) (hzero.extend_eq_ok htouches)

end Built

/-- Flattening a sequence comes to an itinerary that has kept what its members have: it moves
members as a whole, rides not at all. Unless a wait is negative there is an itinerary, if no time
leaves the calendar and no costs exceed their range. -/
theorem flatten_keeps_contents (h : s.Built) (identity : Identity) :
    (∀ flat, s.flatten identity = .ok flat → s.KeptBy flat) ∧
      ((∀ wait ∈ s.waits, 0 ≤ wait) →
        (∀ cause, s.flatten identity ≠ .error (.fault cause)) →
        ∃ flat, s.flatten identity = .ok flat) := by
  constructor
  · intro flat hok
    exact keptBy_of_flatten h.linear_of_mem hok
  · intro hwaits hfault
    refine (h.grown_of_waits fun link hlink => hwaits _ ?_).exists_flat identity hfault
    rw [waits, Direction.mem_inTravelOrder]
    exact List.mem_map_of_mem hlink

/-- Two walks. -/
private def twoWalks : Sequence :=
  (single .departAt (.ofLeg 0 (.onDay .walk (.inRow 0) (.inRow 1) 100 110))).push
    (Span.minutes 3) (.ofLeg 1 (.onDay .walk (.inRow 1) (.inRow 2) 500 505)) (.ofMinute 100)
    (.ofMinute 118)

/-- Both are moved to meet a bus. -/
private def walksMeetBus : Sequence :=
  twoWalks.push (Span.minutes 2) (.ofLeg 2 (.onDay .bus (.inRow 2) (.inRow 3) 600 620))
    (.ofMinute 580) (.ofMinute 620)

/-- Another walk follows the bus. -/
private def walksAroundBus : Sequence :=
  walksMeetBus.push (Span.minutes 1) (.ofLeg 3 (.onDay .walk (.inRow 3) (.inRow 0) 700 710))
    (.ofMinute 580) (.ofMinute 631)

/-- All of this has come by extensions. -/
private theorem walksAroundBus_built : walksAroundBus.Built := by
  have hfollows : (single .departAt (.ofLeg 0 (.onDay .walk (.inRow 0) (.inRow 1) 100 110))).extend
      (.ofLeg 1 (.onDay .walk (.inRow 1) (.inRow 2) 500 505)) (Span.minutes 3) (Span.minutes 3) =
      .ok (some twoWalks) := rfl
  have hmeets : twoWalks.extend (.ofLeg 2 (.onDay .bus (.inRow 2) (.inRow 3) 600 620))
      (Span.minutes 2) (Span.minutes 9) = .ok (some walksMeetBus) := rfl
  have hbehind : walksMeetBus.extend (.ofLeg 3 (.onDay .walk (.inRow 3) (.inRow 0) 700 710))
      (Span.minutes 1) (Span.minutes 4) = .ok (some walksAroundBus) := rfl
  exact (((Built.single (by decide)).extend (by decide) hfollows).extend (by decide)
    hmeets).extend (by decide) hbehind

/-- The walks around a bus are kept as they are moved, and the bus runs at its own time. -/
theorem walksAroundBus_kept : walksAroundBus.Built ∧ ∃ flat,
    walksAroundBus.flatten (.composed 0) = .ok flat ∧ walksAroundBus.KeptBy flat ∧
      flat.transitLegs = [.onDay .bus (.inRow 2) (.inRow 3) 600 620] := by
  obtain ⟨hkept, hflat⟩ := flatten_keeps_contents walksAroundBus_built (.composed 0)
  obtain ⟨flat, hok⟩ := hflat (by decide) fun cause => ne_error_of_toBool (by decide) _
  exact ⟨walksAroundBus_built, flat, hok, hkept flat hok, (hkept flat hok).rides⟩

end Sequence

end Composition

end JourneyPlanner
