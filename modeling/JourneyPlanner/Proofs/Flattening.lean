import JourneyPlanner.Proofs.Placement

/-!
# The itinerary of a sequence

A sequence that has grown by extensions is never refused when it is flattened, and the
itinerary it comes to is the one the sequence has described all along: the same start
and end, the same waits between the same members, and no two legs at one time.
-/

namespace JourneyPlanner.Composition

/-- The time from the end of one run of legs to the start of the next is a wait. -/
def WaitBetween (wait : Int) (before after : List Leg) : Prop :=
  ∃ last next, before.getLast? = some last ∧ after.head? = some next ∧
    next.start.since last.finish = wait

/-- Runs that depart one after the other are apart by the wait between them. -/
theorem Direction.Apart.waitBetween_departAt {wait : Int} {placed added : List Leg}
    (h : Direction.departAt.Apart wait placed added) : WaitBetween wait placed added := by
  obtain ⟨far, near, hfar, hnear, hfarLinear, hnearLinear, hapart⟩ := h
  obtain ⟨last, hlast, rfl⟩ := Option.map_eq_some_iff.1 hfar
  obtain ⟨next, hnext, rfl⟩ := Option.map_eq_some_iff.1 hnear
  refine ⟨last, next, hlast, hnext, ?_⟩
  rw [Instant.since_eq hnearLinear hfarLinear, hapart, Direction.sign]
  omega

/-- Runs that arrive one before the other are apart by the wait between them. -/
theorem Direction.Apart.waitBetween_arriveBy {wait : Int} {placed added : List Leg}
    (h : Direction.arriveBy.Apart wait placed added) : WaitBetween wait added placed := by
  obtain ⟨far, near, hfar, hnear, hfarLinear, hnearLinear, hapart⟩ := h
  obtain ⟨next, hnext, rfl⟩ := Option.map_eq_some_iff.1 hfar
  obtain ⟨last, hlast, rfl⟩ := Option.map_eq_some_iff.1 hnear
  refine ⟨last, next, hlast, hnext, ?_⟩
  rw [Instant.since_eq hfarLinear hnearLinear, hapart, Direction.sign]
  omega

/-- Runs linked in the order of growth are linked by their waits in the order of travel. -/
theorem Direction.linked_waitBetween (direction : Direction) {waits : List Int}
    {runs : List (List Leg)} (h : Linked direction.Apart waits runs) :
    Linked WaitBetween (direction.inTravelOrder waits) (direction.inTravelOrder runs) := by
  cases direction with
  | departAt => exact h.imp Apart.waitBetween_departAt
  | arriveBy => exact h.reverse.imp Apart.waitBetween_arriveBy

/-! ### Runs in order -/

/-- Linear legs that are chained stay so when they are moved. -/
theorem chained_of_shiftLegs {span : Int} {legs moved : List Leg} (hchained : Leg.Chained legs)
    (hlinear : ∀ leg ∈ legs, leg.Linear) (h : shiftLegs span legs = .ok moved) :
    Leg.Chained moved := by
  rw [shiftLegs_eq_ok_iff] at h
  induction h with
  | nil => exact hchained
  | @cons leg leg' rest rest' hleg hrest ih =>
    rw [List.forall_mem_cons] at hlinear
    cases hrest with
    | nil => trivial
    | @cons leg₂ leg₂' more more' hleg₂ hmore =>
      refine ⟨?_, ih hchained.2 hlinear.2⟩
      obtain ⟨start, finish, -, hfinish, rfl⟩ := Leg.shift_eq_ok_iff.1 hleg
      obtain ⟨start₂, finish₂, hstart₂, -, rfl⟩ := Leg.shift_eq_ok_iff.1 hleg₂
      have hlinear₂ := hlinear.2 leg₂ (by simp)
      exact hlinear.1.finish.shift_le hlinear₂.start hchained.1 hfinish hstart₂

/-- Linear legs that do not run backward do not when they are moved. -/
theorem forward_of_shiftLegs {span : Int} {legs moved : List Leg}
    (hforward : ∀ leg ∈ legs, leg.start ≤ leg.finish) (hlinear : ∀ leg ∈ legs, leg.Linear)
    (h : shiftLegs span legs = .ok moved) : ∀ leg ∈ moved, leg.start ≤ leg.finish := by
  intro leg' hleg'
  obtain ⟨leg, hleg, hshift⟩ := exists_of_forall₂ (shiftLegs_eq_ok_iff.1 h) hleg'
  exact (hlinear leg hleg).start_le_finish_of_shift (hforward leg hleg) hshift

/-- Moved legs are travelled the same way. -/
theorem any_isTransit_of_shiftLegs {span : Int} {legs moved : List Leg}
    (h : shiftLegs span legs = .ok moved) : moved.any Leg.isTransit = legs.any Leg.isTransit := by
  rw [shiftLegs_eq_ok_iff] at h
  induction h with
  | nil => rfl
  | cons hleg _ ih => rw [List.any_cons, List.any_cons, ih, Leg.isTransit_of_shift hleg]

namespace MovedAs

variable {c : Candidate} {run : List Leg}

/-- A run has legs. -/
theorem ne_nil (h : MovedAs c run) : run ≠ [] := by
  obtain ⟨span, hmoved, -⟩ := h
  rintro rfl
  have hlength := (shiftLegs_eq_ok_iff.1 hmoved).length_eq
  exact c.legs_ne_nil (List.length_eq_zero_iff.1 hlength)

/-- The run of a member that rides transit is its legs, which have not been moved. -/
theorem eq_legs (h : MovedAs c run) (hride : c.isStreetOnly = false) : run = c.legs := by
  obtain ⟨span, hmoved, hfixed⟩ := h
  rw [hfixed hride, shiftLegs_zero] at hmoved
  exact (Except.ok.inj hmoved).symm

/-- The legs of a run of a linear member follow each other. -/
theorem chained (h : MovedAs c run) (hc : c.Linear) : Leg.Chained run := by
  obtain ⟨span, hmoved, -⟩ := h
  exact chained_of_shiftLegs c.chained hc hmoved

/-- No leg of a run runs backward, if none of the member does. -/
theorem forward (h : MovedAs c run) (hc : c.Linear) (hforward : c.Forward) :
    ∀ leg ∈ run, leg.start ≤ leg.finish := by
  obtain ⟨span, hmoved, -⟩ := h
  exact forward_of_shiftLegs hforward hc hmoved

/-- A run rides transit exactly if the member does. -/
theorem any_isTransit (h : MovedAs c run) : run.any Leg.isTransit = !c.isStreetOnly := by
  obtain ⟨span, hmoved, -⟩ := h
  rw [Itinerary.isStreetOnly, Bool.not_not, any_isTransit_of_shiftLegs hmoved]

/-- Some run rides transit exactly if some member does. -/
theorem any_any_isTransit {members : List Candidate} {runs : List (List Leg)}
    (h : List.Forall₂ MovedAs members runs) :
    (runs.any fun run => run.any Leg.isTransit) = members.any fun c => !c.isStreetOnly := by
  induction h with
  | nil => rfl
  | cons hrun _ ih => rw [List.any_cons, List.any_cons, ih, hrun.any_isTransit]

end MovedAs

/-- Chained runs with waits between them that are not negative are chained throughout. -/
theorem chained_flatten {waits : List Int} {runs : List (List Leg)}
    (h : Linked WaitBetween waits runs) (hwaits : ∀ wait ∈ waits, 0 ≤ wait)
    (hne : ∀ run ∈ runs, run ≠ []) (hlinear : ∀ run ∈ runs, ∀ leg ∈ run, leg.Linear)
    (hchained : ∀ run ∈ runs, Leg.Chained run) : Leg.Chained runs.flatten := by
  rw [Leg.chained_iff_isChain, List.isChain_flatten fun hnil => hne [] hnil rfl]
  refine ⟨fun run hrun => Leg.chained_iff_isChain.1 (hchained run hrun), ?_⟩
  refine h.isChain fun wait hwait before hbefore after hafter hbetween => ?_
  obtain ⟨last, next, hlast, hnext, hspan⟩ := hbetween
  intro x hx y hy
  obtain rfl : last = x := Option.some.inj (hlast.symm.trans hx)
  obtain rfl : next = y := Option.some.inj (hnext.symm.trans hy)
  have hlastLinear := (hlinear before hbefore last (List.mem_of_getLast? hlast)).finish
  have hnextLinear := (hlinear after hafter next (List.mem_of_head? hnext)).start
  rw [Instant.since_eq hnextLinear hlastLinear] at hspan
  have hnonneg := hwaits wait hwait
  exact (Instant.le_iff_nanos_le hlastLinear hnextLinear).2 (by omega)

namespace Layout

variable {s : Sequence} {runs : List (List Leg)} {placed : Placed}

/-- The runs in the order of travel are apart by the waits in that order. -/
theorem waits_linked (h : Layout s runs placed) :
    Linked WaitBetween s.waits (s.direction.inTravelOrder runs) :=
  s.direction.linked_waitBetween h.apart

/-- There is one run for each member in the order of travel. -/
theorem members_moved (h : Layout s runs placed) :
    List.Forall₂ MovedAs s.members (s.direction.inTravelOrder runs) := by
  unfold Sequence.members
  cases s.direction with
  | departAt => exact h.moved
  | arriveBy => exact List.forall₂_reverse_iff.2 h.moved

/-- Every placed leg belongs to the run of some member. -/
theorem exists_moved (h : Layout s runs placed) {run : List Leg}
    (hrun : run ∈ s.direction.inTravelOrder runs) : ∃ c ∈ s.grown, MovedAs c run := by
  rw [Direction.mem_inTravelOrder] at hrun
  exact exists_of_forall₂ h.moved hrun

/-- The placed legs follow each other. -/
theorem chained (h : Layout s runs placed) (hs : s.Grown) : Leg.Chained placed.legs := by
  rw [h.legs_eq]
  refine chained_flatten h.waits_linked ?_ ?_ ?_ ?_
  · intro wait hwait
    rw [Sequence.waits, Direction.mem_inTravelOrder] at hwait
    obtain ⟨link, hlink, rfl⟩ := List.mem_map.1 hwait
    exact hs.wait_nonneg link hlink
  · intro run hrun
    obtain ⟨c, -, hmoved⟩ := h.exists_moved hrun
    exact hmoved.ne_nil
  · intro run hrun
    obtain ⟨c, hc, hmoved⟩ := h.exists_moved hrun
    exact hmoved.linear (hs.linear_of_mem c hc)
  · intro run hrun
    obtain ⟨c, hc, hmoved⟩ := h.exists_moved hrun
    exact hmoved.chained (hs.linear_of_mem c hc)

/-- No placed leg runs backward, if no leg of a member does. -/
theorem forward (h : Layout s runs placed) (hs : s.Grown) (hforward : ∀ c ∈ s.grown, c.Forward) :
    ∀ leg ∈ placed.legs, leg.start ≤ leg.finish := by
  intro leg hleg
  rw [h.legs_eq, List.mem_flatten] at hleg
  obtain ⟨run, hrun, hleg⟩ := hleg
  obtain ⟨c, hc, hmoved⟩ := h.exists_moved hrun
  exact hmoved.forward (hs.linear_of_mem c hc) (hforward c hc) leg hleg

/-- A placed leg rides transit exactly if the sequence does. -/
theorem any_isTransit (h : Layout s runs placed) (hs : s.Grown) :
    placed.legs.any Leg.isTransit = !s.streetOnly := by
  rw [h.legs_eq, List.any_flatten, Direction.any_inTravelOrder, hs.streetOnly_eq,
    List.not_all_eq_any_not, MovedAs.any_any_isTransit h.moved]

/-- Something is placed. -/
theorem legs_ne_nil (h : Layout s runs placed) : placed.legs ≠ [] := by
  intro hnil
  have hnear := h.near
  rw [hnil] at hnear
  cases hdirection : s.direction <;> rw [hdirection] at hnear <;> cases hnear

/-- The far end of the placed legs is the growing end of the sequence. -/
theorem far_legs (h : Layout s runs placed) :
    s.direction.farInstant? placed.legs = some s.frontierTime := by
  obtain ⟨last, hlast, hfar⟩ := h.far
  obtain ⟨init, rfl⟩ := List.getLast?_eq_some_iff.1 hlast
  rw [h.legs_eq, Direction.flatten_inTravelOrder_concat]
  exact s.direction.farInstant?_attach _ hfar

end Layout

/-! ### Flattening a grown sequence -/

namespace Sequence

/-- The itinerary of a flattened sequence has the legs that were placed. -/
theorem legs_of_flatten {s : Sequence} {identity : Identity} {flat : Candidate}
    (hok : s.flatten identity = .ok flat) :
    ∃ placed, s.place = .ok placed ∧ flat.legs = placed.legs := by
  unfold flatten at hok
  cases hlinks : s.links with
  | nil =>
    simp only [hlinks, List.isEmpty_nil, if_true, Except.ok.injEq] at hok
    subst hok
    exact ⟨Placed.start s.direction s.first, by simp [place, hlinks, Placed.joinAll], rfl⟩
  | cons link links =>
    rw [hlinks, List.isEmpty_cons, if_neg Bool.false_ne_true] at hok
    obtain ⟨placed, hplaced, hok⟩ := bind_eq_ok_iff.1 hok
    obtain ⟨it, hit, hok⟩ := bind_eq_ok_iff.1 hok
    obtain ⟨cost, -, hok⟩ := bind_eq_ok_iff.1 hok
    cases hok
    rw [← hlinks] at hplaced
    have hlegs := Itinerary.legs_of_ofLegs hit
    exact ⟨placed, ok_of_mapError hplaced, hlegs⟩

/-- A grown sequence is never refused when it is flattened. -/
theorem Grown.not_refused {s : Sequence} (h : s.Grown) (identity : Identity)
    (reason : ItineraryError) : s.flatten identity ≠ .error (.refused reason) := by
  intro hrefused
  unfold flatten at hrefused
  split at hrefused
  · cases hrefused
  · rcases bind_eq_error_iff.1 hrefused with hplace | ⟨placed, hplaced, hrest⟩
    · exact orFault_not_refused hplace
    · obtain ⟨runs, hlayout⟩ := h.exists_layout (ok_of_mapError hplaced)
      rcases bind_eq_error_iff.1 hrest with hlegs | ⟨it, -, hcosts⟩
      · exact Itinerary.ofLegs_not_refused hlayout.legs_ne_nil (hlayout.chained h) reason hlegs
      · rcases bind_eq_error_iff.1 hcosts with hcost | ⟨cost, -, hreturn⟩
        · exact orFault_not_refused hcost
        · cases hreturn

/-- A grown sequence comes to an itinerary, if there is no fault. -/
theorem Grown.exists_flat {s : Sequence} (h : s.Grown) (identity : Identity)
    (hfault : ∀ cause, s.flatten identity ≠ .error (.fault cause)) :
    ∃ flat, s.flatten identity = .ok flat := by
  refine exists_ok fun failure hfailure => ?_
  cases failure with
  | refused reason => exact h.not_refused identity reason hfailure
  | fault cause => exact hfault cause hfailure

/-- The itinerary is the one that the sequence describes. -/
structure FlattensInto (s : Sequence) (it : Itinerary) : Prop where
  /-- No leg starts before one in front of it ends. -/
  ordered : it.legs.Pairwise fun a b => a.finish ≤ b.start
  /-- Both start at one time. -/
  start_eq : it.start = s.start
  /-- Both end at one time. -/
  finish_eq : it.finish = s.finish
  /-- The journey does not run backward. -/
  start_le_finish : s.start ≤ s.finish
  /-- Both know whether the journey stays on the street. -/
  streetOnly_eq : it.isStreetOnly = s.streetOnly
  /-- There is one wait fewer than members. -/
  waits_length : s.waits.length + 1 = s.members.length
  /-- The legs are one run for each member, and between neighbouring runs is the wait. -/
  runs : ∃ runs, it.legs = runs.flatten ∧ List.Forall₂ MovedAs s.members runs ∧
    Linked WaitBetween s.waits runs

/-- The ends of an itinerary that has the placed legs are those of the sequence. -/
theorem ends_of_layout {s : Sequence} {runs : List (List Leg)} {placed : Placed}
    (h : Layout s runs placed) {it : Itinerary} (hlegs : it.legs = placed.legs) :
    it.start = s.start ∧ it.finish = s.finish := by
  have hnear := s.direction.nearInstant?_legs it
  have hfar := s.direction.farInstant?_legs it
  rw [hlegs, h.near, Option.some.injEq] at hnear
  rw [hlegs, h.far_legs, Option.some.injEq] at hfar
  unfold start finish
  cases hdirection : s.direction <;> rw [hdirection] at hnear hfar
  · exact ⟨hnear.symm, hfar.symm⟩
  · exact ⟨hfar.symm, hnear.symm⟩

/-- An itinerary that has the placed legs is the one the sequence describes. -/
theorem flattensInto_of_layout {s : Sequence} {runs : List (List Leg)} {placed : Placed}
    (h : Layout s runs placed) (hs : s.Grown) (hforward : ∀ c ∈ s.grown, c.Forward)
    {it : Itinerary} (hlegs : it.legs = placed.legs) : s.FlattensInto it := by
  have hordered : ∀ leg ∈ it.legs, leg.start ≤ leg.finish := by
    rw [hlegs]
    exact h.forward hs hforward
  obtain ⟨hstart, hfinish⟩ := ends_of_layout h hlegs
  have hwaits := h.waits_linked
  refine ⟨Itinerary.pairwise_of_chained it.chained hordered, hstart, hfinish, ?_, ?_, ?_,
    s.direction.inTravelOrder runs, hlegs.trans h.legs_eq, h.members_moved, hwaits⟩
  · rw [← hstart, ← hfinish]
    exact Leg.start_le_finish_of_chained it.chained hordered
      (List.head?_eq_some_head it.legs_ne_nil) (List.getLast?_eq_some_getLast it.legs_ne_nil)
  · rw [Itinerary.isStreetOnly, hlegs, h.any_isTransit hs, Bool.not_not]
  · rw [hwaits.length_eq, h.members_moved.length_eq]

/-- A sequence that has grown by extensions is flattened, unless a time leaves the calendar or
costs exceed their range, into the itinerary that it describes. -/
theorem flatten_agrees {s : Sequence} (hs : s.Grown) (hforward : ∀ c ∈ s.grown, c.Forward)
    (identity : Identity) (hfault : ∀ cause, s.flatten identity ≠ .error (.fault cause)) :
    ∃ flat, s.flatten identity = .ok flat ∧ s.FlattensInto flat.toItinerary := by
  cases hflat : s.flatten identity with
  | error failure =>
    cases failure with
    | refused reason => exact absurd hflat (hs.not_refused identity reason)
    | fault cause => exact absurd hflat (hfault cause)
  | ok flat =>
    obtain ⟨placed, hplaced, hlegs⟩ := legs_of_flatten hflat
    obtain ⟨runs, hlayout⟩ := hs.exists_layout hplaced
    exact ⟨flat, rfl, flattensInto_of_layout hlayout hs hforward hlegs⟩

/-- A walk at the fixed end. -/
private def lastWalk : Candidate :=
  .ofLeg 0 (.onDay .walk (.inRow 2) (.inRow 3) 500 510)

/-- A ride that ends with a walk of its own. -/
private def rideThenWalk : Candidate :=
  .ofLegs 1 [.onDay .bus (.inRow 1) (.inRow 2) 400 420, .onDay .walk (.inRow 2) (.inRow 2) 421 430]
    (by decide) (by decide)

/-- A walk between two rides. -/
private def middleWalk : Candidate :=
  .ofLeg 2 (.onDay .walk (.inRow 0) (.inRow 1) 100 112)

/-- An early ride. -/
private def earlyRide : Candidate :=
  .ofLeg 3 (.onDay .rail (.inRow 3) (.inRow 0) 300 350)

/-- A walk that has met a ride. -/
private def walkMeetsRide : Sequence :=
  (single .arriveBy lastWalk).push (Span.minutes 5) rideThenWalk (.ofMinute 445) (.ofMinute 400)

/-- The same with a walk in front. -/
private def walkFollowsRide : Sequence :=
  walkMeetsRide.push (Span.minutes 3) middleWalk (.ofMinute 445) (.ofMinute 385)

/-- A journey by arrival that has grown in each of the three forms. -/
private def ridesAndWalks : Sequence :=
  walkFollowsRide.push (Span.minutes 35) earlyRide (.ofMinute 445) (.ofMinute 300)

/-- The journey has grown by extensions. -/
private theorem ridesAndWalks_grown : ridesAndWalks.Grown := by
  have hmeets : (single .arriveBy lastWalk).extend rideThenWalk (Span.minutes 5)
      (Span.minutes 5) = .ok (some walkMeetsRide) := rfl
  have hfollows : walkMeetsRide.extend middleWalk (Span.minutes 3) (Span.minutes 9) =
      .ok (some walkFollowsRide) := rfl
  have hconnects : walkFollowsRide.extend earlyRide (Span.minutes 30) (Span.minutes 40) =
      .ok (some ridesAndWalks) := rfl
  exact (((Grown.single (by decide)).extend (by decide) (by decide) hmeets).extend (by decide)
    (by decide) hfollows).extend (by decide) (by decide) hconnects

/-- The journey flattens into what it describes. -/
theorem ridesAndWalks_flattens : ridesAndWalks.Grown ∧
    (∀ c ∈ ridesAndWalks.grown, c.Forward) ∧
    (∀ cause, ridesAndWalks.flatten (.composed 0) ≠ .error (.fault cause)) ∧
    ∃ flat, ridesAndWalks.flatten (.composed 0) = .ok flat ∧
      ridesAndWalks.FlattensInto flat.toItinerary := by
  have hforward : ∀ c ∈ ridesAndWalks.grown, c.Forward := by decide
  have hfault : ∀ cause, ridesAndWalks.flatten (.composed 0) ≠ .error (.fault cause) := by
    intro cause h
    have hok : (ridesAndWalks.flatten (.composed 0)).toBool = true := by decide
    rw [h] at hok
    cases hok
  exact ⟨ridesAndWalks_grown, hforward, hfault,
    flatten_agrees ridesAndWalks_grown hforward (.composed 0) hfault⟩

end Sequence

end JourneyPlanner.Composition
