import JourneyPlanner.Proofs.Growth
import JourneyPlanner.Proofs.Runs

/-!
# Where flattening places legs

Flattening decides anew where every leg goes, without the times a sequence has
booked. This file shows that the two agree after every junction: the placed legs are
one run for each itinerary, a copy of its legs moved as a whole; runs are as far apart
as the booked waits say; and the ends of the placed legs are the ends of the sequence.
-/

namespace JourneyPlanner.Composition

/-! ### Joining one more run -/

namespace Placed

/-- How far a member would have to move to keep its wait behind legs that end when `due`. -/
def gap (direction : Direction) (link : Link) (due : Instant) : Int :=
  due.since (direction.nearTime link.member.toItinerary)

/-- Away from inserted seconds the gap is a difference of nanoseconds. -/
theorem gap_eq {direction : Direction} {link : Link} {due : Instant} (hdue : due.Linear)
    (hmember : link.member.Linear) :
    gap direction link due =
      due.nanos - (direction.nearTime link.member.toItinerary).nanos :=
  Instant.since_eq hdue (direction.nearTime_linear hmember)

/-- The three forms in which one more run is placed. -/
inductive Joins (direction : Direction) (placed : Placed) (link : Link) : Placed → Prop
  /-- A member on the street moves to keep its wait. -/
  | follows {due : Instant} {added : List Leg} {frontier : Instant}
      (hstreet : link.member.isStreetOnly = true)
      (hdue : placed.frontier.shift (link.wait * direction.sign) = .ok due)
      (hadded : shiftLegs (gap direction link due) link.member.legs = .ok added)
      (hfrontier : (direction.farTime link.member.toItinerary).shift (gap direction link due) =
        .ok frontier) :
      Joins direction placed link ⟨attach direction placed.legs added, frontier, placed.streetOnly⟩
  /-- Legs on the street move the other way to meet a first ride. -/
  | meets {due : Instant} {before : List Leg} (hride : link.member.isStreetOnly = false)
      (hstreet : placed.streetOnly = true)
      (hdue : placed.frontier.shift (link.wait * direction.sign) = .ok due)
      (hbefore : shiftLegs (-gap direction link due) placed.legs = .ok before) :
      Joins direction placed link
        ⟨attach direction before link.member.legs, direction.farTime link.member.toItinerary, false⟩
  /-- A ride behind another stays where its schedule puts it. -/
  | connects (hride : link.member.isStreetOnly = false) (hscheduled : placed.streetOnly = false) :
      Joins direction placed link
        ⟨attach direction placed.legs link.member.legs,
          direction.farTime link.member.toItinerary, false⟩

/-- One more run is placed in one of three forms. -/
theorem join_cases {direction : Direction} {placed next : Placed} {link : Link}
    (hok : placed.join direction link = .ok next) : placed.Joins direction link next := by
  unfold join at hok
  obtain ⟨due, hdue, hok⟩ := bind_eq_ok_iff.1 hok
  cases hslides : link.member.isStreetOnly with
  | true =>
    simp only [hslides, Bool.not_true, Bool.and_false, Bool.false_eq_true, if_false, if_true,
      Bool.and_true, bind_eq_ok_iff, Except.ok.injEq, exists_eq_left', pure, Except.pure] at hok
    obtain ⟨added, hadded, frontier, hfrontier, rfl⟩ := hok
    exact .follows hslides hdue hadded hfrontier
  | false =>
    cases hstreet : placed.streetOnly with
    | true =>
      simp only [hslides, hstreet, Bool.not_false, Bool.and_true, Bool.and_false, if_true,
        Bool.false_eq_true, if_false, bind_eq_ok_iff, shiftLegs_zero, Instant.shift_zero,
        Except.ok.injEq, exists_eq_left', pure, Except.pure] at hok
      obtain ⟨before, hbefore, rfl⟩ := hok
      exact .meets hslides hstreet hdue hbefore
    | false =>
      simp only [hslides, hstreet, Bool.not_false, Bool.and_true, Bool.and_false,
        Bool.false_eq_true, if_false, bind_eq_ok_iff, shiftLegs_zero, Instant.shift_zero,
        Except.ok.injEq, exists_eq_left', pure, Except.pure] at hok
      cases hok
      exact .connects hslides hstreet

/-- The run of a last link is placed after those of the links before. -/
theorem joinAll_concat (direction : Direction) (placed : Placed) (links : List Link)
    (link : Link) :
    placed.joinAll direction (links ++ [link]) =
      placed.joinAll direction links >>= fun before => before.join direction link := by
  induction links generalizing placed with
  | nil => cases h : placed.join direction link <;> simp [joinAll, h, bind, Except.bind]
  | cons first links ih =>
    cases h : placed.join direction first with
    | error cause => simp [joinAll, h, bind, Except.bind]
    | ok next => simpa [joinAll, h, bind, Except.bind] using ih next

end Placed

/-- The legs of a sequence as flattening places them. -/
def Sequence.place (s : Sequence) : Except Fault Placed :=
  (Placed.start s.direction s.first).joinAll s.direction s.links

/-- The run of a new member is placed behind those of the sequence before. -/
theorem Sequence.place_push (s : Sequence) (wait : Int) (next : Candidate)
    (origin frontier : Instant) :
    (s.push wait next origin frontier).place =
      s.place >>= fun placed => placed.join s.direction ⟨wait, next⟩ :=
  Placed.joinAll_concat s.direction _ s.links ⟨wait, next⟩

/-! ### The layout of a sequence -/

/-- A run is a copy of the legs of a member, moved as a whole. One that rides transit has not
been moved. -/
def MovedAs (c : Candidate) (run : List Leg) : Prop :=
  ∃ span, shiftLegs span c.legs = .ok run ∧ (c.isStreetOnly = false → span = 0)

/-- A run of a linear member is linear. -/
theorem MovedAs.linear {c : Candidate} {run : List Leg} (h : MovedAs c run) (hc : c.Linear) :
    ∀ leg ∈ run, leg.Linear := by
  obtain ⟨span, hmoved, -⟩ := h
  exact linear_of_shiftLegs hc hmoved

/-- A run on the street may be moved once more. -/
theorem MovedAs.shift {c : Candidate} {run run' : List Leg} {span : Int} (h : MovedAs c run)
    (hc : c.Linear) (hstreet : c.isStreetOnly = true) (hrun : shiftLegs span run = .ok run') :
    MovedAs c run' := by
  obtain ⟨span', hmoved, -⟩ := h
  exact ⟨span' + span, shiftLegs_trans hc hmoved hrun, by simp [hstreet]⟩

/-- Runs of members on the street may all be moved once more. -/
theorem MovedAs.shift_all {members : List Candidate} {runs runs' : List (List Leg)} {span : Int}
    (h : List.Forall₂ MovedAs members runs) (hlinear : ∀ c ∈ members, c.Linear)
    (hstreet : ∀ c ∈ members, c.isStreetOnly = true)
    (hruns : List.Forall₂ (fun run run' => shiftLegs span run = .ok run') runs runs') :
    List.Forall₂ MovedAs members runs' := by
  induction h generalizing runs' with
  | nil =>
    cases hruns
    exact .nil
  | cons hmoved _ ih =>
    rw [List.forall_mem_cons] at hlinear hstreet
    cases hruns with
    | cons hrun hrest =>
      exact .cons (hmoved.shift hlinear.1 hstreet.1 hrun) (ih hlinear.2 hstreet.2 hrest)

/-- Two runs, the second behind the first in the order of growth, lie a wait apart. -/
def Direction.Apart (direction : Direction) (wait : Int) (placed added : List Leg) : Prop :=
  ∃ far near : Instant, direction.farInstant? placed = some far ∧
    direction.nearInstant? added = some near ∧ far.Linear ∧ near.Linear ∧
    near.nanos = far.nanos + wait * direction.sign

/-- Runs that move together stay as far apart as they are. -/
theorem Direction.Apart.shift {direction : Direction} {wait span : Int}
    {placed placed' added added' : List Leg} (h : direction.Apart wait placed added)
    (hplaced : shiftLegs span placed = .ok placed') (hadded : shiftLegs span added = .ok added') :
    direction.Apart wait placed' added' := by
  obtain ⟨far, near, hfar, hnear, hfarLinear, hnearLinear, hapart⟩ := h
  obtain ⟨far', hfar', hfarShift⟩ := direction.farInstant?_shiftLegs hplaced hfar
  obtain ⟨near', hnear', hnearShift⟩ := direction.nearInstant?_shiftLegs hadded hnear
  obtain ⟨hfarNanos, hfarLinear'⟩ := hfarLinear.shift_eq_ok_iff.1 hfarShift
  obtain ⟨hnearNanos, hnearLinear'⟩ := hnearLinear.shift_eq_ok_iff.1 hnearShift
  exact ⟨far', near', hfar', hnear', hfarLinear', hnearLinear', by omega⟩

/-- What flattening has placed agrees with what the sequence has booked. The runs are listed in
the order of growth. -/
structure Layout (s : Sequence) (runs : List (List Leg)) (placed : Placed) : Prop where
  /-- The placed legs are those of the runs. -/
  legs_eq : placed.legs = (s.direction.inTravelOrder runs).flatten
  /-- There is one run for each member. -/
  moved : List.Forall₂ MovedAs s.grown runs
  /-- Neighbouring runs are apart by the booked wait. -/
  apart : Linked s.direction.Apart (s.links.map Link.wait) runs
  /-- The near end of the placed legs is the fixed end of the sequence. -/
  near : s.direction.nearInstant? placed.legs = some s.originTime
  /-- The frontier is the growing end of the sequence. -/
  frontier_eq : placed.frontier = s.frontierTime
  /-- The last run ends at the frontier. -/
  far : ∃ last, runs.getLast? = some last ∧ s.direction.farInstant? last = some s.frontierTime
  /-- Both know whether all members stay on the street. -/
  streetOnly_eq : placed.streetOnly = s.streetOnly

namespace Layout

/-- A single itinerary is placed as it is. -/
theorem single (direction : Direction) (first : Candidate) :
    Layout (.single direction first) [first.legs] (Placed.start direction first) where
  legs_eq := by cases direction <;> simp [Placed.start, Sequence.single, Direction.inTravelOrder]
  moved := .cons ⟨0, shiftLegs_zero _, fun _ => rfl⟩ .nil
  apart := .single _
  near := direction.nearInstant?_legs first.toItinerary
  frontier_eq := rfl
  far := ⟨first.legs, rfl, direction.farInstant?_legs first.toItinerary⟩
  streetOnly_eq := rfl

/-- A run that keeps its wait may be placed behind the others. -/
theorem push {s : Sequence} {runs : List (List Leg)} {placed : Placed} (h : Layout s runs placed)
    (hfrontier : s.frontierTime.Linear) {wait : Int} {next : Candidate} {added : List Leg}
    {near frontier : Instant} (hadded : MovedAs next added)
    (hnear : s.direction.nearInstant? added = some near) (hlinear : near.Linear)
    (hwait : near.nanos = s.frontierTime.nanos + wait * s.direction.sign)
    (hfar : s.direction.farInstant? added = some frontier) :
    Layout (s.push wait next s.originTime frontier) (runs ++ [added])
      ⟨Placed.attach s.direction placed.legs added, frontier,
        placed.streetOnly && next.isStreetOnly⟩ where
  legs_eq := by
    rw [Sequence.push_direction, Direction.flatten_inTravelOrder_concat, h.legs_eq]
  moved := by
    rw [Sequence.push_grown]
    exact List.rel_append h.moved (.cons hadded .nil)
  apart := by
    obtain ⟨last, hlast, hlastFar⟩ := h.far
    obtain ⟨init, rfl⟩ := List.getLast?_eq_some_iff.1 hlast
    simpa using h.apart.concat ⟨_, near, hlastFar, hnear, hfrontier, hlinear, hwait⟩
  near := s.direction.nearInstant?_attach added h.near
  frontier_eq := rfl
  far := ⟨added, by simp, hfar⟩
  streetOnly_eq := by rw [Sequence.push_streetOnly, h.streetOnly_eq]

/-- The layout of a sequence on the street may be moved as a whole. -/
theorem shift {s : Sequence} {runs : List (List Leg)} {placed : Placed} (h : Layout s runs placed)
    (hlinear : ∀ c ∈ s.grown, c.Linear) (hstreet : ∀ c ∈ s.grown, c.isStreetOnly = true)
    {span : Int} {moved : List Leg} (hmoved : shiftLegs span placed.legs = .ok moved) :
    ∃ runs' origin frontier, s.originTime.shift span = .ok origin ∧
      s.frontierTime.shift span = .ok frontier ∧
      Layout { s with originTime := origin, frontierTime := frontier } runs'
        ⟨moved, frontier, placed.streetOnly⟩ := by
  obtain ⟨origin, hnear, horigin⟩ := s.direction.nearInstant?_shiftLegs hmoved h.near
  rw [h.legs_eq] at hmoved
  obtain ⟨runs', hruns, rfl⟩ := s.direction.shiftLegs_inTravelOrder hmoved
  obtain ⟨last, hlast, hlastFar⟩ := h.far
  obtain ⟨last', hlast', hshift⟩ := getLast?_of_forall₂ hruns hlast
  obtain ⟨frontier, hfar, hfrontier⟩ := s.direction.farInstant?_shiftLegs hshift hlastFar
  refine ⟨runs', origin, frontier, horigin, hfrontier, ?_⟩
  exact
    { legs_eq := rfl
      moved := MovedAs.shift_all h.moved hlinear hstreet hruns
      apart := h.apart.map_items hruns fun hx hy happart => happart.shift hx hy
      near := hnear
      frontier_eq := rfl
      far := ⟨last', hlast', hfar⟩
      streetOnly_eq := h.streetOnly_eq }

/-- Where a member on the street is placed is where an extension books it. -/
theorem follows {s : Sequence} {runs : List (List Leg)} {placed : Placed}
    (h : Layout s runs placed) (hs : s.frontierTime.Linear) {next : Candidate}
    (hnext : next.Linear) {wait : Int} {due booked frontier : Instant} {added : List Leg}
    (hstreet : next.isStreetOnly = true)
    (hbooked : s.frontierTime.shift ((wait + next.duration) * s.direction.sign) = .ok booked)
    (hdue : placed.frontier.shift (wait * s.direction.sign) = .ok due)
    (hadded : shiftLegs (Placed.gap s.direction ⟨wait, next⟩ due) next.legs = .ok added)
    (hfrontier : (s.direction.farTime next.toItinerary).shift
      (Placed.gap s.direction ⟨wait, next⟩ due) = .ok frontier) :
    ∃ runs', Layout (s.push wait next s.originTime booked) runs'
      ⟨Placed.attach s.direction placed.legs added, frontier, placed.streetOnly⟩ := by
  rw [h.frontier_eq] at hdue
  obtain ⟨hdueNanos, hdueLinear⟩ := hs.shift_eq_ok_iff.1 hdue
  have hnearTime := s.direction.nearTime_linear hnext
  have hgap : Placed.gap s.direction ⟨wait, next⟩ due =
      due.nanos - (s.direction.nearTime next.toItinerary).nanos :=
    Placed.gap_eq hdueLinear hnext
  obtain ⟨near, hnear, hnearShift⟩ :=
    s.direction.nearInstant?_shiftLegs hadded (s.direction.nearInstant?_legs next.toItinerary)
  obtain ⟨far, hfar, hfarShift⟩ :=
    s.direction.farInstant?_shiftLegs hadded (s.direction.farInstant?_legs next.toItinerary)
  obtain ⟨hnearNanos, hnearLinear⟩ := hnearTime.shift_eq_ok_iff.1 hnearShift
  have hwait : near.nanos = s.frontierTime.nanos + wait * s.direction.sign := by omega
  have hlayout := h.push hs ⟨_, hadded, by simp [hstreet]⟩ hnear hnearLinear hwait hfar
  obtain rfl : far = frontier := by
    rw [hfarShift] at hfrontier
    exact Except.ok.inj hfrontier
  obtain rfl : far = booked := by
    obtain ⟨hbookedNanos, hbookedLinear⟩ := hs.shift_eq_ok_iff.1 hbooked
    obtain ⟨hfarNanos, hfarLinear⟩ :=
      (s.direction.farTime_linear hnext).shift_eq_ok_iff.1 hfarShift
    refine hfarLinear.eq_of_nanos_eq hbookedLinear ?_
    rw [s.direction.farTime_nanos hnext] at hfarNanos
    rw [Int.add_mul] at hbookedNanos
    omega
  rw [hstreet, Bool.and_true] at hlayout
  exact ⟨_, hlayout⟩

/-- Where legs on the street are moved to meet a ride is where an extension books them. -/
theorem meets {s : Sequence} {runs : List (List Leg)} {placed : Placed}
    (h : Layout s runs placed) (hs : s.Grown) {next : Candidate} (hnext : next.Linear)
    {wait : Int} {due booked : Instant} {before : List Leg} (hride : next.isStreetOnly = false)
    (hstreet : s.streetOnly = true)
    (hbooked : (s.direction.nearTime next.toItinerary).shift
      (-((wait + s.finish.since s.start) * s.direction.sign)) = .ok booked)
    (hdue : placed.frontier.shift (wait * s.direction.sign) = .ok due)
    (hbefore : shiftLegs (-Placed.gap s.direction ⟨wait, next⟩ due) placed.legs = .ok before) :
    ∃ runs', Layout (s.push wait next booked (s.direction.farTime next.toItinerary)) runs'
      ⟨Placed.attach s.direction before next.legs, s.direction.farTime next.toItinerary,
        false⟩ := by
  rw [h.frontier_eq] at hdue
  obtain ⟨horiginLinear, hfrontierLinear⟩ := hs.linear
  obtain ⟨hdueNanos, hdueLinear⟩ := hfrontierLinear.shift_eq_ok_iff.1 hdue
  have hnearTime := s.direction.nearTime_linear hnext
  have hgap : Placed.gap s.direction ⟨wait, next⟩ due =
      due.nanos - (s.direction.nearTime next.toItinerary).nanos :=
    Placed.gap_eq hdueLinear hnext
  have hall : ∀ c ∈ s.grown, c.isStreetOnly = true := by
    rw [hs.streetOnly_eq, List.all_eq_true] at hstreet
    exact hstreet
  obtain ⟨runs', origin, frontier, horigin, hfrontier, hmoved⟩ :=
    h.shift hs.linear_of_mem hall hbefore
  obtain ⟨hfrontierNanos, hfrontierLinear'⟩ := hfrontierLinear.shift_eq_ok_iff.1 hfrontier
  have hwait : (s.direction.nearTime next.toItinerary).nanos =
      frontier.nanos + wait * s.direction.sign := by omega
  have hlayout := hmoved.push hfrontierLinear' ⟨0, shiftLegs_zero _, fun _ => rfl⟩
    (s.direction.nearInstant?_legs next.toItinerary) hnearTime hwait
    (s.direction.farInstant?_legs next.toItinerary)
  obtain rfl : origin = booked := by
    obtain ⟨horiginNanos, horiginLinear'⟩ := horiginLinear.shift_eq_ok_iff.1 horigin
    obtain ⟨hbookedNanos, hbookedLinear⟩ := hnearTime.shift_eq_ok_iff.1 hbooked
    refine horiginLinear'.eq_of_nanos_eq hbookedLinear ?_
    have hspan := Sequence.frontierTime_nanos horiginLinear hfrontierLinear
    rw [Int.add_mul] at hbookedNanos
    omega
  rw [hride, Bool.and_false] at hlayout
  exact ⟨_, hlayout⟩

/-- A ride behind another is placed where its schedule puts it, as an extension books it. -/
theorem connects {s : Sequence} {runs : List (List Leg)} {placed : Placed}
    (h : Layout s runs placed) (hs : s.frontierTime.Linear) {next : Candidate}
    (hnext : next.Linear) (hride : next.isStreetOnly = false) :
    Layout (s.push (s.scheduledWait next) next s.originTime
        (s.direction.farTime next.toItinerary)) (runs ++ [next.legs])
      ⟨Placed.attach s.direction placed.legs next.legs, s.direction.farTime next.toItinerary,
        false⟩ := by
  have hnearTime := s.direction.nearTime_linear hnext
  have hwait : (s.direction.nearTime next.toItinerary).nanos =
      s.frontierTime.nanos + s.scheduledWait next * s.direction.sign := by
    rw [Sequence.scheduledWait, Int.mul_assoc, s.direction.sign_mul_sign, Int.mul_one,
      Instant.since_eq hnearTime hs]
    omega
  have hlayout := h.push hs ⟨0, shiftLegs_zero _, fun _ => rfl⟩
    (s.direction.nearInstant?_legs next.toItinerary) hnearTime hwait
    (s.direction.farInstant?_legs next.toItinerary)
  rw [hride, Bool.and_false] at hlayout
  exact hlayout

/-- An extension books what flattening then places. -/
theorem extend {s t : Sequence} {runs : List (List Leg)} {placed placed' : Placed}
    (h : Layout s runs placed) (hs : s.Grown) {next : Candidate} (hnext : next.Linear)
    {minWait maxWait wait : Int} (hext : s.Extends next minWait maxWait t)
    (hwait : t.links = s.links ++ [⟨wait, next⟩])
    (hjoin : placed.Joins s.direction ⟨wait, next⟩ placed') : ∃ runs', Layout t runs' placed' := by
  cases hext with
  | follows hstreet hbooked =>
    obtain rfl : minWait = wait := by simpa using hwait
    cases hjoin with
    | follows _ hdue hadded hfrontier =>
      exact h.follows hs.linear.2 hnext hstreet hbooked hdue hadded hfrontier
    | meets hride => simp [hstreet] at hride
    | connects hride => simp [hstreet] at hride
  | meets hride hstreet hbooked =>
    obtain rfl : minWait = wait := by simpa using hwait
    cases hjoin with
    | follows hnextStreet => simp [hride] at hnextStreet
    | meets _ _ hdue hbefore => exact h.meets hs hnext hride hstreet hbooked hdue hbefore
    | connects _ hscheduled => simp [h.streetOnly_eq, hstreet] at hscheduled
  | connects hride hscheduled =>
    cases hjoin with
    | follows hnextStreet => simp [hride] at hnextStreet
    | meets _ hstreet => simp [h.streetOnly_eq, hscheduled] at hstreet
    | connects => exact ⟨_, h.connects hs.linear.2 hnext hride⟩

end Layout

/-- The legs of a grown sequence, if flattening can place them, are laid out as the sequence has
booked them. -/
theorem Sequence.Grown.exists_layout {s : Sequence} (h : s.Grown) {placed : Placed}
    (hplaced : s.place = .ok placed) : ∃ runs, Layout s runs placed := by
  induction h generalizing placed with
  | @single direction first =>
    cases hplaced
    exact ⟨_, Layout.single direction first⟩
  | @extend s t next minWait maxWait hs hnext _ hok ih =>
    have hext := (extend_cases hok).2
    obtain ⟨wait, origin, frontier, rfl, -, -⟩ := hext.eq_push
    rw [place_push] at hplaced
    obtain ⟨before, hbefore, hjoin⟩ := bind_eq_ok_iff.1 hplaced
    obtain ⟨runs, hlayout⟩ := ih hbefore
    exact hlayout.extend hs hnext hext rfl (Placed.join_cases hjoin)

end JourneyPlanner.Composition
