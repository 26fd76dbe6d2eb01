import JourneyPlanner.Proofs.Waits

/-!
# The same journey from either end

Composing one list of itineraries from its two ends makes much the same journey. Each member is
placed by the neighbour it is joined to and the wait between the two. Up to the first ride and from
the last ride on the waits are the same from either end, and so are the times. Between two rides
members stay close to the ride that was joined first, so from the other end they are passed later,
by all the time there is to spare.
-/

namespace JourneyPlanner.Composition

open Journey (Stopover)

/-! ### Runs that agree -/

/-- A member has a run. -/
theorem MovedAs.exists_run {members : List Candidate} {runs : List (List Leg)}
    (h : List.Forall₂ MovedAs members runs) {index : Nat} {c : Candidate}
    (hc : members[index]? = some c) : ∃ run, runs[index]? = some run ∧ MovedAs c run := by
  obtain ⟨hindex, rfl⟩ := List.getElem?_eq_some_iff.1 hc
  obtain ⟨hlength, hruns⟩ := List.forall₂_iff_get.1 h
  have hindex' : index < runs.length := hlength ▸ hindex
  exact ⟨runs[index], List.getElem?_eq_getElem hindex', hruns index hindex hindex'⟩

/-- Of two runs of a linear member, the one is moved to where the other is by as much as their far
ends are apart. -/
theorem MovedAs.shift_eq {c : Candidate} {run run' : List Leg} {direction : Direction}
    {far far' : Instant} {span : Int} (hc : c.Linear) (h : MovedAs c run) (h' : MovedAs c run')
    (hfar : direction.farInstant? run = some far) (hfar' : direction.farInstant? run' = some far')
    (hnanos : far'.nanos = far.nanos + span) : shiftLegs span run = .ok run' := by
  obtain ⟨before, hmoved, -⟩ := h
  obtain ⟨before', hmoved', -⟩ := h'
  have hends := direction.farInstant?_legs c.toItinerary
  have hlinear := direction.farTime_linear hc
  obtain ⟨moved, hmovedFar, hshift⟩ := direction.farInstant?_shiftLegs hmoved hends
  obtain ⟨moved', hmovedFar', hshift'⟩ := direction.farInstant?_shiftLegs hmoved' hends
  obtain rfl : moved = far := Option.some.inj (hmovedFar.symm.trans hfar)
  obtain rfl : moved' = far' := Option.some.inj (hmovedFar'.symm.trans hfar')
  have hspan := (hlinear.shift_eq_ok_iff.1 hshift).1
  have hspan' := (hlinear.shift_eq_ok_iff.1 hshift').1
  obtain rfl : before' = before + span := by omega
  exact shiftLegs_between hc hmoved hmoved'

namespace Direction.Apart

variable {direction : Direction} {wait wait' : Int} {x x' y y' : List Leg}

/-- Runs that are a wait apart are as far apart in the other direction. -/
theorem of_opposite (h : direction.opposite.Apart wait y x) : direction.Apart wait x y := by
  obtain ⟨far, near, hfar, hnear, hfarLinear, hnearLinear, hapart⟩ := h
  refine ⟨near, far, ?_, ?_, hnearLinear, hfarLinear, ?_⟩
  · cases direction <;> exact hnear
  · cases direction <;> exact hfar
  · rw [sign_opposite, Int.mul_neg] at hapart
    omega

/-- A run of a linear member moves with the run behind it, and against it by as much as the wait
between them grows. -/
theorem shift_eq {c : Candidate} (hc : c.Linear) (hx : MovedAs c x) (hx' : MovedAs c x')
    (h : direction.Apart wait x y) (h' : direction.Apart wait' x' y') {span : Int}
    (hy : shiftLegs span y = .ok y') :
    shiftLegs (span + (wait - wait') * direction.sign) x = .ok x' := by
  obtain ⟨far, near, hfar, hnear, -, hlinear, hapart⟩ := h
  obtain ⟨far', near', hfar', hnear', -, -, hapart'⟩ := h'
  obtain ⟨moved, hmoved, hshift⟩ := direction.nearInstant?_shiftLegs hy hnear
  obtain rfl : moved = near' := Option.some.inj (hmoved.symm.trans hnear')
  have hnanos := (hlinear.shift_eq_ok_iff.1 hshift).1
  refine hx.shift_eq hc hx' hfar hfar' ?_
  rw [Int.sub_mul]
  omega

end Direction.Apart

/-- Runs of members with waits between them, all in the order of growth. -/
structure Laid (direction : Direction) (members : List Candidate) (waits : List Int)
    (runs : List (List Leg)) : Prop where
  /-- There is one run for each member. -/
  moved : List.Forall₂ MovedAs members runs
  /-- Neighbouring runs are apart by the wait between them. -/
  apart : Linked direction.Apart waits runs

namespace Laid

variable {direction : Direction} {members : List Candidate} {waits waits' : List Int}
  {runs runs' : List (List Leg)}

/-- The runs of a layout are laid. -/
theorem of_layout {stops : List Stopover} {s : Sequence} {placed : Placed}
    (h : Sequence.Over direction stops members s) (hlayout : Layout s runs placed) :
    Laid direction members (s.links.map Link.wait) runs := by
  have hmoved := hlayout.moved
  have hapart := hlayout.apart
  rw [h.grown_eq] at hmoved
  rw [h.direction_eq] at hapart
  exact ⟨hmoved, hapart⟩

/-- Seen from the other end, runs are laid in the opposite direction. -/
theorem reverse (h : Laid direction.opposite members waits runs) :
    Laid direction members.reverse waits.reverse runs.reverse where
  moved := List.forall₂_reverse_iff.2 h.moved
  apart := h.apart.reverse.imp Direction.Apart.of_opposite

end Laid

/-! ### Sequences that grow in opposite directions -/

/-- Two sequences have grown over the same list from its two ends. The runs of both are listed as
the first one grows. -/
structure FromBothEnds (direction : Direction) (stops : List Stopover) (members : List Candidate)
    (s s' : Sequence) (runs runs' : List (List Leg)) : Prop where
  /-- The first one has grown over the list. -/
  grown : Sequence.Over direction stops members s
  /-- The second one has grown over the reversed list. -/
  grown' : Sequence.Over direction.opposite stops.reverse members.reverse s'
  /-- The runs of the first one are laid. -/
  laid : Laid direction members (s.links.map Link.wait) runs
  /-- So are those of the second one. -/
  laid' : Laid direction members (s'.links.map Link.wait).reverse runs'
  /-- The members are linear. -/
  linear : ∀ c ∈ members, c.Linear

namespace FromBothEnds

variable {direction : Direction} {stops : List Stopover} {members : List Candidate}
  {s s' : Sequence} {runs runs' : List (List Leg)}

/-- Flattening lays the runs of both. -/
theorem of_layout {placed placed' : Placed} (h : Sequence.Over direction stops members s)
    (h' : Sequence.Over direction.opposite stops.reverse members.reverse s')
    (hlayout : Layout s runs placed) (hlayout' : Layout s' runs' placed')
    (hlinear : ∀ c ∈ members, c.Linear) :
    FromBothEnds direction stops members s s' runs runs'.reverse := by
  have hlaid := Laid.of_layout h hlayout
  have hlaid' := (Laid.of_layout h' hlayout').reverse
  rw [List.reverse_reverse] at hlaid'
  exact ⟨h, h', hlaid, hlaid', hlinear⟩

/-- Either sequence may be named first. -/
theorem symm (h : FromBothEnds direction stops members s s' runs runs') :
    FromBothEnds direction.opposite stops.reverse members.reverse s' s runs'.reverse
      runs.reverse where
  grown := h.grown'
  grown' := by simpa using h.grown
  laid := by
    have hlaid' := h.laid'
    rw [← direction.opposite_opposite] at hlaid'
    simpa using hlaid'.reverse
  laid' := by
    have hlaid := h.laid
    rw [← direction.opposite_opposite] at hlaid
    exact hlaid.reverse
  linear := by simpa using h.linear

/-- From one end to the other a member moves with the run behind it, and against it by as much as
the wait between them grows. -/
theorem shift_of_next (h : FromBothEnds direction stops members s s' runs runs') {index : Nat}
    {c : Candidate} (hc : members[index]? = some c) {wait wait' : Int}
    (hwait : (s.links.map Link.wait)[index]? = some wait)
    (hwait' : (s'.links.map Link.wait).reverse[index]? = some wait') {next next' : List Leg}
    (hnext : runs[index + 1]? = some next) (hnext' : runs'[index + 1]? = some next') {span : Int}
    (hshift : shiftLegs span next = .ok next') :
    ∃ run run', runs[index]? = some run ∧ runs'[index]? = some run' ∧
      shiftLegs (span + (wait - wait') * direction.sign) run = .ok run' := by
  have hmember := h.linear c (List.mem_of_getElem? hc)
  obtain ⟨run, hrun, hmoved⟩ := MovedAs.exists_run h.laid.moved hc
  obtain ⟨run', hrun', hmoved'⟩ := MovedAs.exists_run h.laid'.moved hc
  have hapart := h.laid.apart.of_getElem? hwait hrun hnext
  have hapart' := h.laid'.apart.of_getElem? hwait' hrun' hnext'
  exact ⟨run, run', hrun, hrun', hapart.shift_eq hmember hmoved hmoved' hapart' hshift⟩

/-- Rides are placed alike from either end. -/
theorem ride_eq (h : FromBothEnds direction stops members s s' runs runs') {index : Nat}
    {ride : Candidate} (hride : members[index]? = some ride) (hrides : ride.isStreetOnly = false) :
    runs[index]? = some ride.legs ∧ runs'[index]? = some ride.legs := by
  obtain ⟨run, hrun, hmoved⟩ := MovedAs.exists_run h.laid.moved hride
  obtain ⟨run', hrun', hmoved'⟩ := MovedAs.exists_run h.laid'.moved hride
  rw [hrun, hrun', hmoved.eq_legs hrides, hmoved'.eq_legs hrides]
  exact ⟨rfl, rfl⟩

/-- Up to the first ride members are placed alike from either end. -/
theorem run_eq (h : FromBothEnds direction stops members s s' runs runs')
    (hride : ∃ c ∈ members, c.isStreetOnly = false) {index : Nat}
    (hfront : ∀ c ∈ members.take index, c.isStreetOnly = true) : runs[index]? = runs'[index]? := by
  by_cases hindex : index < members.length
  · have hc : members[index]? = some members[index] := List.getElem?_eq_getElem hindex
    cases hrides : members[index].isStreetOnly with
    | false =>
      obtain ⟨hrun, hrun'⟩ := h.ride_eq hc hrides
      rw [hrun, hrun']
    | true =>
      -- A member in front of the first ride is placed by the one behind it.
      have hthrough : ∀ c ∈ members.take (index + 1), c.isStreetOnly = true := by
        intro c hmem
        rw [List.take_succ_eq_append_getElem hindex, List.mem_append, List.mem_singleton] at hmem
        rcases hmem with hmem | rfl
        · exact hfront c hmem
        · exact hrides
      have hbehind : index + 1 < members.length := by
        by_contra hlast
        rw [List.take_of_length_le (by omega)] at hthrough
        obtain ⟨ride, hmem, hrideRides⟩ := hride
        rw [hthrough ride hmem] at hrideRides
        cases hrideRides
      have hsame := run_eq h hride hthrough
      obtain ⟨next, hnext, -⟩ :=
        MovedAs.exists_run h.laid.moved (List.getElem?_eq_getElem hbehind)
      obtain ⟨wait, hwait, hwait'⟩ := h.grown.waits_eq h.grown' hthrough hbehind
      obtain ⟨run, run', hrun, hrun', hshift⟩ :=
        h.shift_of_next hc hwait hwait' hnext (hsame.symm.trans hnext) (shiftLegs_zero next)
      rw [Int.sub_self, Int.zero_mul, Int.add_zero, shiftLegs_zero, Except.ok.injEq] at hshift
      rw [hrun, hrun', hshift]
  · have hlength := h.laid.moved.length_eq
    have hlength' := h.laid'.moved.length_eq
    rw [List.getElem?_eq_none (by omega), List.getElem?_eq_none (by omega)]
termination_by members.length - index

/-- From the last ride on members are placed alike from either end. -/
theorem run_eq_behind (h : FromBothEnds direction stops members s s' runs runs')
    (hride : ∃ c ∈ members, c.isStreetOnly = false) {index : Nat}
    (hbehind : ∀ c ∈ members.drop (index + 1), c.isStreetOnly = true) :
    runs[index]? = runs'[index]? := by
  have hlength := h.laid.moved.length_eq
  have hlength' := h.laid'.moved.length_eq
  by_cases hindex : index < members.length
  · have hfront : ∀ c ∈ members.reverse.take (members.length - 1 - index),
        c.isStreetOnly = true := by
      have hcount : members.length - (members.length - 1 - index) = index + 1 := by omega
      rw [List.take_reverse, hcount]
      simpa using hbehind
    have hsame := h.symm.run_eq (by simpa using hride) hfront
    rw [List.getElem?_reverse (by omega), List.getElem?_reverse (by omega), ← hlength, ← hlength',
      show members.length - 1 - (members.length - 1 - index) = index by omega] at hsame
    exact hsame.symm
  · rw [List.getElem?_eq_none (by omega), List.getElem?_eq_none (by omega)]

/-- Between two consecutive rides members are placed later, in the order of growth, from the other
end: by the time that is to spare. -/
theorem run_shift (h : FromBothEnds direction stops members s s' runs runs') {stretch : Stretch}
    {position index : Nat} (hat : stretch.At stops members position) (hfirst : position < index)
    (hlast : index ≤ position + stretch.between.length) :
    ∃ run run', runs[index]? = some run ∧ runs'[index]? = some run' ∧
      shiftLegs (stretch.spare direction * direction.sign) run = .ok run' := by
  obtain ⟨c, hc, hstreet⟩ := hat.exists_between hfirst hlast
  by_cases hends : index = position + stretch.between.length
  · -- The last member moves towards the second ride by all the time that is to spare.
    subst hends
    obtain ⟨hnext, hnext'⟩ := h.ride_eq hat.getElem?_next stretch.next_rides
    have hwait := h.grown.wait_of_stretch hat
    have hwait' := h.grown'.wait_behind_eq hat.getElem?_lastStop hc hstreet
    obtain ⟨run, run', hrun, hrun', hshift⟩ :=
      h.shift_of_next hc hwait hwait' hnext hnext' (shiftLegs_zero _)
    rw [Int.zero_add, Int.add_sub_cancel] at hshift
    exact ⟨run, run', hrun, hrun', hshift⟩
  · -- The others move with the member behind them.
    have hbehind : index + 1 ≤ position + stretch.between.length := by omega
    obtain ⟨next, next', hnext, hnext', hnextShift⟩ := run_shift h hat (by omega) hbehind
    obtain ⟨follower, hfollower, hstays⟩ := hat.exists_between (by omega) hbehind
    have hlength := h.grown.length_eq
    have hindex := (List.getElem?_eq_some_iff.1 hfollower).1
    have hstop : stops[index]? = some stops[index] := List.getElem?_eq_getElem (by omega)
    have hwait := h.grown.wait_eq hstop hfollower (Or.inl hstays)
    have hwait' := h.grown'.wait_behind_eq hstop hc hstreet
    obtain ⟨run, run', hrun, hrun', hshift⟩ :=
      h.shift_of_next hc hwait hwait' hnext hnext' hnextShift
    rw [Int.sub_self, Int.zero_mul, Int.add_zero] at hshift
    exact ⟨run, run', hrun, hrun', hshift⟩
termination_by position + stretch.between.length - index

end FromBothEnds

/-- The member at an index stays on the street, while some member in front of it and some member
behind it ride. -/
structure BetweenRides (members : List Candidate) (index : Nat) : Prop where
  /-- The member stays on the street. -/
  street : ∃ c, members[index]? = some c ∧ c.isStreetOnly = true
  /-- A member in front of it rides. -/
  front : ∃ c ∈ members.take index, c.isStreetOnly = false
  /-- A member behind it rides. -/
  behind : ∃ c ∈ members.drop (index + 1), c.isStreetOnly = false

/-- The runs of members in two itineraries are timed alike: each leg starts and ends at the same
time in both, unless its member stays on the street between rides. Those members are passed later
in the second itinerary, by the time that is to spare between the two rides around them. -/
structure TimedAlike (stops : List Stopover) (members : List Candidate)
    (runs runs' : List (List Leg)) : Prop where
  /-- Most members are passed at the same time. -/
  same : ∀ index, ¬BetweenRides members index → runs[index]? = runs'[index]?
  /-- Those between two rides are passed later. -/
  later : ∀ (stretch : Stretch) (position index : Nat), stretch.At stops members position →
    position < index → index ≤ position + stretch.between.length →
    ∃ run run', runs[index]? = some run ∧ runs'[index]? = some run' ∧
      shiftLegs (stretch.spare .departAt) run = .ok run'

/-- The runs of sequences that have grown from both ends are timed alike. -/
theorem FromBothEnds.timedAlike {stops : List Stopover} {members : List Candidate}
    {s s' : Sequence} {runs runs' : List (List Leg)}
    (h : FromBothEnds .departAt stops members s s' runs runs')
    (hride : ∃ c ∈ members, c.isStreetOnly = false) : TimedAlike stops members runs runs' := by
  constructor
  · intro index hnot
    by_cases hfront : ∀ c ∈ members.take index, c.isStreetOnly = true
    · exact h.run_eq hride hfront
    · by_cases hbehind : ∀ c ∈ members.drop (index + 1), c.isStreetOnly = true
      · exact h.run_eq_behind hride hbehind
      · -- There are rides on both sides, so the member rides itself and has not been moved.
        have hindex : index < members.length := by
          by_contra hlast
          rw [List.drop_of_length_le (by omega)] at hbehind
          simp at hbehind
        have hc : members[index]? = some members[index] := List.getElem?_eq_getElem hindex
        have hrides : members[index].isStreetOnly = false := by
          by_contra hstreet
          refine hnot ⟨⟨_, hc, by simpa using hstreet⟩, ?_, ?_⟩
          · simpa using hfront
          · simpa using hbehind
        obtain ⟨run, hrun, hmoved⟩ := MovedAs.exists_run h.laid.moved hc
        obtain ⟨run', hrun', hmoved'⟩ := MovedAs.exists_run h.laid'.moved hc
        rw [hrun, hrun', hmoved.eq_legs hrides, hmoved'.eq_legs hrides]
  · intro stretch position index hat hfirst hlast
    have hshift := h.run_shift hat hfirst hlast
    simpa only [Direction.sign, Int.mul_one] using hshift

/-- Two itineraries have the legs of the same members, which are timed alike. -/
def TravelAlike (stops : List Stopover) (members : List Candidate) (it it' : Itinerary) : Prop :=
  ∃ runs runs', it.legs = runs.flatten ∧ it'.legs = runs'.flatten ∧
    List.Forall₂ MovedAs members runs ∧ List.Forall₂ MovedAs members runs' ∧
    TimedAlike stops members runs runs'

namespace Sequence

variable {stops : List Stopover} {members : List Candidate} {s s' : Sequence}

/-- Sequences over the same itineraries that grow in opposite directions come to itineraries that
are timed alike. -/
theorem travelAlike_of_flatten (h : Over .departAt stops members s)
    (h' : Over .arriveBy stops.reverse members.reverse s') (hlinear : ∀ c ∈ members, c.Linear)
    (hride : ∃ c ∈ members, c.isStreetOnly = false) {identity identity' : Identity}
    {flat flat' : Candidate} (hok : s.flatten identity = .ok flat)
    (hok' : s'.flatten identity' = .ok flat') :
    TravelAlike stops members flat.toItinerary flat'.toItinerary := by
  obtain ⟨placed, hplaced, hlegs⟩ := legs_of_flatten hok
  obtain ⟨placed', hplaced', hlegs'⟩ := legs_of_flatten hok'
  obtain ⟨runs, hlayout⟩ := h.grows.exists_layout hplaced
  obtain ⟨runs', hlayout'⟩ := h'.grows.exists_layout hplaced'
  have hboth : FromBothEnds .departAt stops members s s' runs runs'.reverse :=
    .of_layout h h' hlayout hlayout' hlinear
  have hall := hlayout.legs_eq
  have hall' := hlayout'.legs_eq
  rw [h.direction_eq] at hall
  rw [h'.direction_eq] at hall'
  exact ⟨runs, runs'.reverse, hlegs.trans hall, hlegs'.trans hall', hboth.laid.moved,
    hboth.laid'.moved, hboth.timedAlike hride⟩

/-- Itineraries of which one rides compose in both directions or in neither, unless a time leaves
the calendar, if on each stretch between rides the stopovers at both ends have room for the time
to spare or neither has. Whenever they compose in both, they come to itineraries that are timed
alike. -/
theorem directions_agree (hlength : stops.length + 1 = members.length)
    (hlinear : ∀ c ∈ members, c.Linear) (hride : ∃ c ∈ members, c.isStreetOnly = false)
    (hfault : ∀ cause, composeAlong .departAt stops members ≠ .error cause)
    (hfault' : ∀ cause, composeAlong .arriveBy stops members ≠ .error cause) :
    ((∀ stretch : Stretch, stretch.Along stops members → stretch.Balanced) →
      ((∃ s, composeAlong .departAt stops members = .ok (some s)) ↔
        ∃ s', composeAlong .arriveBy stops members = .ok (some s'))) ∧
    ∀ s s', composeAlong .departAt stops members = .ok (some s) →
      composeAlong .arriveBy stops members = .ok (some s') →
      ∀ identity identity', (∀ cause, s.flatten identity ≠ .error (.fault cause)) →
        (∀ cause, s'.flatten identity' ≠ .error (.fault cause)) →
        ∃ flat flat', s.flatten identity = .ok flat ∧ s'.flatten identity' = .ok flat' ∧
          TravelAlike stops members flat.toItinerary flat'.toItinerary := by
  constructor
  · intro hbalanced
    obtain ⟨result, hresult⟩ := exists_ok hfault
    obtain ⟨result', hresult'⟩ := exists_ok hfault'
    have hboth := composed_iff_of_balanced hlength hlinear hbalanced hresult hresult'
    simpa [hresult, hresult', Option.isSome_iff_exists] using hboth
  · intro s s' hok hok' identity identity' hflat hflat'
    have hover := over_of_composeAlong hlength hlinear hok
    have hover' := over_of_composeAlong hlength hlinear hok'
    obtain ⟨flat, hflatten⟩ := hover.grows.exists_flat identity hflat
    obtain ⟨flat', hflatten'⟩ := hover'.grows.exists_flat identity' hflat'
    exact ⟨flat, flat', hflatten, hflatten',
      travelAlike_of_flatten hover hover' hlinear hride hflatten hflatten'⟩

/-- One of the stops in a row, with a wait of so many minutes. -/
private def stopFor (index : Fin 4) (shortest longest : Nat) (h : shortest ≤ longest) :
    Stopover where
  location := .ofPlace (.inRow index)
  minWait := Span.minutes shortest
  maxWait := Span.minutes longest
  minWait_nonneg := by unfold Span.minutes Span.minute Span.second Span.millisecond; omega
  minWait_le_maxWait := by unfold Span.minutes Span.minute Span.second Span.millisecond; omega

/-- A walk to a bus, and another walk to another bus. -/
private def walksToBuses : List Candidate :=
  [between .walk 0 1 400 410, between .bus 1 2 480 500, between .walk 2 3 600 610,
    between .bus 3 0 540 560]

/-- The stops between them, each with an hour of leeway. -/
private def roomyStops : List Stopover :=
  [stopFor 1 5 65 (by decide), stopFor 2 0 60 (by decide), stopFor 3 3 63 (by decide)]

/-- What comes of composing in a direction and flattening, if something does. -/
private def flatAlong (direction : Direction) (stops : List Stopover) (members : List Candidate) :
    Option Candidate :=
  match composeAlong direction stops members with
  | .ok (some s) => (s.flatten (.composed 0)).toOption
  | _ => none

/-- If something does, it comes of a sequence. -/
private theorem exists_of_flatAlong {direction : Direction} {stops : List Stopover}
    {members : List Candidate} (h : (flatAlong direction stops members).isSome = true) :
    ∃ s flat, composeAlong direction stops members = .ok (some s) ∧
      s.flatten (.composed 0) = .ok flat ∧ flatAlong direction stops members = some flat := by
  unfold flatAlong at h ⊢
  cases hs : composeAlong direction stops members with
  | error cause => simp [hs] at h
  | ok result =>
    cases result with
    | none => simp [hs] at h
    | some s =>
      cases hflat : s.flatten (.composed 0) with
      | error failure => simp [hs, hflat, Except.toOption] at h
      | ok flat => exact ⟨s, flat, rfl, hflat, by simp [hflat, Except.toOption]⟩

/-- Walks to buses compose from both ends and are timed alike. -/
theorem walks_to_buses_agree : roomyStops.length + 1 = walksToBuses.length ∧
    (∀ c ∈ walksToBuses, c.Linear) ∧ (∃ c ∈ walksToBuses, c.isStreetOnly = false) ∧
    (∀ cause, composeAlong .departAt roomyStops walksToBuses ≠ .error cause) ∧
    (∀ cause, composeAlong .arriveBy roomyStops walksToBuses ≠ .error cause) ∧
    (∀ stretch : Stretch, stretch.Along roomyStops walksToBuses → stretch.Balanced) ∧
    ∃ s s', composeAlong .departAt roomyStops walksToBuses = .ok (some s) ∧
      composeAlong .arriveBy roomyStops walksToBuses = .ok (some s') ∧
      (∀ cause, s.flatten (.composed 0) ≠ .error (.fault cause)) ∧
      (∀ cause, s'.flatten (.composed 0) ≠ .error (.fault cause)) ∧
      ∃ flat flat', s.flatten (.composed 0) = .ok flat ∧ s'.flatten (.composed 0) = .ok flat' ∧
        TravelAlike roomyStops walksToBuses flat.toItinerary flat'.toItinerary := by
  have hlength : roomyStops.length + 1 = walksToBuses.length := rfl
  have hlinear : ∀ c ∈ walksToBuses, c.Linear := by decide
  have hride : ∃ c ∈ walksToBuses, c.isStreetOnly = false := by decide
  have hfault := ne_error_of_toBool
    (x := composeAlong .departAt roomyStops walksToBuses) (by decide)
  have hfault' := ne_error_of_toBool
    (x := composeAlong .arriveBy roomyStops walksToBuses) (by decide)
  have hleeway : ∀ stop ∈ roomyStops, stop.leeway = Span.minutes 60 := by decide
  have hbalanced : ∀ stretch : Stretch, stretch.Along roomyStops walksToBuses →
      stretch.Balanced := fun stretch halong => halong.balanced hleeway
  obtain ⟨hboth, halike⟩ := directions_agree hlength hlinear hride hfault hfault'
  obtain ⟨s, flat, hs, hflat, -⟩ := exists_of_flatAlong
    (show (flatAlong .departAt roomyStops walksToBuses).isSome = true by decide)
  obtain ⟨t, flat', ht, hflat', -⟩ := exists_of_flatAlong
    (show (flatAlong .arriveBy roomyStops walksToBuses).isSome = true by decide)
  obtain ⟨s', hs'⟩ := (hboth hbalanced).1 ⟨s, hs⟩
  obtain rfl : t = s' := by simpa [ht] using hs'
  have hflatFault : ∀ cause, s.flatten (.composed 0) ≠ .error (.fault cause) := by simp [hflat]
  have hflatFault' : ∀ cause, t.flatten (.composed 0) ≠ .error (.fault cause) := by simp [hflat']
  exact ⟨hlength, hlinear, hride, hfault, hfault', hbalanced, s, t, hs, hs', hflatFault,
    hflatFault', halike s t hs hs' (.composed 0) (.composed 0) hflatFault hflatFault'⟩

/-- A walk between two buses that leave half an hour to spare. -/
private def walkBetweenBuses : List Candidate :=
  [between .bus 0 1 480 500, between .walk 1 2 600 610, between .bus 2 3 540 560]

/-- A wait of ten minutes at most behind the first bus, and of an hour in front of the second. -/
private def roomAtEnd : List Stopover :=
  [stopFor 1 0 10 (by decide), stopFor 2 0 60 (by decide)]

/-- An hour at both. -/
private def roomAtBoth : List Stopover :=
  [stopFor 1 0 60 (by decide), stopFor 2 0 60 (by decide)]

/-- A bus that arrives in an inserted second, and a walk behind it. -/
private def busIntoInserted : List Candidate :=
  [.ofLeg 0 { Leg.onDay .bus (.inRow 0) (.inRow 1) 540 559 with
      finish := ⟨559, 60000000000, by unfold onCalendar; omega, by decide⟩ },
    between .walk 1 2 480 490]

/-- A wait of a minute. -/
private def aMinute : List Stopover :=
  [stopFor 1 1 10 (by decide)]

/-- A walk at the end of the calendar, and a walk to a bus. -/
private def walksOffCalendar : List Candidate :=
  [.ofLeg 0 { Leg.onDay .walk (.inRow 0) (.inRow 1) 0 0 with
      start := .atStartOf 136837781265 (by unfold onCalendar; omega)
      finish := .atStartOf 136837781275 (by unfold onCalendar; omega) },
    between .walk 1 2 480 490, between .bus 2 3 540 560]

/-- What is composed in the two directions flattens into legs that start at different times. -/
private def StartsApart (stops : List Stopover) (members : List Candidate) : Prop :=
  ∃ s s' flat flat', composeAlong .departAt stops members = .ok (some s) ∧
    composeAlong .arriveBy stops members = .ok (some s') ∧
    s.flatten (.composed 0) = .ok flat ∧ s'.flatten (.composed 0) = .ok flat' ∧
    flat.legs.map Leg.start ≠ flat'.legs.map Leg.start

/-- This is seen by flattening. -/
private theorem startsApart_of_flatAlong {stops : List Stopover} {members : List Candidate}
    (h : (flatAlong .departAt stops members).isSome = true)
    (h' : (flatAlong .arriveBy stops members).isSome = true)
    (hstarts : (flatAlong .departAt stops members).map (fun flat => flat.legs.map Leg.start) ≠
      (flatAlong .arriveBy stops members).map fun flat => flat.legs.map Leg.start) :
    StartsApart stops members := by
  obtain ⟨s, flat, hs, hflat, hsome⟩ := exists_of_flatAlong h
  obtain ⟨s', flat', hs', hflat', hsome'⟩ := exists_of_flatAlong h'
  rw [hsome, hsome'] at hstarts
  exact ⟨s, s', flat, flat', hs, hs', hflat, hflat', by simpa using hstarts⟩

/-- Whether a walk between buses can be joined to both may depend on the end one begins at, and so
may the time it is walked at. Behind an inserted second the time of any walk may, and off the
calendar whether there is a result at all. -/
theorem ends_matter :
    ((∃ s, composeAlong .departAt roomAtEnd walkBetweenBuses = .ok (some s)) ∧
      composeAlong .arriveBy roomAtEnd walkBetweenBuses = .ok none) ∧
    StartsApart roomAtBoth walkBetweenBuses ∧ StartsApart aMinute busIntoInserted ∧
    composeAlong .departAt roomAtBoth walksOffCalendar = .error .offCalendar ∧
      ∃ s, composeAlong .arriveBy roomAtBoth walksOffCalendar = .ok (some s) := by
  obtain ⟨s, -, hs, -⟩ := exists_of_flatAlong
    (show (flatAlong .departAt roomAtEnd walkBetweenBuses).isSome = true by decide)
  have hnone : composeAlong .arriveBy roomAtEnd walkBetweenBuses = .ok none := by rfl
  have hfault : composeAlong .departAt roomAtBoth walksOffCalendar = .error .offCalendar := by rfl
  obtain ⟨t, -, ht, -⟩ := exists_of_flatAlong
    (show (flatAlong .arriveBy roomAtBoth walksOffCalendar).isSome = true by decide)
  exact ⟨⟨⟨s, hs⟩, hnone⟩, startsApart_of_flatAlong (by decide) (by decide) (by decide),
    startsApart_of_flatAlong (by decide) (by decide) (by decide), hfault, t, ht⟩

end Sequence

end JourneyPlanner.Composition
