import JourneyPlanner.Proofs.Feasibility
import JourneyPlanner.Proofs.MirroredSequences
import JourneyPlanner.Proofs.SameLocation
import Mathlib.Algebra.BigOperators.Group.List.Basic

/-!
# Time to spare between rides

Itineraries that are listed in the order of travel can be composed from either end. Both
directions ask that neighbours touch, and that between two consecutive rides there is time for
what is crossed, with every shortest wait. What is left of that time is to spare. The two
directions differ in where it is spent: at the stopover that is reached last as the sequence
grows, which is the one in front of the later ride for departures and the one behind the earlier
ride for arrivals.
-/

namespace JourneyPlanner

/-- How much longer than the shortest wait the longest one is. -/
def Journey.Stopover.leeway (stop : Journey.Stopover) : Int :=
  stop.maxWait - stop.minWait

namespace Composition

open Journey (Stopover)

/-! ### Stretches -/

/-- Two consecutive rides and what lies between them. -/
structure Stretch where
  /-- The ride in front. -/
  ride : Candidate
  /-- The ride behind. -/
  next : Candidate
  /-- The itineraries between the rides. -/
  between : List Candidate
  /-- The stopovers between the rides. -/
  stops : List Stopover
  /-- The ride in front takes transit. -/
  ride_rides : ride.isStreetOnly = false
  /-- The ride behind takes transit. -/
  next_rides : next.isStreetOnly = false
  /-- Nothing between them does. -/
  between_street : ∀ c ∈ between, c.isStreetOnly = true
  /-- There is a stopover in front of each itinerary between them and one behind the last. -/
  length_stops : stops.length = between.length + 1

namespace Stretch

/-- There is a stopover. -/
theorem stops_ne_nil (stretch : Stretch) : stretch.stops ≠ [] := by
  intro hnil
  have hlength := stretch.length_stops
  rw [hnil, List.length_nil] at hlength
  omega

/-- The stopover behind the first ride. -/
def firstStop (stretch : Stretch) : Stopover :=
  stretch.stops.head stretch.stops_ne_nil

/-- The stopover in front of the second ride. -/
def lastStop (stretch : Stretch) : Stopover :=
  stretch.stops.getLast stretch.stops_ne_nil

/-- The stretch seen from the other end. -/
def reverse (stretch : Stretch) : Stretch where
  ride := stretch.next
  next := stretch.ride
  between := stretch.between.reverse
  stops := stretch.stops.reverse
  ride_rides := stretch.next_rides
  next_rides := stretch.ride_rides
  between_street := fun c hc => stretch.between_street c (List.mem_reverse.1 hc)
  length_stops := by simpa using stretch.length_stops

/-- Seen from both ends a stretch is what it was. -/
@[simp] theorem reverse_reverse (stretch : Stretch) : stretch.reverse.reverse = stretch := by
  cases stretch
  simp [reverse]

/-- The last stopover is the first one from the other end. -/
@[simp] theorem reverse_lastStop (stretch : Stretch) :
    stretch.reverse.lastStop = stretch.firstStop := by
  simp [lastStop, firstStop, reverse]

/-- The least time that is needed between the rides. -/
def needed (stretch : Stretch) : Int :=
  (stretch.between.map fun c => c.duration).sum + (stretch.stops.map Stopover.minWait).sum

/-- As much time is needed from the other end. -/
@[simp] theorem reverse_needed (stretch : Stretch) : stretch.reverse.needed = stretch.needed := by
  simp [needed, reverse, List.sum_reverse]

/-- The time between the rides that is not needed, for a stretch in the order of growth. -/
def spare (direction : Direction) (stretch : Stretch) : Int :=
  direction.sign * (direction.nearTime stretch.next.toItinerary).since
    (direction.farTime stretch.ride.toItinerary) - stretch.needed

/-- As much time is to spare from the other end. -/
theorem reverse_spare (stretch : Stretch) (hride : stretch.ride.Linear)
    (hnext : stretch.next.Linear) :
    stretch.reverse.spare .arriveBy = stretch.spare .departAt := by
  have hback : (stretch.ride.finish).since stretch.next.start =
      -(stretch.next.start).since stretch.ride.finish := by
    rw [Instant.since_eq hride.finish hnext.start, Instant.since_eq hnext.start hride.finish]
    omega
  unfold spare
  rw [reverse_needed]
  simp only [reverse, Direction.sign, Direction.nearTime, Direction.farTime]
  rw [hback]
  omega

/-- The first stopover has room for the time to spare exactly if the last one has. -/
def Balanced (stretch : Stretch) : Prop :=
  stretch.spare .departAt ≤ stretch.firstStop.leeway ↔
    stretch.spare .departAt ≤ stretch.lastStop.leeway

/-- The stretch is a part of a list of itineraries with the stopovers between them, with its first
ride at a position. -/
def At (stops : List Stopover) (members : List Candidate) (position : Nat) (stretch : Stretch) :
    Prop :=
  ∃ front back stopsFront stopsBack,
    members = front ++ stretch.ride :: (stretch.between ++ stretch.next :: back) ∧
    stops = stopsFront ++ (stretch.stops ++ stopsBack) ∧
    front.length = position ∧ stopsFront.length = position

/-- The stretch is a part of a list of itineraries with the stopovers between them. -/
def Along (stops : List Stopover) (members : List Candidate) (stretch : Stretch) : Prop :=
  ∃ position, stretch.At stops members position

/-- A part of a list is, from the other end, a part of the list from the other end. -/
theorem Along.reverse {stops : List Stopover} {members : List Candidate} {stretch : Stretch}
    (h : stretch.Along stops members) (hlength : stops.length + 1 = members.length) :
    stretch.reverse.Along stops.reverse members.reverse := by
  obtain ⟨position, front, back, stopsFront, stopsBack, rfl, rfl, hfront, hstopsFront⟩ := h
  have hstops := stretch.length_stops
  simp only [List.length_append, List.length_cons] at hlength
  refine ⟨back.length, back.reverse, front.reverse, stopsBack.reverse, stopsFront.reverse, ?_, ?_,
    List.length_reverse, ?_⟩
  · simp [Stretch.reverse]
  · simp [Stretch.reverse]
  · rw [List.length_reverse]
    omega

/-- The rides of a part of a list are in the list. -/
theorem Along.mem {stops : List Stopover} {members : List Candidate} {stretch : Stretch}
    (h : stretch.Along stops members) : stretch.ride ∈ members ∧ stretch.next ∈ members := by
  obtain ⟨-, front, back, -, -, rfl, -⟩ := h
  simp

/-- Under the same leeway at all stopovers both ends have room for the same time. -/
theorem Along.balanced {stops : List Stopover} {members : List Candidate} {stretch : Stretch}
    (h : stretch.Along stops members) {leeway : Int}
    (hleeway : ∀ stop ∈ stops, stop.leeway = leeway) : stretch.Balanced := by
  obtain ⟨-, -, -, stopsFront, stopsBack, -, rfl, -⟩ := h
  have hfirst : stretch.firstStop ∈ stretch.stops := List.head_mem stretch.stops_ne_nil
  have hlast : stretch.lastStop ∈ stretch.stops := List.getLast_mem stretch.stops_ne_nil
  unfold Balanced
  rw [hleeway _ (by simp [hfirst]), hleeway _ (by simp [hlast])]

end Stretch

/-! ### Feasible stretches -/

/-- The far place of each itinerary is the near place of the one behind it. -/
def Direction.Touching (direction : Direction) (grown : List Candidate) : Prop :=
  grown.IsChain fun a b => (direction.nearPlace b.toItinerary).sameLocation
    (direction.farPlace a.toItinerary) = true

/-- Itineraries touch in one direction exactly if they do in the other. -/
theorem Direction.touching_reverse_iff {members : List Candidate} :
    Direction.arriveBy.Touching members.reverse ↔ Direction.departAt.Touching members := by
  unfold Touching
  rw [List.isChain_reverse]
  constructor
  · intro h
    exact h.imp fun a b hab => by rwa [Place.sameLocation_comm]
  · intro h
    exact h.imp fun a b hab => by rwa [Place.sameLocation_comm]

/-- On a stretch there is time for what is crossed, and no more of it than may be spent in front
of the ride behind. -/
structure Stretch.Fits (direction : Direction) (stretch : Stretch) : Prop where
  /-- There is enough time. -/
  enough : 0 ≤ stretch.spare direction
  /-- There is not too much time. -/
  within : stretch.spare direction ≤ stretch.lastStop.leeway

section Feasible

variable {direction : Direction} {gate : Stopover} {stops : List Stopover}
  {members : List Candidate}

/-- The parts behind an itinerary are those of the itineraries and of the stopovers behind it. -/
theorem exists_parts_behind (gate : Stopover) (front behind : List Candidate) (ride : Candidate)
    {stopsFront : List Stopover} (stopsBehind : List Stopover)
    (hlength : stopsFront.length = front.length) :
    ∃ before stop, parts (gate :: (stopsFront ++ stopsBehind)) (front ++ ride :: behind) =
      before ++ ⟨stop, ride⟩ :: parts stopsBehind behind := by
  obtain ⟨stopsBefore, stop, hbefore⟩ : ∃ stopsBefore stop,
      gate :: stopsFront = stopsBefore ++ [stop] :=
    ⟨_, _, (List.dropLast_append_getLast (by simp)).symm⟩
  have hcount : stopsBefore.length = front.length := by
    have hlengths := congrArg List.length hbefore
    simp at hlengths
    omega
  refine ⟨parts stopsBefore front, stop, ?_⟩
  rw [← List.cons_append, hbefore, List.append_assoc, parts_append hcount]
  rfl

/-- What is crossed on the stretch, with the stopovers in front of it. -/
def Stretch.crossed (stretch : Stretch) : List Part :=
  parts stretch.stops.dropLast stretch.between

/-- All stopovers but the last one are in front of what is crossed. -/
theorem Stretch.length_dropLast (stretch : Stretch) :
    stretch.stops.dropLast.length = stretch.between.length := by
  rw [List.length_dropLast, stretch.length_stops]
  omega

/-- What is crossed lies between the rides. -/
theorem Stretch.map_itinerary_crossed (stretch : Stretch) :
    stretch.crossed.map Part.itinerary = stretch.between :=
  map_itinerary_parts (by rw [stretch.length_dropLast])

/-- The stopovers are those in front of what is crossed and the last one. -/
theorem Stretch.map_stopover_crossed (stretch : Stretch) :
    stretch.crossed.map Part.stopover ++ [stretch.lastStop] = stretch.stops := by
  rw [crossed, map_stopover_parts (by rw [stretch.length_dropLast])]
  exact List.dropLast_append_getLast stretch.stops_ne_nil

/-- Nothing that is crossed rides. -/
theorem Stretch.crossed_street (stretch : Stretch) :
    ∀ part ∈ stretch.crossed, part.itinerary.isStreetOnly = true := by
  intro part hpart
  have hmem := List.mem_map_of_mem (f := Part.itinerary) hpart
  rw [stretch.map_itinerary_crossed] at hmem
  exact stretch.between_street _ hmem

/-- The parts of a stretch and of what is behind it. -/
theorem Stretch.parts_eq (stretch : Stretch) (stopsBack : List Stopover) (back : List Candidate) :
    parts (stretch.stops ++ stopsBack) (stretch.between ++ stretch.next :: back) =
      stretch.crossed ++ ⟨stretch.lastStop, stretch.next⟩ :: parts stopsBack back := by
  have hstops := List.dropLast_append_getLast stretch.stops_ne_nil
  conv_lhs => rw [← hstops, List.append_assoc, parts_append stretch.length_dropLast]
  rfl

/-- A stretch of the parts of a list is a stretch of the list. -/
theorem Stretch.exists_along {front between back : List Part} {ride next : Part}
    (hparts : parts (gate :: stops) members = front ++ ride :: (between ++ next :: back))
    (hlength : stops.length + 1 = members.length) (hride : ride.itinerary.isStreetOnly = false)
    (hnext : next.itinerary.isStreetOnly = false)
    (hbetween : ∀ part ∈ between, part.itinerary.isStreetOnly = true) :
    ∃ stretch : Stretch, stretch.Along stops members ∧ stretch.ride = ride.itinerary ∧
      stretch.next = next.itinerary ∧ stretch.lastStop = next.stopover ∧
      stretch.between = between.map Part.itinerary ∧
      stretch.stops = between.map Part.stopover ++ [next.stopover] := by
  have hitineraries : (parts (gate :: stops) members).map Part.itinerary = members :=
    map_itinerary_parts (by simp; omega)
  have hstopovers : (parts (gate :: stops) members).map Part.stopover = gate :: stops :=
    map_stopover_parts (by simp; omega)
  rw [hparts] at hitineraries hstopovers
  obtain ⟨stopsFront, hfront⟩ : ∃ stopsFront,
      front.map Part.stopover ++ [ride.stopover] = gate :: stopsFront := by
    cases front with
    | nil =>
      have hhead : ride.stopover = gate := by simp at hstopovers; exact hstopovers.1
      exact ⟨[], by simp [hhead]⟩
    | cons a front =>
      have hhead : a.stopover = gate := by simp at hstopovers; exact hstopovers.1
      exact ⟨front.map Part.stopover ++ [ride.stopover], by simp [hhead]⟩
  refine ⟨⟨ride.itinerary, next.itinerary, between.map Part.itinerary,
    between.map Part.stopover ++ [next.stopover], hride, hnext, ?_, by simp⟩,
    ⟨front.length, front.map Part.itinerary, back.map Part.itinerary, stopsFront,
      back.map Part.stopover, ?_, ?_, List.length_map _, ?_⟩, rfl, rfl, ?_, rfl, rfl⟩
  · simpa using hbetween
  · simpa using hitineraries.symm
  · have hassoc : gate :: stops =
        (front.map Part.stopover ++ [ride.stopover]) ++
          ((between.map Part.stopover ++ [next.stopover]) ++ back.map Part.stopover) := by
      simpa using hstopovers.symm
    rw [hfront] at hassoc
    exact (List.cons.inj hassoc).2
  · have hcount := congrArg List.length hfront
    simp at hcount
    simpa using hcount.symm
  · simp [lastStop]

/-- The slack is the time to spare, with the shortest wait in front of the ride behind. -/
theorem slack_eq (direction : Direction) {stretch : Stretch} {between : List Part}
    (hbetween : between.map Part.itinerary = stretch.between)
    (hstops : between.map Part.stopover ++ [stretch.lastStop] = stretch.stops) :
    slack direction stretch.ride between stretch.next =
      stretch.spare direction + stretch.lastStop.minWait := by
  have hcrossing : (between.map Part.crossing).sum =
      (between.map fun part => part.stopover.minWait).sum +
        (between.map fun part => part.itinerary.duration).sum :=
    List.sum_map_add
  unfold slack Stretch.spare Stretch.needed
  rw [hcrossing, ← hbetween, ← hstops]
  simp only [List.map_map, List.map_append, List.sum_append, Function.comp_def, List.map_singleton,
    List.sum_singleton]
  omega

/-- The slack of a stretch is its time to spare, with the shortest wait in front of the ride
behind. -/
theorem Stretch.slack_crossed (stretch : Stretch) (direction : Direction) :
    slack direction stretch.ride stretch.crossed stretch.next =
      stretch.spare direction + stretch.lastStop.minWait :=
  slack_eq direction stretch.map_itinerary_crossed stretch.map_stopover_crossed

/-- Itineraries touch exactly if any two parts next to each other do. -/
theorem Direction.touching_iff_parts (hlength : stops.length + 1 = members.length) :
    direction.Touching members ↔ ∀ {front a b back},
      parts (gate :: stops) members = front ++ a :: b :: back →
        (direction.nearPlace b.itinerary.toItinerary).sameLocation
          (direction.farPlace a.itinerary.toItinerary) = true := by
  have hitineraries : (parts (gate :: stops) members).map Part.itinerary = members :=
    map_itinerary_parts (by simp; omega)
  unfold Direction.Touching
  conv_lhs => rw [← hitineraries]
  rw [List.isChain_map, List.isChain_iff_forall_rel_of_append_cons_cons]
  constructor
  · intro h front a b back hparts
    exact h hparts
  · intro h a b front back hparts
    exact h hparts

/-- A combination is feasible exactly if its itineraries touch and each stretch fits. -/
theorem feasible_iff (hlength : stops.length + 1 = members.length) :
    Feasible direction (parts (gate :: stops) members) ↔
      direction.Touching members ∧
        ∀ stretch : Stretch, stretch.Along stops members → stretch.Fits direction := by
  constructor
  · intro h
    refine ⟨(Direction.touching_iff_parts hlength).2 h.touches, fun stretch hstretch => ?_⟩
    obtain ⟨-, front, back, stopsFront, stopsBack, rfl, rfl, rfl, hlengthFront⟩ := hstretch
    obtain ⟨before, stop, hparts⟩ := exists_parts_behind gate front
      (stretch.between ++ stretch.next :: back) stretch.ride (stretch.stops ++ stopsBack)
      hlengthFront
    rw [stretch.parts_eq] at hparts
    have hfits := h.fits hparts stretch.ride_rides stretch.next_rides stretch.crossed_street
    simp only [stretch.slack_crossed] at hfits
    constructor
    · omega
    · unfold Stopover.leeway
      omega
  · rintro ⟨htouches, hfits⟩
    refine ⟨parts_ne_nil (by simp) (by rintro rfl; simp at hlength),
      (Direction.touching_iff_parts hlength).1 htouches, ?_⟩
    intro front ride between next back hparts hride hnext hbetween
    obtain ⟨stretch, halong, hstretchRide, hstretchNext, hlast, hstretchBetween, hstops⟩ :=
      Stretch.exists_along hparts hlength hride hnext hbetween
    obtain ⟨henough, hwithin⟩ := hfits stretch halong
    have hslack := slack_eq direction hstretchBetween.symm (hlast.symm ▸ hstops.symm)
    unfold Stopover.leeway at hwithin
    rw [hstretchRide, hstretchNext] at hslack
    rw [hslack, ← hlast]
    omega

end Feasible

/-! ### Composing along a list -/

/-- What is joined to a sequence when a part is. -/
def Part.addition (part : Part) : Addition :=
  ⟨part.itinerary, part.stopover.minWait, part.stopover.maxWait⟩

namespace Sequence

/-- Further stopovers do not matter to a sequence. -/
theorem Tracks.more {direction : Direction} {stops : List Stopover} {s : Sequence}
    (h : Tracks direction stops s) (more : List Stopover) : Tracks direction (stops ++ more) s := by
  have hlength := h.length_le
  refine ⟨h.direction_eq, h.grown, by simp; omega, ?_⟩
  rw [parts_append_stops more hlength]
  exact h.frontier

/-- Composes itineraries that are listed in the order of travel, with the stopovers between
them. -/
def composeAlong (direction : Direction) (stops : List Stopover) (members : List Candidate) :
    Except Fault (Option Sequence) :=
  match direction.inTravelOrder members with
  | [] => .ok none
  | first :: others =>
    compose direction first ((parts (direction.inTravelOrder stops) others).map Part.addition)

/-- A sequence that has grown over linear itineraries with the stopovers between them, both in
the order of growth. -/
inductive Over (direction : Direction) : List Stopover → List Candidate → Sequence → Prop
  | single {first : Candidate} (hfirst : first.Linear) :
      Over direction [] [first] (single direction first)
  | extend {stops : List Stopover} {members : List Candidate} {s t : Sequence} {stop : Stopover}
      {next : Candidate} (hs : Over direction stops members s) (hnext : next.Linear)
      (hok : s.extend next stop.minWait stop.maxWait = .ok (some t)) :
      Over direction (stops ++ [stop]) (members ++ [next]) t

namespace Over

variable {direction : Direction} {gate : Stopover} {stops : List Stopover}
  {members : List Candidate} {s : Sequence}

/-- There is a stopover between every two itineraries. -/
theorem length_eq (h : Over direction stops members s) : stops.length + 1 = members.length := by
  induction h with
  | single => rfl
  | extend _ _ _ ih => simp [ih]

/-- The sequence grows in the direction. -/
theorem direction_eq (h : Over direction stops members s) : s.direction = direction := by
  induction h with
  | single => rfl
  | extend _ _ hok ih =>
    obtain ⟨wait, origin, frontier, rfl, -, -⟩ := (extend_cases hok).2.eq_push
    exact ih

/-- The itineraries are those of the sequence. -/
theorem grown_eq (h : Over direction stops members s) : s.grown = members := by
  induction h with
  | single => rfl
  | extend _ _ hok ih =>
    obtain ⟨wait, origin, frontier, rfl, -, -⟩ := (extend_cases hok).2.eq_push
    rw [push_grown, ih]

/-- The sequence has grown by extensions. -/
theorem grows (h : Over direction stops members s) : s.Grown := by
  induction h with
  | single hfirst => exact .single hfirst
  | @extend stops members s t stop next hs hnext hok ih =>
    exact ih.extend hnext stop.minWait_nonneg hok

/-- There is a wait for each stopover. -/
theorem length_links (h : Over direction stops members s) : s.links.length = stops.length := by
  have hmembers := congrArg List.length h.grown_eq
  have hstops := h.length_eq
  rw [grown, List.length_cons, List.length_map] at hmembers
  omega

/-- The sequence tracks the combination of its itineraries. -/
theorem tracks (h : Over direction stops members s) : Tracks direction (gate :: stops) s := by
  induction h with
  | single hfirst => exact .single direction rfl hfirst
  | @extend stops members s t stop next hs hnext hok ih =>
    have hlength := hs.length_eq
    have hgrown := hs.grown_eq
    have hlonger : Tracks direction (gate :: (stops ++ [stop])) s :=
      ih.more [stop]
    exact (hlonger.extend (by simp [hgrown, ← hlength]) hnext hok).2

/-- What the sequence holds is feasible. -/
theorem feasible (h : Over direction stops members s) (gate : Stopover) :
    Feasible direction (parts (gate :: stops) members) := by
  induction h with
  | single => exact feasible_singleton direction _
  | @extend stops members s t stop next hs hnext hok ih =>
    have hlength := hs.length_eq
    have htracks : Tracks direction (gate :: stops) s := hs.tracks
    have hcontinues := htracks.continues_of_extend hnext hok
    rw [hs.grown_eq] at hcontinues
    have hsplit : parts (gate :: (stops ++ [stop])) (members ++ [next]) =
        parts (gate :: stops) members ++ [⟨stop, next⟩] :=
      @parts_append (gate :: stops) [stop] members [next] (by simpa using hlength)
    rw [hsplit]
    exact (feasible_concat_iff ih.ne_nil).2 ⟨ih, hcontinues⟩

/-- Itineraries that are joined one after the other make a sequence over all of them, unless the
combination is not feasible. -/
theorem extendBy (h : Over direction stops members s) (gate : Stopover) {rest : List Stopover}
    {others : List Candidate} (hlength : rest.length = others.length)
    (hlinear : ∀ c ∈ others, c.Linear) {result : Option Sequence}
    (hok : s.extendBy ((parts rest others).map Part.addition) = .ok result) :
    (∃ t, result = some t ∧ Over direction (stops ++ rest) (members ++ others) t) ∨
      (result = none ∧
        ¬Feasible direction (parts (gate :: (stops ++ rest)) (members ++ others))) := by
  induction others generalizing stops members s rest with
  | nil =>
    obtain rfl := List.length_eq_zero_iff.1 hlength
    cases hok
    exact Or.inl ⟨s, rfl, by simpa using h⟩
  | cons next others ih =>
    cases rest with
    | nil => simp at hlength
    | cons stop rest =>
      rw [List.forall_mem_cons] at hlinear
      obtain ⟨extended, hextended, hrest⟩ := bind_eq_ok_iff.1 hok
      cases extended with
      | none =>
        cases hrest
        refine Or.inr ⟨rfl, fun hfeasible => ?_⟩
        have hcount := h.length_eq
        have htracks : Tracks direction (gate :: stops) s := h.tracks
        have hnot := htracks.not_continues_of_extend hlinear.1 hextended
        rw [h.grown_eq] at hnot
        have hsplit : parts (gate :: (stops ++ stop :: rest)) (members ++ next :: others) =
            (parts (gate :: stops) members ++ [⟨stop, next⟩]) ++ parts rest others := by
          rw [← List.cons_append, parts_append (by simpa using hcount)]
          simp [parts]
        rw [hsplit] at hfeasible
        have hfront := hfeasible.of_append (by simp)
        exact hnot ((feasible_concat_iff (h.feasible gate).ne_nil).1 hfront).2
      | some t =>
        have hover := h.extend hlinear.1 hextended
        simpa using ih hover (by simpa using hlength) hlinear.2 hrest

end Over

section Composed

variable {direction : Direction} {stops : List Stopover} {members : List Candidate}
  {result result' : Option Sequence}

/-- Itineraries compose exactly if they touch and each stretch fits, in the order of growth. The
sequence that they make has grown over them. -/
theorem composeAlong_cases (hlength : stops.length + 1 = members.length)
    (hlinear : ∀ c ∈ members, c.Linear) (hok : composeAlong direction stops members = .ok result) :
    (∃ s, result = some s ∧
        Over direction (direction.inTravelOrder stops) (direction.inTravelOrder members) s) ∨
      (result = none ∧ ¬(direction.Touching (direction.inTravelOrder members) ∧
        ∀ stretch : Stretch, stretch.Along (direction.inTravelOrder stops)
          (direction.inTravelOrder members) → stretch.Fits direction)) := by
  have hcount : (direction.inTravelOrder stops).length + 1 =
      (direction.inTravelOrder members).length := by
    cases direction <;> simpa [Direction.inTravelOrder] using hlength
  have hall : ∀ c ∈ direction.inTravelOrder members, c.Linear := by simpa using hlinear
  unfold composeAlong at hok
  generalize direction.inTravelOrder members = grown at *
  generalize direction.inTravelOrder stops = crossed at *
  cases grown with
  | nil => simp at hcount
  | cons first others =>
    rw [List.forall_mem_cons] at hall
    have hsingle : Over direction [] [first] (.single direction first) := .single hall.1
    rcases hsingle.extendBy (.atEnd (.ofPlace first.origin)) (by simpa using hcount) hall.2 hok
      with ⟨s, hs, hover⟩ | ⟨hnone, hnot⟩
    · exact Or.inl ⟨s, hs, by simpa using hover⟩
    · rw [List.nil_append, List.singleton_append, feasible_iff hcount] at hnot
      exact Or.inr ⟨hnone, hnot⟩

/-- What is composed along a list has grown over it. -/
theorem over_of_composeAlong {s : Sequence} (hlength : stops.length + 1 = members.length)
    (hlinear : ∀ c ∈ members, c.Linear)
    (hok : composeAlong direction stops members = .ok (some s)) :
    Over direction (direction.inTravelOrder stops) (direction.inTravelOrder members) s := by
  rcases composeAlong_cases hlength hlinear hok with ⟨t, ht, hover⟩ | ⟨hnone, -⟩
  · cases ht
    exact hover
  · cases hnone

/-- A sequence over itineraries in the order of growth exists exactly if they touch and each
stretch fits. -/
theorem composed_iff (hlength : stops.length + 1 = members.length)
    (hlinear : ∀ c ∈ members, c.Linear) (hok : composeAlong direction stops members = .ok result) :
    result.isSome = true ↔ direction.Touching (direction.inTravelOrder members) ∧
      ∀ stretch : Stretch, stretch.Along (direction.inTravelOrder stops)
        (direction.inTravelOrder members) → stretch.Fits direction := by
  rcases composeAlong_cases hlength hlinear hok with ⟨s, rfl, hover⟩ | ⟨rfl, hnot⟩
  · have hfeasible := hover.feasible (.atEnd (.ofPlace s.first.origin))
    exact iff_of_true rfl ((feasible_iff hover.length_eq).1 hfeasible)
  · exact iff_of_false (by simp) hnot

/-- Itineraries compose for a departure exactly if neighbours touch and on each stretch there is
enough time, and no more than may be spent in front of the later ride. -/
theorem composed_departAt_iff (hlength : stops.length + 1 = members.length)
    (hlinear : ∀ c ∈ members, c.Linear)
    (hok : composeAlong .departAt stops members = .ok result) :
    result.isSome = true ↔ Direction.departAt.Touching members ∧
      ∀ stretch : Stretch, stretch.Along stops members →
        0 ≤ stretch.spare .departAt ∧ stretch.spare .departAt ≤ stretch.lastStop.leeway := by
  rw [composed_iff hlength hlinear hok]
  refine and_congr_right fun _ => forall₂_congr fun stretch _ => ?_
  exact ⟨fun h => ⟨h.enough, h.within⟩, fun h => ⟨h.1, h.2⟩⟩

/-- Itineraries compose for an arrival exactly if neighbours touch and on each stretch there is
enough time, and no more than may be spent behind the earlier ride. -/
theorem composed_arriveBy_iff (hlength : stops.length + 1 = members.length)
    (hlinear : ∀ c ∈ members, c.Linear)
    (hok : composeAlong .arriveBy stops members = .ok result) :
    result.isSome = true ↔ Direction.departAt.Touching members ∧
      ∀ stretch : Stretch, stretch.Along stops members →
        0 ≤ stretch.spare .departAt ∧ stretch.spare .departAt ≤ stretch.firstStop.leeway := by
  have hback : stops.reverse.length + 1 = members.reverse.length := by simpa using hlength
  rw [composed_iff hlength hlinear hok]
  refine and_congr Direction.touching_reverse_iff ⟨fun h stretch halong => ?_,
    fun h stretch halong => ?_⟩
  · obtain ⟨hride, hnext⟩ := halong.mem
    obtain ⟨henough, hwithin⟩ := h stretch.reverse (halong.reverse hlength)
    rw [stretch.reverse_spare (hlinear _ hride) (hlinear _ hnext)] at henough hwithin
    rw [stretch.reverse_lastStop] at hwithin
    exact ⟨henough, hwithin⟩
  · have halong' : stretch.reverse.Along stops members := by
      simpa [Direction.inTravelOrder] using halong.reverse hback
    obtain ⟨hride, hnext⟩ := halong'.mem
    have hspare := stretch.reverse.reverse_spare (hlinear _ hride) (hlinear _ hnext)
    have hlast := stretch.reverse.reverse_lastStop
    rw [stretch.reverse_reverse] at hspare hlast
    obtain ⟨henough, hwithin⟩ := h stretch.reverse halong'
    exact ⟨hspare ▸ henough, hspare ▸ hlast ▸ hwithin⟩

/-- Itineraries compose in both directions or in neither, if on each stretch the first stopover
has room for the time to spare exactly if the last one has. -/
theorem composed_iff_of_balanced (hlength : stops.length + 1 = members.length)
    (hlinear : ∀ c ∈ members, c.Linear)
    (hbalanced : ∀ stretch : Stretch, stretch.Along stops members → stretch.Balanced)
    (hok : composeAlong .departAt stops members = .ok result)
    (hok' : composeAlong .arriveBy stops members = .ok result') :
    result.isSome = true ↔ result'.isSome = true := by
  rw [composed_departAt_iff hlength hlinear hok, composed_arriveBy_iff hlength hlinear hok']
  refine and_congr_right fun _ => forall₂_congr fun stretch halong => and_congr_right fun _ => ?_
  exact (hbalanced stretch halong).symm

end Composed

end Sequence

end Composition

end JourneyPlanner
