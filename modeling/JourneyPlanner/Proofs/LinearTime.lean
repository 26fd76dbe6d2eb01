import JourneyPlanner.Proofs.Outcomes
import Mathlib.Algebra.GroupWithZero.Nat
import Mathlib.Algebra.Ring.Int.Defs
import Mathlib.Data.List.Chain

/-!
# Linear time

Away from inserted seconds instants are plain numbers of nanoseconds: a move adds
its span, and the span between two instants is their difference. This file carries
that arithmetic from instants to legs and itineraries, where the later proofs about
composed journeys use it.
-/

namespace JourneyPlanner

/-- The instant lies outside inserted seconds. -/
def Instant.Linear (a : Instant) : Prop :=
  a.isInserted = false

instance (a : Instant) : Decidable a.Linear :=
  inferInstanceAs (Decidable (_ = _))

namespace Instant

/-- Outside inserted seconds the nanoseconds tell instants apart. -/
theorem Linear.eq_of_nanos_eq {a b : Instant} (ha : a.Linear) (hb : b.Linear)
    (h : a.nanos = b.nanos) : a = b := by
  have hab := (le_iff_nanos_le ha hb).2 (Int.le_of_eq h)
  have hba := (le_iff_nanos_le hb ha).2 (Int.le_of_eq h.symm)
  exact eq_of_rank_eq (Int.le_antisymm (le_def.1 hab) (le_def.1 hba))

/-- A move that succeeds leads to the one instant with the nanoseconds it spans. -/
theorem Linear.shift_eq_ok_iff {a b : Instant} {span : Int} (ha : a.Linear) :
    a.shift span = .ok b ↔ b.nanos = a.nanos + span ∧ b.Linear := by
  constructor
  · exact nanos_of_shift ha
  · rintro ⟨hnanos, hb⟩
    rw [Instant.shift_eq_ok_iff, shift?, if_pos (.inl ha), ← hnanos]
    exact ofNanos?_nanos hb

/-- Two instants that are moved alike stay in order. -/
theorem Linear.shift_le {a b a' b' : Instant} {span : Int} (ha : a.Linear) (hb : b.Linear)
    (hab : a ≤ b) (haa' : a.shift span = .ok a') (hbb' : b.shift span = .ok b') : a' ≤ b' := by
  obtain ⟨hnanos, ha'⟩ := ha.shift_eq_ok_iff.1 haa'
  obtain ⟨hnanos', hb'⟩ := hb.shift_eq_ok_iff.1 hbb'
  have hle := (le_iff_nanos_le ha hb).1 hab
  exact (le_iff_nanos_le ha' hb').2 (by omega)

/-- Two moves in a row come to one move by the sum of their spans. -/
theorem Linear.shift_trans {a b c : Instant} {span span' : Int} (ha : a.Linear)
    (hab : a.shift span = .ok b) (hbc : b.shift span' = .ok c) :
    a.shift (span + span') = .ok c := by
  obtain ⟨hnanos, hb⟩ := nanos_of_shift ha hab
  obtain ⟨hnanos', hc⟩ := nanos_of_shift hb hbc
  exact ha.shift_eq_ok_iff.2 ⟨by omega, hc⟩

/-- Of two moves of an instant, the one leads to where the other does by their difference. -/
theorem Linear.shift_between {a b c : Instant} {span span' : Int} (ha : a.Linear)
    (hab : a.shift span = .ok b) (hac : a.shift (span + span') = .ok c) :
    b.shift span' = .ok c := by
  obtain ⟨hnanos, hb⟩ := ha.shift_eq_ok_iff.1 hab
  obtain ⟨hnanos', hc⟩ := ha.shift_eq_ok_iff.1 hac
  exact hb.shift_eq_ok_iff.2 ⟨by omega, hc⟩

end Instant

/-- Both ends of the leg lie outside inserted seconds. -/
structure Leg.Linear (leg : Leg) : Prop where
  /-- It starts outside inserted seconds. -/
  start : leg.start.Linear
  /-- It ends outside inserted seconds. -/
  finish : leg.finish.Linear

instance (leg : Leg) : Decidable leg.Linear :=
  decidable_of_iff (leg.start.Linear ∧ leg.finish.Linear) ⟨fun h => ⟨h.1, h.2⟩, fun h => ⟨h.1, h.2⟩⟩

namespace Leg

/-- A moved leg differs in its two ends only, each of which has been moved. -/
theorem shift_eq_ok_iff {leg moved : Leg} {span : Int} :
    leg.shift span = .ok moved ↔
      ∃ start finish, leg.start.shift span = .ok start ∧ leg.finish.shift span = .ok finish ∧
        moved = { leg with start := start, finish := finish } := by
  simp only [shift, bind_eq_ok_iff, pure, Except.pure, Except.ok.injEq]
  constructor
  · rintro ⟨start, hstart, finish, hfinish, rfl⟩
    exact ⟨start, finish, hstart, hfinish, rfl⟩
  · rintro ⟨start, finish, hstart, hfinish, rfl⟩
    exact ⟨start, hstart, finish, hfinish, rfl⟩

/-- A leg moved by nothing stays. -/
theorem shift_zero (leg : Leg) : leg.shift 0 = .ok leg :=
  shift_eq_ok_iff.2 ⟨leg.start, leg.finish, Instant.shift_zero _, Instant.shift_zero _, rfl⟩

/-- Two moves of a leg in a row come to one move by the sum of their spans. -/
theorem Linear.shift_trans {leg moved again : Leg} {span span' : Int} (hleg : leg.Linear)
    (hmoved : leg.shift span = .ok moved) (hagain : moved.shift span' = .ok again) :
    leg.shift (span + span') = .ok again := by
  obtain ⟨start, finish, hstart, hfinish, rfl⟩ := shift_eq_ok_iff.1 hmoved
  obtain ⟨start', finish', hstart', hfinish', rfl⟩ := shift_eq_ok_iff.1 hagain
  exact shift_eq_ok_iff.2 ⟨start', finish', hleg.start.shift_trans hstart hstart',
    hleg.finish.shift_trans hfinish hfinish', rfl⟩

/-- Of two copies of a linear leg, the one is moved to where the other is by the difference of
their moves. -/
theorem Linear.shift_between {leg moved moved' : Leg} {span span' : Int} (hleg : leg.Linear)
    (hmoved : leg.shift span = .ok moved) (hmoved' : leg.shift (span + span') = .ok moved') :
    moved.shift span' = .ok moved' := by
  obtain ⟨start, finish, hstart, hfinish, rfl⟩ := shift_eq_ok_iff.1 hmoved
  obtain ⟨start', finish', hstart', hfinish', rfl⟩ := shift_eq_ok_iff.1 hmoved'
  exact shift_eq_ok_iff.2 ⟨start', finish', hleg.start.shift_between hstart hstart',
    hleg.finish.shift_between hfinish hfinish', rfl⟩

/-- A linear leg that does not end before it starts does not when it has been moved. -/
theorem Linear.start_le_finish_of_shift {leg moved : Leg} {span : Int} (hleg : leg.Linear)
    (hordered : leg.start ≤ leg.finish) (hmoved : leg.shift span = .ok moved) :
    moved.start ≤ moved.finish := by
  obtain ⟨start, finish, hstart, hfinish, rfl⟩ := shift_eq_ok_iff.1 hmoved
  exact hleg.start.shift_le hleg.finish hordered hstart hfinish

/-- A moved leg stays outside inserted seconds. -/
theorem Linear.of_shift {leg moved : Leg} {span : Int} (hleg : leg.Linear)
    (hmoved : leg.shift span = .ok moved) : moved.Linear := by
  obtain ⟨start, finish, hstart, hfinish, rfl⟩ := shift_eq_ok_iff.1 hmoved
  exact ⟨(Instant.nanos_of_shift hleg.start hstart).2,
    (Instant.nanos_of_shift hleg.finish hfinish).2⟩

instance (legs : List Leg) : Decidable (Chained legs) :=
  decidable_of_iff _ (@Itinerary.firstOverlap?_eq_none_iff 1 legs)

/-- A moved leg is travelled the same way. -/
theorem isTransit_of_shift {leg moved : Leg} {span : Int} (hmoved : leg.shift span = .ok moved) :
    moved.isTransit = leg.isTransit := by
  obtain ⟨start, finish, -, -, rfl⟩ := shift_eq_ok_iff.1 hmoved
  rfl

/-- Legs are chained in the sense of lists in general. -/
theorem chained_iff_isChain {legs : List Leg} :
    Chained legs ↔ legs.IsChain fun a b => a.finish ≤ b.start := by
  fun_induction Chained legs with
  | case1 a b rest ih => rw [ih, List.isChain_cons_cons]
  | case2 legs hshort =>
    rcases legs with _ | ⟨a, _ | ⟨b, rest⟩⟩
    · simp
    · simp
    · exact absurd rfl (hshort a b rest)

/-- Chained legs that do not run backward start no later than they end. -/
theorem start_le_finish_of_chained {legs : List Leg} (hchained : Chained legs)
    (hordered : ∀ leg ∈ legs, leg.start ≤ leg.finish) {first last : Leg}
    (hfirst : first ∈ legs.head?) (hlast : last ∈ legs.getLast?) : first.start ≤ last.finish := by
  have hpairwise := Itinerary.pairwise_of_chained hchained hordered
  obtain ⟨rest, rfl⟩ := List.head?_eq_some_iff.1 hfirst
  have hmem : last ∈ first :: rest := List.mem_of_getLast? hlast
  have hstart := hordered first (by simp)
  rcases List.mem_cons.1 hmem with rfl | hmem
  · exact hstart
  · have hbetween := (List.pairwise_cons.1 hpairwise).1 last hmem
    exact Int.le_trans hstart (Int.le_trans hbetween
      (hordered last (List.mem_cons_of_mem first hmem)))

/-- A leg that is not refused does not end before it starts. -/
theorem start_le_finish_of_of {mode : Mode} {origin destination : Place} {start finish : Instant}
    {leg : Leg} (hok : Leg.of mode origin destination start finish = .ok leg) :
    leg.start ≤ leg.finish := by
  unfold Leg.of at hok
  split at hok
  · cases hok
    assumption
  · cases hok

end Leg

namespace Itinerary

/-- Every leg of the itinerary lies outside inserted seconds. -/
def Linear (it : Itinerary) : Prop :=
  ∀ leg ∈ it.legs, leg.Linear

/-- No leg of the itinerary ends before it starts, as no leg does that was not refused. -/
def Forward (it : Itinerary) : Prop :=
  ∀ leg ∈ it.legs, leg.start ≤ leg.finish

instance (it : Itinerary) : Decidable it.Linear :=
  inferInstanceAs (Decidable (∀ leg ∈ it.legs, leg.Linear))

instance (it : Itinerary) : Decidable it.Forward :=
  inferInstanceAs (Decidable (∀ leg ∈ it.legs, leg.start ≤ leg.finish))

/-- The itinerary starts outside inserted seconds. -/
theorem Linear.start {it : Itinerary} (h : it.Linear) : it.start.Linear :=
  (h _ (List.head_mem it.legs_ne_nil)).start

/-- The itinerary ends outside inserted seconds. -/
theorem Linear.finish {it : Itinerary} (h : it.Linear) : it.finish.Linear :=
  (h _ (List.getLast_mem it.legs_ne_nil)).finish

/-- The duration is the difference of the two ends. -/
theorem Linear.duration_eq {it : Itinerary} (h : it.Linear) :
    it.duration = it.finish.nanos - it.start.nanos :=
  Instant.since_eq h.finish h.start

end Itinerary

/-! ### Legs on one day -/

-- Named, so that a minute or a stop that is written as a number means the same in every module.
instance minutes_in_day : NeZero 1440 := ⟨by decide⟩

instance stops_in_row : NeZero 4 := ⟨by decide⟩

/-- The start of a minute on the calendar. -/
def Instant.atStartOf (minuteNumber : Int) (h : onCalendar minuteNumber) : Instant where
  minuteNumber := minuteNumber
  intoMinute := 0
  bounded := h
  within := by decide

/-- A minute of the first day of 1970. -/
def Instant.ofMinute (minute : Fin 1440) : Instant :=
  .atStartOf minute (by unfold onCalendar; omega)

/-- A place at a stop, named as the stop is. -/
def Place.ofStop (text : String) (h : text ≠ "") : Place :=
  ⟨text, some ⟨text, h⟩, none⟩

/-- Four stops in a row, from "A" to "D". -/
def Place.inRow (index : Fin 4) : Place :=
  .ofStop (["A", "B", "C", "D"].get index) (by revert index; decide)

/-- A leg from one minute of the day to another, without any other property. -/
def Leg.onDay (mode : Mode) (origin destination : Place) (start finish : Fin 1440) : Leg :=
  ⟨mode, origin, destination, .ofMinute start, .ofMinute finish, 0.0, 0, none, false, false⟩

/-- The candidate of some legs that follow each other. -/
def Candidate.ofLegs (index : Nat) (legs : List Leg) (hne : legs ≠ []) (h : Leg.Chained legs) :
    Candidate :=
  .of (.known index) ⟨legs, (legs.map Leg.cost).sum, 0.0, 0.0, false, false, hne, h⟩

/-- The candidate of a single leg. -/
def Candidate.ofLeg (index : Nat) (leg : Leg) : Candidate :=
  .ofLegs index [leg] (List.cons_ne_nil leg []) trivial

/-- The candidate at another cost. -/
def Candidate.costing (c : Candidate) (cost : Int) : Candidate :=
  { c with cost := cost }

end JourneyPlanner
