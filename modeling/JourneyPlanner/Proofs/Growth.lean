import JourneyPlanner.Composition.Sequence
import JourneyPlanner.Proofs.LinearTime

/-!
# How sequences grow

A successful extension takes one of three forms: the new itinerary slides to follow
the sequence, the sequence slides to meet the new ride, or two schedules decide the
wait. Every fact about sequences below is read off these three forms, so that later
proofs do not return to the definition of an extension.
-/

namespace JourneyPlanner.Composition

namespace Direction

/-- Growing against time twice is growing with it. -/
@[simp] theorem sign_mul_sign (direction : Direction) : direction.sign * direction.sign = 1 := by
  cases direction <;> rfl

/-- The near end of a linear itinerary is linear. -/
theorem nearTime_linear (direction : Direction) {it : Itinerary} (h : it.Linear) :
    (direction.nearTime it).Linear := by
  cases direction
  · exact h.start
  · exact h.finish

/-- The far end of a linear itinerary is linear. -/
theorem farTime_linear (direction : Direction) {it : Itinerary} (h : it.Linear) :
    (direction.farTime it).Linear := by
  cases direction
  · exact h.finish
  · exact h.start

/-- From the near to the far end it is the duration, in the direction of growth. -/
theorem farTime_nanos (direction : Direction) {it : Itinerary} (h : it.Linear) :
    (direction.farTime it).nanos =
      (direction.nearTime it).nanos + it.duration * direction.sign := by
  rw [h.duration_eq]
  cases direction <;> simp only [farTime, nearTime, sign] <;> omega

end Direction

namespace Sequence

/-- The last of the itineraries is the one at the growing end. -/
theorem getLast?_grown (s : Sequence) : s.grown.getLast? = some s.last := by
  unfold grown last
  rw [List.getLast?_cons, List.getLast?_map]

/-- The wait that two schedules leave between a sequence and a new ride. -/
def scheduledWait (s : Sequence) (next : Candidate) : Int :=
  (s.direction.nearTime next.toItinerary).since s.frontierTime * s.direction.sign

/-- The case analysis of an extension, with the wait between schedules by its name. -/
theorem extend_eq (s : Sequence) (next : Candidate) (minWait maxWait : Int) :
    s.extend next minWait maxWait =
      if !(s.direction.nearPlace next.toItinerary).sameLocation s.frontierPlace then .ok none
      else if next.isStreetOnly then
        s.frontierTime.shift ((minWait + next.duration) * s.direction.sign) >>= fun frontier =>
          .ok (some (s.push minWait next s.originTime frontier))
      else if s.streetOnly then
        (s.direction.nearTime next.toItinerary).shift
          (-((minWait + s.finish.since s.start) * s.direction.sign)) >>= fun origin =>
          .ok (some (s.push minWait next origin (s.direction.farTime next.toItinerary)))
      else if s.scheduledWait next < minWait ∨ maxWait < s.scheduledWait next then .ok none
      else
        .ok (some (s.push (s.scheduledWait next) next s.originTime
          (s.direction.farTime next.toItinerary))) := rfl

/-- The three forms of a successful extension. -/
inductive Extends (s : Sequence) (next : Candidate) (minWait maxWait : Int) : Sequence → Prop
  /-- A new itinerary on the street slides to follow the sequence. -/
  | follows {frontier : Instant} (hstreet : next.isStreetOnly = true)
      (hfrontier : s.frontierTime.shift ((minWait + next.duration) * s.direction.sign) =
        .ok frontier) :
      Extends s next minWait maxWait (s.push minWait next s.originTime frontier)
  /-- A sequence on the street slides to meet its first ride. -/
  | meets {origin : Instant} (hride : next.isStreetOnly = false) (hstreet : s.streetOnly = true)
      (horigin : (s.direction.nearTime next.toItinerary).shift
        (-((minWait + s.finish.since s.start) * s.direction.sign)) = .ok origin) :
      Extends s next minWait maxWait
        (s.push minWait next origin (s.direction.farTime next.toItinerary))
  /-- Two schedules leave a wait within the bounds. -/
  | connects (hride : next.isStreetOnly = false) (hscheduled : s.streetOnly = false)
      (hmin : minWait ≤ s.scheduledWait next) (hmax : s.scheduledWait next ≤ maxWait) :
      Extends s next minWait maxWait
        (s.push (s.scheduledWait next) next s.originTime (s.direction.farTime next.toItinerary))

/-- A sequence is extended only by what touches its growing end, and in one of three forms. -/
theorem extend_cases {s t : Sequence} {next : Candidate} {minWait maxWait : Int}
    (hok : s.extend next minWait maxWait = .ok (some t)) :
    (s.direction.nearPlace next.toItinerary).sameLocation s.frontierPlace = true ∧
      s.Extends next minWait maxWait t := by
  rw [extend_eq] at hok
  split at hok
  · cases hok
  · rename_i htouches
    refine ⟨by simpa using htouches, ?_⟩
    split at hok
    · rename_i hstreet
      obtain ⟨frontier, hfrontier, hpush⟩ := bind_eq_ok_iff.1 hok
      cases hpush
      exact .follows hstreet hfrontier
    · rename_i hride
      rw [Bool.not_eq_true] at hride
      split at hok
      · rename_i hstreet
        obtain ⟨origin, horigin, hpush⟩ := bind_eq_ok_iff.1 hok
        cases hpush
        exact .meets hride hstreet horigin
      · rename_i hscheduled
        rw [Bool.not_eq_true] at hscheduled
        split at hok
        · cases hok
        · rename_i hbounds
          rw [not_or, Int.not_lt, Int.not_lt] at hbounds
          cases hok
          exact .connects hride hscheduled hbounds.1 hbounds.2

/-- What touches the growing end of a sequence extends it in each of the three forms. -/
theorem Extends.extend_eq_ok {s t : Sequence} {next : Candidate} {minWait maxWait : Int}
    (h : s.Extends next minWait maxWait t)
    (htouches : (s.direction.nearPlace next.toItinerary).sameLocation s.frontierPlace = true) :
    s.extend next minWait maxWait = .ok (some t) := by
  rw [extend_eq, htouches]
  cases h with
  | follows hstreet hfrontier => simp [hstreet, hfrontier, bind, Except.bind]
  | meets hride hstreet horigin => simp [hride, hstreet, horigin, bind, Except.bind]
  | connects hride hscheduled hmin hmax =>
    have hwithin := not_or.2 ⟨Int.not_lt.2 hmin, Int.not_lt.2 hmax⟩
    simp [hride, hscheduled, hwithin]

/-- A sequence is not extended only by what does not touch its growing end, or by a ride whose
schedule leaves another ride a wait outside the bounds. -/
theorem not_extended {s : Sequence} {next : Candidate} {minWait maxWait : Int}
    (hok : s.extend next minWait maxWait = .ok none) :
    (s.direction.nearPlace next.toItinerary).sameLocation s.frontierPlace = false ∨
      (next.isStreetOnly = false ∧ s.streetOnly = false ∧
        ¬(minWait ≤ s.scheduledWait next ∧ s.scheduledWait next ≤ maxWait)) := by
  rw [extend_eq] at hok
  split at hok
  · rename_i htouches
    exact .inl (by simpa using htouches)
  · right
    split at hok
    · obtain ⟨frontier, -, hpush⟩ := bind_eq_ok_iff.1 hok
      cases hpush
    · rename_i hride
      rw [Bool.not_eq_true] at hride
      split at hok
      · obtain ⟨origin, -, hpush⟩ := bind_eq_ok_iff.1 hok
        cases hpush
      · rename_i hscheduled
        rw [Bool.not_eq_true] at hscheduled
        split at hok
        · rename_i hbounds
          refine ⟨hride, hscheduled, fun hwithin => ?_⟩
          rcases hbounds with hshort | hlong
          · exact Int.not_lt.2 hwithin.1 hshort
          · exact Int.not_lt.2 hwithin.2 hlong
        · cases hok

section Push

variable (s : Sequence) (wait : Int) (next : Candidate) (origin frontier : Instant)

@[simp] theorem push_direction : (s.push wait next origin frontier).direction = s.direction := rfl

@[simp] theorem push_first : (s.push wait next origin frontier).first = s.first := rfl

@[simp] theorem push_links :
    (s.push wait next origin frontier).links = s.links ++ [⟨wait, next⟩] := rfl

@[simp] theorem push_frontierTime :
    (s.push wait next origin frontier).frontierTime = frontier := rfl

@[simp] theorem push_streetOnly :
    (s.push wait next origin frontier).streetOnly = (s.streetOnly && next.isStreetOnly) := rfl

@[simp] theorem push_grown : (s.push wait next origin frontier).grown = s.grown ++ [next] := by
  simp [grown]

@[simp] theorem push_last : (s.push wait next origin frontier).last = next := by
  simp [last]

end Push

/-- Whatever its form, an extension adds the new itinerary behind a wait within the bounds. -/
theorem Extends.eq_push {s t : Sequence} {next : Candidate} {minWait maxWait : Int}
    (h : s.Extends next minWait maxWait t) :
    ∃ wait origin frontier, t = s.push wait next origin frontier ∧ minWait ≤ wait ∧
      (minWait ≤ maxWait → wait ≤ maxWait) := by
  cases h with
  | follows => exact ⟨_, _, _, rfl, Int.le_refl _, id⟩
  | meets => exact ⟨_, _, _, rfl, Int.le_refl _, id⟩
  | connects _ _ hmin hmax => exact ⟨_, _, _, rfl, hmin, fun _ => hmax⟩

/-- Both ends of a sequence stay linear when it is extended by a linear itinerary. -/
theorem Extends.linear {s t : Sequence} {next : Candidate} {minWait maxWait : Int}
    (h : s.Extends next minWait maxWait t) (horigin : s.originTime.Linear)
    (hfrontier : s.frontierTime.Linear) (hnext : next.Linear) :
    t.originTime.Linear ∧ t.frontierTime.Linear := by
  cases h with
  | follows _ hshift => exact ⟨horigin, (hfrontier.shift_eq_ok_iff.1 hshift).2⟩
  | meets _ _ hshift =>
    have hnear := s.direction.nearTime_linear hnext
    exact ⟨(hnear.shift_eq_ok_iff.1 hshift).2, s.direction.farTime_linear hnext⟩
  | connects => exact ⟨horigin, s.direction.farTime_linear hnext⟩

/-- From the fixed to the growing end it is the length of the sequence, in the direction of
growth. -/
theorem frontierTime_nanos {s : Sequence} (horigin : s.originTime.Linear)
    (hfrontier : s.frontierTime.Linear) :
    s.frontierTime.nanos =
      s.originTime.nanos + s.finish.since s.start * s.direction.sign := by
  unfold finish start
  cases s.direction
  · simp only [Direction.sign, Instant.since_eq hfrontier horigin]
    omega
  · simp only [Direction.sign, Instant.since_eq horigin hfrontier]
    omega

/-- A sequence that has grown from a single itinerary by successful extensions. Its itineraries
are linear and no shortest wait was negative; the bounds may differ at each junction. -/
inductive Grown : Sequence → Prop
  | single {direction : Direction} {first : Candidate} (hfirst : first.Linear) :
      Grown (single direction first)
  | extend {s t : Sequence} {next : Candidate} {minWait maxWait : Int} (hs : Grown s)
      (hnext : next.Linear) (hmin : 0 ≤ minWait)
      (hok : s.extend next minWait maxWait = .ok (some t)) : Grown t

namespace Grown

/-- Every itinerary of a grown sequence is linear. -/
theorem linear_of_mem {s : Sequence} (h : s.Grown) : ∀ c ∈ s.grown, c.Linear := by
  induction h with
  | single hfirst => simpa [grown, Sequence.single] using hfirst
  | extend _ hnext _ hok ih =>
    obtain ⟨wait, origin, frontier, rfl, -, -⟩ := (extend_cases hok).2.eq_push
    intro c hc
    rw [push_grown, List.mem_append, List.mem_singleton] at hc
    rcases hc with hc | rfl
    · exact ih c hc
    · exact hnext

/-- Both ends of a grown sequence are linear. -/
theorem linear {s : Sequence} (h : s.Grown) : s.originTime.Linear ∧ s.frontierTime.Linear := by
  induction h with
  | @single direction _ hfirst =>
    exact ⟨direction.nearTime_linear hfirst, direction.farTime_linear hfirst⟩
  | extend _ hnext _ hok ih => exact (extend_cases hok).2.linear ih.1 ih.2 hnext

/-- A grown sequence stays on the street exactly if each of its itineraries does. -/
theorem streetOnly_eq {s : Sequence} (h : s.Grown) :
    s.streetOnly = s.grown.all fun c => c.isStreetOnly := by
  induction h with
  | single => simp [grown, Sequence.single]
  | extend _ _ _ hok ih =>
    obtain ⟨wait, origin, frontier, rfl, -, -⟩ := (extend_cases hok).2.eq_push
    simp [ih]

/-- No wait of a grown sequence is negative. -/
theorem wait_nonneg {s : Sequence} (h : s.Grown) : ∀ link ∈ s.links, 0 ≤ link.wait := by
  induction h with
  | single => simp [Sequence.single]
  | extend _ _ hmin hok ih =>
    obtain ⟨wait, origin, frontier, rfl, hwait, -⟩ := (extend_cases hok).2.eq_push
    intro link hlink
    rw [push_links, List.mem_append, List.mem_singleton] at hlink
    rcases hlink with hlink | rfl
    · exact ih link hlink
    · exact Int.le_trans hmin hwait

end Grown

end Sequence

end JourneyPlanner.Composition
