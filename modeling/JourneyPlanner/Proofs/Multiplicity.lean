import Mathlib.Data.List.Count
import JourneyPlanner.Proofs.Growth
import JourneyPlanner.Proofs.Stepping

/-!
# How often a combination is held

An extension looks at no more of a sequence than its direction, its ends and whether it stays on
the street. Sequences of the same itineraries have these in common, so that they are extended
alike. A combination that goes on from another one by an itinerary is therefore held once for
each time that the other one was held and each time that the itinerary was found.
-/

namespace JourneyPlanner.Composition

namespace Sequence

variable {s s' t t' : Sequence} {next next' : Candidate} {minWait maxWait : Int}

/-- What its itineraries are recognised by, in the order of growth. -/
def combination (s : Sequence) : List Identity :=
  s.grown.map Candidate.identity

/-- A single itinerary is a combination of its own. -/
@[simp] theorem combination_single (direction : Direction) (first : Candidate) :
    (single direction first).combination = [first.identity] :=
  rfl

/-- A combination goes on with the itinerary that extends it. -/
theorem combination_of_extend (hok : s.extend next minWait maxWait = .ok (some t)) :
    t.combination = s.combination ++ [next.identity] := by
  obtain ⟨wait, origin, frontier, rfl, -, -⟩ := (extend_cases hok).2.eq_push
  simp [combination]

/-- Two sequences do not differ in what an extension looks at. -/
structure Alike (s t : Sequence) : Prop where
  /-- They grow in the same direction. -/
  direction_eq : s.direction = t.direction
  /-- Their fixed ends are passed at the same time. -/
  originTime_eq : s.originTime = t.originTime
  /-- So are their growing ends. -/
  frontierTime_eq : s.frontierTime = t.frontierTime
  /-- Both stay on the street, or neither does. -/
  streetOnly_eq : s.streetOnly = t.streetOnly
  /-- Their last itineraries are the same, but for notices. -/
  last_eq : s.last.toItinerary = t.last.toItinerary

/-- Single itineraries that are the same make sequences that do not differ. -/
theorem Alike.single (direction : Direction) (hnext : next.toItinerary = next'.toItinerary) :
    (single direction next).Alike (single direction next') := by
  constructor
  · rfl
  all_goals simp [Sequence.single, last, hnext]

/-- Sequences that do not differ are pushed alike. -/
theorem Alike.push (h : s.Alike s') (hnext : next.toItinerary = next'.toItinerary)
    (wait : Int) (origin frontier : Instant) :
    (s.push wait next origin frontier).Alike (s'.push wait next' origin frontier) where
  direction_eq := h.direction_eq
  originTime_eq := rfl
  frontierTime_eq := rfl
  streetOnly_eq := by simp [h.streetOnly_eq, hnext]
  last_eq := by simpa using hnext

/-- They have come to the same place. -/
theorem Alike.frontierPlace_eq (h : s.Alike s') : s.frontierPlace = s'.frontierPlace := by
  unfold frontierPlace
  rw [h.direction_eq, h.last_eq]

/-- Sequences that do not differ are extended in the same form. -/
theorem Alike.extends (h : s.Alike s') (hnext : next.toItinerary = next'.toItinerary)
    (hext : s.Extends next minWait maxWait t) :
    ∃ t', s'.Extends next' minWait maxWait t' ∧ t.Alike t' := by
  have hspan : s.finish.since s.start = s'.finish.since s'.start := by
    unfold finish start
    rw [h.direction_eq, h.originTime_eq, h.frontierTime_eq]
  cases hext with
  | follows hstreet hfrontier =>
    rw [hnext] at hstreet
    rw [hnext, h.direction_eq, h.frontierTime_eq] at hfrontier
    exact ⟨_, .follows hstreet hfrontier, h.originTime_eq ▸ h.push hnext _ _ _⟩
  | meets hride hstreet horigin =>
    rw [hnext] at hride
    rw [h.streetOnly_eq] at hstreet
    rw [hnext, h.direction_eq, hspan] at horigin
    refine ⟨_, .meets hride hstreet horigin, ?_⟩
    rw [hnext, h.direction_eq]
    exact h.push hnext _ _ _
  | connects hride hscheduled hmin hmax =>
    have hwait : s.scheduledWait next = s'.scheduledWait next' := by
      unfold scheduledWait
      rw [hnext, h.direction_eq, h.frontierTime_eq]
    rw [hnext] at hride
    rw [h.streetOnly_eq] at hscheduled
    rw [hwait] at hmin hmax
    refine ⟨_, .connects hride hscheduled hmin hmax, ?_⟩
    rw [hwait, hnext, h.direction_eq, h.originTime_eq]
    exact h.push hnext _ _ _

/-- Whatever extends a sequence extends one that does not differ from it. -/
theorem Alike.extend (h : s.Alike s') (hnext : next.toItinerary = next'.toItinerary)
    (hok : s.extend next minWait maxWait = .ok (some t)) :
    ∃ t', s'.extend next' minWait maxWait = .ok (some t') ∧ t.Alike t' := by
  obtain ⟨htouches, hext⟩ := extend_cases hok
  obtain ⟨t', hext', halike⟩ := h.extends hnext hext
  rw [hnext, h.direction_eq, h.frontierPlace_eq] at htouches
  exact ⟨t', hext'.extend_eq_ok htouches, halike⟩

/-- Sequences of the same combination do not differ. -/
def AlikeByCombination (sequences : List Sequence) : Prop :=
  ∀ s ∈ sequences, ∀ t ∈ sequences, s.combination = t.combination → s.Alike t

/-- Candidates that are recognised by the same thing are the same, but for notices. -/
def Recognised (found : List Candidate) : Prop :=
  ∀ c ∈ found, ∀ d ∈ found, c.identity = d.identity → c.toItinerary = d.toItinerary

variable {found : List Candidate} {sequences extended : List Sequence}

/-- Single itineraries make sequences that are alike by combination. -/
theorem alikeByCombination_single (direction : Direction) (hfound : Recognised found) :
    AlikeByCombination (found.map (single direction)) := by
  intro s hs t ht heq
  obtain ⟨c, hc, rfl⟩ := List.mem_map.1 hs
  obtain ⟨d, hd, rfl⟩ := List.mem_map.1 ht
  exact .single direction (hfound c hc d hd (List.singleton_inj.1 heq))

/-- Sequences that are alike by combination stay so when they are extended. -/
theorem AlikeByCombination.extendAll (h : AlikeByCombination sequences) (hfound : Recognised found)
    (hok : Assembly.extendAll found minWait maxWait sequences = .ok extended) :
    AlikeByCombination extended := by
  intro t ht t' ht' heq
  obtain ⟨s, hs, next, hnext, hextend⟩ := Assembly.mem_extendAll hok ht
  obtain ⟨s', hs', next', hnext', hextend'⟩ := Assembly.mem_extendAll hok ht'
  rw [combination_of_extend hextend, combination_of_extend hextend'] at heq
  obtain ⟨hbefore, hlast⟩ := List.append_inj' heq rfl
  have hsame := hfound next hnext next' hnext' (List.singleton_inj.1 hlast)
  obtain ⟨t'', hextend'', halike⟩ := (h s hs s' hs' hbefore).extend hsame hextend
  rw [hextend'] at hextend''
  cases hextend''
  exact halike

/-- Of the extensions of a sequence, as many are an extension of its combination as there are
itineraries of that kind among those found. -/
theorem count_extensions (hok : s.extend next minWait maxWait = .ok (some t))
    (hs' : s.combination = s'.combination → s.Alike s')
    (hfound : ∀ d ∈ found, next.identity = d.identity → next.toItinerary = d.toItinerary)
    (hextended : Assembly.extensions s' minWait maxWait found = .ok extended) :
    (extended.map combination).count t.combination =
      if s.combination = s'.combination then
        (found.map Candidate.identity).count next.identity
      else 0 := by
  induction found generalizing extended with
  | nil =>
    cases hextended
    simp
  | cons d rest ih =>
    obtain ⟨hd, hrest⟩ := List.forall_mem_cons.1 hfound
    obtain ⟨first, hfirst, hmore⟩ := bind_eq_ok_iff.1 hextended
    obtain ⟨others, hothers, hall⟩ := bind_eq_ok_iff.1 hmore
    cases hall
    rw [List.map_append, List.count_append, ih hrest hothers, List.map_cons, List.count_cons]
    by_cases hsame : s.combination = s'.combination
    · rw [if_pos hsame, if_pos hsame, Nat.add_comm]
      congr 1
      cases first with
      | none =>
        have hother : d.identity ≠ next.identity := by
          intro heq
          obtain ⟨u, hu, -⟩ := (hs' hsame).extend (hd heq.symm) hok
          rw [hfirst] at hu
          cases hu
        simp [hother]
      | some u =>
        simp [combination_of_extend hok, combination_of_extend hfirst, hsame, List.count_singleton]
    · rw [if_neg hsame, if_neg hsame]
      cases first with
      | none => rfl
      | some u =>
        have hother : s'.combination ≠ s.combination := Ne.symm hsame
        simp [combination_of_extend hok, combination_of_extend hfirst, hother]

/-- Among all extensions a combination is held once for each time that what it goes on from was
held and each time that its last itinerary was found. -/
theorem count_extendAll (hok : s.extend next minWait maxWait = .ok (some t))
    (hs : ∀ s' ∈ sequences, s.combination = s'.combination → s.Alike s')
    (hfound : ∀ d ∈ found, next.identity = d.identity → next.toItinerary = d.toItinerary)
    (hextended : Assembly.extendAll found minWait maxWait sequences = .ok extended) :
    (extended.map combination).count t.combination =
      (sequences.map combination).count s.combination *
        (found.map Candidate.identity).count next.identity := by
  induction sequences generalizing extended with
  | nil =>
    cases hextended
    simp
  | cons s' rest ih =>
    obtain ⟨hs', hrest⟩ := List.forall_mem_cons.1 hs
    obtain ⟨first, hfirst, hmore⟩ := bind_eq_ok_iff.1 hextended
    obtain ⟨others, hothers, hall⟩ := bind_eq_ok_iff.1 hmore
    cases hall
    rw [List.map_append, List.count_append, ih hrest hothers,
      count_extensions hok hs' hfound hfirst, List.map_cons, List.count_cons, Nat.add_mul,
      Nat.add_comm]
    congr 1
    by_cases hsame : s.combination = s'.combination
    · simp [hsame]
    · simp [hsame, Ne.symm hsame]

end Sequence

end JourneyPlanner.Composition
