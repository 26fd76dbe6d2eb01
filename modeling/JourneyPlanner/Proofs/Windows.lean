import JourneyPlanner.Proofs.Growth
import JourneyPlanner.Proofs.Linked
import JourneyPlanner.Proofs.SameLocation
import JourneyPlanner.Proofs.Stepping

/-!
# Windows of later searches

Behind the first junction each search has to cover when sequences reach its place, each
moved by the shortest wait. A sequence is counted to the first place known to be the same
location as its own. The window of a place is the smallest interval that holds what is
counted to it: both its bounds are among the moved ends of sequences, and each sequence lies
within the window of a place that is the same location as its own.
-/

namespace JourneyPlanner

namespace Instant

variable (a b : Instant)

/-- The earlier of two instants is one of them. -/
theorem earlier_eq_or : earlier a b = a ∨ earlier a b = b := by
  unfold earlier
  split
  · exact Or.inl rfl
  · exact Or.inr rfl

/-- The later of two instants is one of them. -/
theorem later_eq_or : later a b = a ∨ later a b = b := by
  unfold later
  split
  · exact Or.inr rfl
  · exact Or.inl rfl

/-- The earlier of two instants is no later than either. -/
theorem earlier_le : earlier a b ≤ a ∧ earlier a b ≤ b := by
  simp only [earlier, le_def]
  split <;> omega

/-- The later of two instants is no earlier than either. -/
theorem le_later : a ≤ later a b ∧ b ≤ later a b := by
  simp only [later, le_def]
  split <;> omega

end Instant

/-! ### Order in the direction of growth -/

namespace Composition.Direction

/-- An instant is passed no sooner than another in the direction of growth. -/
def Follows (direction : Direction) (time instant : Instant) : Prop :=
  match direction with
  | departAt => time ≤ instant
  | arriveBy => instant ≤ time

instance (direction : Direction) (time instant : Instant) :
    Decidable (direction.Follows time instant) :=
  match direction with
  | departAt => inferInstanceAs (Decidable (time ≤ instant))
  | arriveBy => inferInstanceAs (Decidable (instant ≤ time))

variable {direction : Direction} {a b c : Instant}

/-- An instant follows itself. -/
theorem Follows.refl (direction : Direction) (a : Instant) : direction.Follows a a := by
  cases direction <;> exact Int.le_refl a.rank

/-- What follows something that follows an instant follows the instant. -/
theorem Follows.trans (hab : direction.Follows a b) (hbc : direction.Follows b c) :
    direction.Follows a c := by
  cases direction
  · exact Int.le_trans hab hbc
  · exact Int.le_trans hbc hab

/-- Outside inserted seconds an instant follows another exactly if the nanoseconds between them do
not run against the direction of growth. -/
theorem follows_iff (ha : a.Linear) (hb : b.Linear) :
    direction.Follows a b ↔ 0 ≤ (b.nanos - a.nanos) * direction.sign := by
  cases direction
  · exact (Instant.le_iff_nanos_le ha hb).trans (by simp only [sign]; omega)
  · exact (Instant.le_iff_nanos_le hb ha).trans (by simp only [sign]; omega)

/-- An instant is followed by where a move in the direction of growth leads. -/
theorem follows_of_shift {span : Int} (ha : a.Linear) (hspan : 0 ≤ span)
    (hok : a.shift (span * direction.sign) = .ok b) : direction.Follows a b := by
  obtain ⟨hnanos, hb⟩ := ha.shift_eq_ok_iff.1 hok
  rw [follows_iff ha hb, hnanos]
  cases direction <;> simp only [sign] <;> omega

end Composition.Direction

/-! ### Coverages -/

namespace Search.Coverage

/-- An instant lies within the interval that has to be covered. -/
def Contains (coverage : Coverage) (instant : Instant) : Prop :=
  ∃ earliest latest, coverage.bounds = some (earliest, latest) ∧ earliest ≤ instant ∧
    instant ≤ latest

/-- A coverage is about a place, or about one that is the same location. -/
def Serves (coverage : Coverage) (place : Place) : Prop :=
  coverage.location = .ofPlace place ∨ coverage.location.isAt place = true

instance (coverage : Coverage) (place : Place) : Decidable (coverage.Serves place) :=
  inferInstanceAs (Decidable (_ ∨ _))

/-- Both bounds of what has to be covered are among some instants. -/
def BoundedBy (coverage : Coverage) (instants : List Instant) : Prop :=
  ∃ earliest latest, coverage.bounds = some (earliest, latest) ∧ earliest ∈ instants ∧
    latest ∈ instants

variable {coverage : Coverage} {instant : Instant} {instants : List Instant}

/-- An instant that has been covered lies within. -/
theorem contains_cover (coverage : Coverage) (instant : Instant) :
    (coverage.cover instant).Contains instant := by
  unfold cover Contains
  cases coverage.bounds with
  | none => exact ⟨instant, instant, rfl, Int.le_refl _, Int.le_refl _⟩
  | some bounds =>
    exact ⟨_, _, rfl, (bounds.1.earlier_le instant).2, (bounds.2.le_later instant).2⟩

/-- What lies within stays within when more is covered. -/
theorem Contains.cover (h : coverage.Contains instant) (other : Instant) :
    (coverage.cover other).Contains instant := by
  obtain ⟨earliest, latest, hbounds, hearliest, hlatest⟩ := h
  refine ⟨earliest.earlier other, latest.later other, by rw [Coverage.cover, hbounds], ?_, ?_⟩
  · exact Int.le_trans (earliest.earlier_le other).1 hearliest
  · exact Int.le_trans hlatest (latest.le_later other).1

/-- A coverage serves the same places when more instants are covered. -/
theorem Serves.cover {place : Place} (h : coverage.Serves place) (instant : Instant) :
    (coverage.cover instant).Serves place := h

/-- The bounds are among more instants as well. -/
theorem BoundedBy.of_subset (h : coverage.BoundedBy instants) {more : List Instant}
    (hsubset : instants ⊆ more) : coverage.BoundedBy more := by
  obtain ⟨earliest, latest, hbounds, hearliest, hlatest⟩ := h
  exact ⟨earliest, latest, hbounds, hsubset hearliest, hsubset hlatest⟩

/-- A covered instant becomes a bound or leaves the bounds as they are. -/
theorem BoundedBy.cover (h : coverage.BoundedBy instants) (hinstant : instant ∈ instants) :
    (coverage.cover instant).BoundedBy instants := by
  obtain ⟨earliest, latest, hbounds, hearliest, hlatest⟩ := h
  refine ⟨earliest.earlier instant, latest.later instant, by rw [Coverage.cover, hbounds], ?_, ?_⟩
  · rcases earliest.earlier_eq_or instant with h | h <;> rw [h] <;> assumption
  · rcases latest.later_eq_or instant with h | h <;> rw [h] <;> assumption

end Search.Coverage

namespace Composition

open Journey (Stopover)
open Search (Coverage Query)

namespace Assembly

/-- A place is counted to the first one known to be the same location, or, if none is, opens a
coverage of its own. -/
theorem coverPlace_cases (place : Place) (instant : Instant) (covered : List (Place × Coverage)) :
    (∃ front known coverage back, covered = front ++ (known, coverage) :: back ∧
      known.sameLocation place = true ∧
      coverPlace place instant covered = front ++ (known, coverage.cover instant) :: back) ∨
    (∀ entry ∈ covered, entry.1.sameLocation place = false) ∧
      coverPlace place instant covered =
        covered ++ [(place, (Coverage.empty (Location.ofPlace place)).cover instant)] := by
  induction covered with
  | nil => exact Or.inr ⟨by simp, rfl⟩
  | cons entry rest ih =>
    obtain ⟨known, coverage⟩ := entry
    unfold coverPlace
    by_cases hsame : known.sameLocation place = true
    · exact Or.inl ⟨[], known, coverage, rest, rfl, hsame, by rw [if_pos hsame]; rfl⟩
    · rw [if_neg hsame]
      rcases ih with ⟨front, known', coverage', back, rfl, hsame', heq⟩ | ⟨hother, heq⟩
      · exact Or.inl ⟨(known, coverage) :: front, known', coverage', back, rfl, hsame',
          by rw [heq]; rfl⟩
      · exact Or.inr ⟨List.forall_mem_cons.2 ⟨by simpa using hsame, hother⟩, by rw [heq]; rfl⟩

/-- What is covered for a place, of places that have been reached, each at an instant. -/
structure CoveredPlace (points : List (Place × Instant)) (entry : Place × Coverage) : Prop where
  /-- The coverage is about the place. -/
  located : entry.2.location = Location.ofPlace entry.1
  /-- The bounds are instants at which places have been reached. -/
  bounded : entry.2.BoundedBy (points.map Prod.snd)

namespace CoveredPlace

variable {points : List (Place × Instant)} {entry : Place × Coverage}

/-- A place that is covered stays so when more have been reached. -/
theorem of_subset (h : CoveredPlace points entry) {more : List (Place × Instant)}
    (hsubset : points ⊆ more) : CoveredPlace more entry :=
  ⟨h.located, h.bounded.of_subset (List.map_subset _ hsubset)⟩

/-- An instant at which a place has been reached may be covered for any of them. -/
theorem cover {known : Place} {coverage : Coverage} (h : CoveredPlace points (known, coverage))
    {point : Place × Instant} (hpoint : point ∈ points) :
    CoveredPlace points (known, coverage.cover point.2) :=
  ⟨h.located, h.bounded.cover (List.mem_map_of_mem hpoint)⟩

/-- What is covered for a place serves all that are the same location. -/
theorem serves (h : CoveredPlace points entry) {place : Place}
    (hsame : entry.1.sameLocation place = true) : entry.2.Serves place := by
  refine Or.inr ?_
  rw [h.located]
  exact hsame

/-- A place that has been reached may be covered by itself. -/
theorem single {point : Place × Instant} (hpoint : point ∈ points) :
    CoveredPlace points
      (point.1, (Coverage.empty (Location.ofPlace point.1)).cover point.2) where
  located := rfl
  bounded :=
    ⟨point.2, point.2, rfl, List.mem_map_of_mem hpoint, List.mem_map_of_mem hpoint⟩

end CoveredPlace

/-- Coverages of the places that have been reached, each at an instant. -/
structure Covers (points : List (Place × Instant)) (covered : List (Place × Coverage)) :
    Prop where
  /-- Each of them covers a place. -/
  places : ∀ entry ∈ covered, CoveredPlace points entry
  /-- Each instant lies within a coverage that serves its place. -/
  counted : ∀ point ∈ points, ∃ entry ∈ covered,
    entry.2.Serves point.1 ∧ entry.2.Contains point.2

/-- Before any place has been reached nothing is covered. -/
theorem covers_nil : Covers [] [] :=
  ⟨by simp, by simp⟩

namespace Covers

variable {points : List (Place × Instant)} {point : Place × Instant}

/-- A place that is known is covered with the one that is the same location. -/
theorem enlarge {front back : List (Place × Coverage)} {known : Place} {coverage : Coverage}
    (h : Covers points (front ++ (known, coverage) :: back))
    (hsame : known.sameLocation point.1 = true) :
    Covers (points ++ [point]) (front ++ (known, coverage.cover point.2) :: back) := by
  have hsubset : points ⊆ points ++ [point] := List.subset_append_left points [point]
  have hmember : (known, coverage.cover point.2) ∈
      front ++ (known, coverage.cover point.2) :: back := by simp
  have hplaces := h.places
  simp only [List.forall_mem_append, List.forall_mem_cons] at hplaces
  obtain ⟨hfront, hknown, hback⟩ := hplaces
  refine ⟨?_, ?_⟩
  · simp only [List.forall_mem_append, List.forall_mem_cons]
    exact ⟨fun entry hentry => (hfront entry hentry).of_subset hsubset,
      (hknown.of_subset hsubset).cover (by simp),
      fun entry hentry => (hback entry hentry).of_subset hsubset⟩
  · intro other hother
    rcases List.mem_append.1 hother with hother | hother
    · obtain ⟨entry, hentry, hserves, hcontains⟩ := h.counted other hother
      simp only [List.mem_append, List.mem_cons] at hentry
      rcases hentry with hentry | rfl | hentry
      · exact ⟨entry, by simp [hentry], hserves, hcontains⟩
      · exact ⟨_, hmember, hserves.cover point.2, hcontains.cover point.2⟩
      · exact ⟨entry, by simp [hentry], hserves, hcontains⟩
    · obtain rfl := List.mem_singleton.1 hother
      exact ⟨_, hmember, (hknown.serves hsame).cover other.2, coverage.contains_cover other.2⟩

/-- A place may open a coverage of its own. -/
theorem concat {covered : List (Place × Coverage)} (h : Covers points covered)
    (point : Place × Instant) :
    Covers (points ++ [point])
      (covered ++ [(point.1, (Coverage.empty (Location.ofPlace point.1)).cover point.2)]) := by
  have hsubset : points ⊆ points ++ [point] := List.subset_append_left points [point]
  refine ⟨?_, ?_⟩
  · simp only [List.forall_mem_append, List.forall_mem_singleton]
    exact ⟨fun entry hentry => (h.places entry hentry).of_subset hsubset,
      CoveredPlace.single (by simp)⟩
  · simp only [List.forall_mem_append, List.forall_mem_singleton]
    refine ⟨fun known hknown => ?_, ?_⟩
    · obtain ⟨entry, hentry, hcounted⟩ := h.counted known hknown
      exact ⟨entry, List.mem_append_left _ hentry, hcounted⟩
    · exact ⟨_, List.mem_append_right covered (List.mem_singleton.2 rfl), Or.inl rfl,
        Coverage.contains_cover _ point.2⟩

/-- One more place is covered together with those before. -/
theorem coverPlace {covered : List (Place × Coverage)} (h : Covers points covered)
    (point : Place × Instant) :
    Covers (points ++ [point]) (coverPlace point.1 point.2 covered) := by
  rcases coverPlace_cases point.1 point.2 covered with
    ⟨front, known, coverage, back, rfl, hsame, heq⟩ | ⟨-, heq⟩
  · rw [heq]
    exact h.enlarge hsame
  · rw [heq]
    exact h.concat point

end Covers

/-- The place that a sequence has reached, and its growing end moved by an offset. -/
def Reaches (offset : Int) (s : Sequence) (point : Place × Instant) : Prop :=
  point.1 = s.frontierPlace ∧ s.frontierTime.shift offset = .ok point.2

/-- The places of sequences are covered one after the other. -/
theorem exists_covers_of_coverSequences {offset : Int} {sequences : List Sequence}
    {points : List (Place × Instant)} {covered covered' : List (Place × Coverage)}
    (h : Covers points covered) (hok : coverSequences offset covered sequences = .ok covered') :
    ∃ reached, List.Forall₂ (Reaches offset) sequences reached ∧
      Covers (points ++ reached) covered' := by
  induction sequences generalizing points covered with
  | nil =>
    cases hok
    exact ⟨[], .nil, by simpa using h⟩
  | cons s rest ih =>
    obtain ⟨instant, hinstant, hrest⟩ := bind_eq_ok_iff.1 hok
    obtain ⟨reached, hreached, hcovers⟩ := ih (h.coverPlace (s.frontierPlace, instant)) hrest
    exact ⟨(s.frontierPlace, instant) :: reached, .cons ⟨rfl, hinstant⟩ hreached,
      by simpa using hcovers⟩

/-- No two places that are covered are the same location. -/
def Apart (covered : List (Place × Coverage)) : Prop :=
  (covered.map Prod.fst).Pairwise fun x y => x.sameLocation y = false

/-- Places stay apart when one more is covered. -/
theorem Apart.coverPlace {covered : List (Place × Coverage)} (h : Apart covered) (place : Place)
    (instant : Instant) : Apart (coverPlace place instant covered) := by
  rcases coverPlace_cases place instant covered with
    ⟨front, known, coverage, back, rfl, -, heq⟩ | ⟨hother, heq⟩
  · rw [heq]
    simpa [Apart] using h
  · rw [heq]
    unfold Apart at h ⊢
    rw [List.map_append, List.pairwise_append]
    exact ⟨h, List.pairwise_singleton _ _, by simpa using hother⟩

/-- So do they when those of some sequences are. -/
theorem Apart.coverSequences {offset : Int} {sequences : List Sequence}
    {covered covered' : List (Place × Coverage)} (h : Apart covered)
    (hok : coverSequences offset covered sequences = .ok covered') : Apart covered' := by
  induction sequences generalizing covered with
  | nil =>
    cases hok
    exact h
  | cons s rest ih =>
    obtain ⟨instant, -, hrest⟩ := bind_eq_ok_iff.1 hok
    exact ih (h.coverPlace s.frontierPlace instant) hrest

section Coverages

variable {a : Assembly} {stop : Stopover} {coverages : List Coverage}

/-- A query is asked at a junction, for the window of its coverage and the direction of growth. -/
theorem of_query {coverage : Coverage} {query : Query} (hquery : a.query? coverage = some query) :
    (∃ stop, a.mergeEnd? = some stop) ∧ query.arriveBy = a.direction.isArriveBy ∧
      query.window = coverage.toWindow a.time a.windowLength := by
  obtain ⟨junction, hjunction, rfl⟩ := Option.map_eq_some_iff.1 hquery
  exact ⟨⟨junction.mergeEnd a.direction, by rw [mergeEnd?, hjunction, Option.map_some]⟩, rfl, rfl⟩

/-- Behind the first junction the coverages are those of the places that sequences have
reached, moved by the shortest wait. -/
theorem exists_covers (hend : a.mergeEnd? = some stop) (hlater : a.isFirstStep = false)
    (hok : a.coverages = .ok coverages) :
    ∃ points covered,
      List.Forall₂ (Reaches (stop.minWait * a.direction.sign)) a.sequences points ∧
      Covers points covered ∧ coverages.Perm (covered.map Prod.snd) := by
  unfold Assembly.coverages at hok
  rw [hend, hlater] at hok
  obtain ⟨covered, hcovered, rfl⟩ := map_eq_ok_iff.1 hok
  obtain ⟨points, hpoints, hcovers⟩ := exists_covers_of_coverSequences covers_nil hcovered
  exact ⟨points, covered, hpoints, by simpa using hcovers, (List.mergeSort_perm _ _).map _⟩

/-- No two searches of a step begin at the same location. -/
theorem coverages_apart (hok : a.coverages = .ok coverages) :
    coverages.Pairwise fun x y =>
      x.location.toPlace.sameLocation y.location.toPlace = false := by
  unfold Assembly.coverages at hok
  split at hok
  · cases hok
    exact .nil
  · rename_i stop _
    split at hok
    · cases hok
      exact List.pairwise_singleton _ _
    · obtain ⟨covered, hcovered, rfl⟩ := map_eq_ok_iff.1 hok
      obtain ⟨points, -, hcovers⟩ := exists_covers_of_coverSequences covers_nil hcovered
      have hnone : Apart [] := .nil
      have hapart := hnone.coverSequences hcovered
      have hperm := List.mergeSort_perm covered fun x y => x.1.compareByReference y.1 != .gt
      have hsorted := (List.pairwise_map.1 hapart).perm hperm.symm
        fun h => by rwa [Place.sameLocation_comm]
      refine List.pairwise_map.2 (hsorted.imp_of_mem fun hx hy hxy => ?_)
      rw [(hcovers.places _ (hperm.mem_iff.1 hx)).located,
        (hcovers.places _ (hperm.mem_iff.1 hy)).located]
      exact hxy

/-- Places that come in their order already are searched from in this order. -/
theorem coverages_of_pairwise (hend : a.mergeEnd? = some stop) (hlater : a.isFirstStep = false)
    {covered : List (Place × Coverage)}
    (hcovered : coverSequences (stop.minWait * a.direction.sign) [] a.sequences = .ok covered)
    (hsorted : covered.Pairwise fun x y => (x.1.compareByReference y.1 != .gt) = true) :
    a.coverages = .ok (covered.map Prod.snd) := by
  unfold Assembly.coverages
  rw [hend, hlater]
  dsimp only
  rw [if_neg Bool.false_ne_true, hcovered, Except.map, List.mergeSort_of_pairwise hsorted]

/-- The bounds of a coverage are moved growing ends of sequences. -/
theorem bounds_of_mem_coverages (hend : a.mergeEnd? = some stop) (hlater : a.isFirstStep = false)
    (hok : a.coverages = .ok coverages) {coverage : Coverage} (hcoverage : coverage ∈ coverages) :
    ∃ earliest latest, coverage.bounds = some (earliest, latest) ∧
      (∃ s ∈ a.sequences,
        s.frontierTime.shift (stop.minWait * a.direction.sign) = .ok earliest) ∧
      ∃ s ∈ a.sequences,
        s.frontierTime.shift (stop.minWait * a.direction.sign) = .ok latest := by
  obtain ⟨points, covered, hpoints, hcovers, hperm⟩ := exists_covers hend hlater hok
  obtain ⟨entry, hentry, rfl⟩ := List.mem_map.1 (hperm.mem_iff.1 hcoverage)
  obtain ⟨earliest, latest, hbounds, hearliest, hlatest⟩ := (hcovers.places entry hentry).bounded
  have hmoved : ∀ {instant}, instant ∈ points.map Prod.snd → ∃ s ∈ a.sequences,
      s.frontierTime.shift (stop.minWait * a.direction.sign) = .ok instant := by
    intro instant hinstant
    obtain ⟨point, hpoint, rfl⟩ := List.mem_map.1 hinstant
    obtain ⟨s, hs, -, hshift⟩ := exists_of_forall₂ hpoints hpoint
    exact ⟨s, hs, hshift⟩
  exact ⟨earliest, latest, hbounds, hmoved hearliest, hmoved hlatest⟩

/-- Each sequence, moved by the shortest wait, lies within a coverage that serves the place it
has reached. -/
theorem exists_serves (hend : a.mergeEnd? = some stop) (hlater : a.isFirstStep = false)
    (hok : a.coverages = .ok coverages) {s : Sequence} (hs : s ∈ a.sequences) :
    ∃ coverage ∈ coverages, coverage.Serves s.frontierPlace ∧ ∃ instant,
      s.frontierTime.shift (stop.minWait * a.direction.sign) = .ok instant ∧
        coverage.Contains instant := by
  obtain ⟨points, covered, hpoints, hcovers, hperm⟩ := exists_covers hend hlater hok
  obtain ⟨point, hpoint, hreached, hshift⟩ := exists_of_forall₂ hpoints.flip hs
  obtain ⟨entry, hentry, hserves, hcontains⟩ := hcovers.counted point hpoint
  exact ⟨entry.2, hperm.mem_iff.2 (List.mem_map_of_mem hentry), hreached ▸ hserves,
    point.2, hshift, hcontains⟩

end Coverages

end Assembly

end Composition

end JourneyPlanner
