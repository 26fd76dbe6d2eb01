import JourneyPlanner.Proofs.Connections
import JourneyPlanner.Proofs.PlaceOrder
import Mathlib.Data.List.Perm.Basic

/-!
# Groups of sequences behind the windows

Behind the first junction the sequences fall into groups, one for each window of the searches
to come. A window is about the place that one of its group has reached, and all others have
come to the same location. It is the smallest interval that holds when they get there, each
moved by the shortest wait. No two windows are about one location, and they come in the order
of places.
-/

namespace JourneyPlanner.Composition

open Journey (Stopover)
open Search (Coverage)

/-- What has to be covered for a group of sequences: the smallest interval that holds their
growing ends, each moved by an offset. -/
structure WindowOf (offset : Int) (coverage : Coverage) (group : List Sequence) : Prop where
  /-- It is about the place that one of them has reached. -/
  opened : ∃ s ∈ group, coverage.location = Location.ofPlace s.frontierPlace
  /-- This is the place that each has reached, or the same location. -/
  serves : ∀ s ∈ group, coverage.Serves s.frontierPlace
  /-- Each moved growing end lies within. -/
  contains : ∀ s ∈ group, ∃ instant, s.frontierTime.shift offset = .ok instant ∧
    coverage.Contains instant
  /-- Both bounds are moved growing ends, and the first is no later than the second. -/
  tight : ∃ earliest latest, coverage.bounds = some (earliest, latest) ∧ earliest ≤ latest ∧
    (∃ s ∈ group, s.frontierTime.shift offset = .ok earliest) ∧
    ∃ s ∈ group, s.frontierTime.shift offset = .ok latest

/-- What has to be covered for some sequences: these fall into groups, and for each there is one
interval. -/
structure WindowsOf (offset : Int) (sequences : List Sequence) (coverages : List Coverage) :
    Prop where
  /-- Each sequence is in one group, and each group has its interval. -/
  grouped : ∃ groups : List (List Sequence), groups.flatten.Perm sequences ∧
    List.Forall₂ (WindowOf offset) coverages groups
  /-- So each sequence, moved, lies within a coverage that serves the place it has reached. -/
  counted : ∀ s ∈ sequences, ∃ coverage ∈ coverages, coverage.Serves s.frontierPlace ∧
    ∃ instant, s.frontierTime.shift offset = .ok instant ∧ coverage.Contains instant
  /-- No two coverages are about the same location. -/
  apart : coverages.Pairwise fun x y =>
    x.location.toPlace.sameLocation y.location.toPlace = false
  /-- There is no coverage only if there is no sequence. -/
  held : coverages = [] → sequences = []
  /-- They come in the strict order of their places, but for places that are bare. -/
  ordered : coverages.Pairwise fun x y =>
    x.location.toPlace.compareByReference y.location.toPlace = .lt ∨
      x.location.toPlace.IsBare ∧ y.location.toPlace.IsBare

namespace Assembly

/-! ### Groups behind places that are covered -/

/-- A place is covered for a group of sequences, one of which has reached it. -/
def CoveredFor (offset : Int) (entry : Place × Coverage) (group : List Sequence) : Prop :=
  ∃ points, List.Forall₂ (Reaches offset) group points ∧ Covers points [entry] ∧
    entry.1 ∈ points.map Prod.fst

namespace CoveredFor

variable {offset : Int} {s : Sequence} {instant : Instant}

/-- A sequence opens a coverage for itself. -/
theorem single (hshift : s.frontierTime.shift offset = .ok instant) :
    CoveredFor offset (s.frontierPlace,
      (Coverage.empty (Location.ofPlace s.frontierPlace)).cover instant) [s] :=
  ⟨[(s.frontierPlace, instant)], .cons ⟨rfl, hshift⟩ .nil,
    by simpa using covers_nil.concat (s.frontierPlace, instant), by simp⟩

/-- A sequence that has come to the same location joins the group. -/
theorem concat {known : Place} {coverage : Coverage} {group : List Sequence}
    (h : CoveredFor offset (known, coverage) group)
    (hsame : known.sameLocation s.frontierPlace = true)
    (hshift : s.frontierTime.shift offset = .ok instant) :
    CoveredFor offset (known, coverage.cover instant) (group ++ [s]) := by
  obtain ⟨points, hpoints, hcovers, hopened⟩ := h
  refine ⟨points ++ [(s.frontierPlace, instant)],
    List.rel_append hpoints (.cons ⟨rfl, hshift⟩ .nil), ?_, ?_⟩
  · exact @Covers.enlarge points (s.frontierPlace, instant) [] [] known coverage hcovers hsame
  · rw [List.map_append]
    exact List.mem_append_left _ hopened

/-- What is covered for a group is its interval. -/
theorem windowOf {entry : Place × Coverage} {group : List Sequence}
    (h : CoveredFor offset entry group) : WindowOf offset entry.2 group := by
  obtain ⟨points, hpoints, hcovers, hopened⟩ := h
  have hentry := hcovers.places entry (by simp)
  have hpoint : ∀ {point}, point ∈ points → ∃ s ∈ group, Reaches offset s point :=
    fun hmem => exists_of_forall₂ hpoints hmem
  have hcounted : ∀ s ∈ group, entry.2.Serves s.frontierPlace ∧
      ∃ instant, s.frontierTime.shift offset = .ok instant ∧ entry.2.Contains instant := by
    intro s hs
    obtain ⟨point, hmem, hplace, hshift⟩ := exists_of_forall₂ hpoints.flip hs
    obtain ⟨other, hother, hserves, hcontains⟩ := hcovers.counted point hmem
    obtain rfl := List.mem_singleton.1 hother
    exact ⟨hplace ▸ hserves, point.2, hshift, hcontains⟩
  have hmoved : ∀ {instant}, instant ∈ points.map Prod.snd →
      ∃ s ∈ group, s.frontierTime.shift offset = .ok instant := by
    intro instant hinstant
    obtain ⟨point, hmem, rfl⟩ := List.mem_map.1 hinstant
    obtain ⟨s, hs, -, hshift⟩ := hpoint hmem
    exact ⟨s, hs, hshift⟩
  obtain ⟨point, hmem, hplace⟩ := List.mem_map.1 hopened
  obtain ⟨opener, hopener, hreached, -⟩ := hpoint hmem
  refine ⟨⟨opener, hopener, ?_⟩, fun s hs => (hcounted s hs).1, fun s hs => (hcounted s hs).2, ?_⟩
  · rw [hentry.located, ← hplace, hreached]
  · obtain ⟨earliest, latest, hbounds, hearliest, hlatest⟩ := hentry.bounded
    -- The one who opened the coverage lies within, so its bounds are in order.
    obtain ⟨instant, -, first, last, hwithin, hfirst, hlast⟩ := (hcounted opener hopener).2
    cases hbounds.symm.trans hwithin
    exact ⟨_, _, hbounds, Int.le_trans hfirst hlast, hmoved hearliest, hmoved hlatest⟩

end CoveredFor

/-- One more sequence joins a group, or begins one. -/
theorem exists_groups_of_coverPlace {offset : Int} {covered : List (Place × Coverage)}
    {groups : List (List Sequence)} {s : Sequence} {instant : Instant}
    (h : List.Forall₂ (CoveredFor offset) covered groups)
    (hshift : s.frontierTime.shift offset = .ok instant) :
    ∃ groups', List.Forall₂ (CoveredFor offset) (coverPlace s.frontierPlace instant covered)
      groups' ∧ groups'.flatten.Perm (groups.flatten ++ [s]) := by
  induction h with
  | nil => exact ⟨[[s]], .cons (.single hshift) .nil, .rfl⟩
  | @cons entry group covered groups hentry hrest ih =>
    obtain ⟨known, coverage⟩ := entry
    unfold coverPlace
    by_cases hsame : known.sameLocation s.frontierPlace = true
    · rw [if_pos hsame]
      refine ⟨(group ++ [s]) :: groups, .cons (hentry.concat hsame hshift) hrest, ?_⟩
      simp only [List.flatten_cons, List.append_assoc]
      exact List.perm_append_comm.append_left group
    · rw [if_neg hsame]
      obtain ⟨groups', hgroups', hperm⟩ := ih
      refine ⟨group :: groups', .cons hentry hgroups', ?_⟩
      simp only [List.flatten_cons, List.append_assoc]
      exact hperm.append_left group

/-- Sequences whose places are covered one after the other fall into groups. -/
theorem exists_groups_of_coverSequences {offset : Int} {sequences : List Sequence}
    {covered covered' : List (Place × Coverage)} {groups : List (List Sequence)}
    (h : List.Forall₂ (CoveredFor offset) covered groups)
    (hok : coverSequences offset covered sequences = .ok covered') :
    ∃ groups', List.Forall₂ (CoveredFor offset) covered' groups' ∧
      groups'.flatten.Perm (groups.flatten ++ sequences) := by
  induction sequences generalizing covered groups with
  | nil =>
    cases hok
    exact ⟨groups, h, by simp⟩
  | cons s rest ih =>
    obtain ⟨instant, hshift, hrest⟩ := bind_eq_ok_iff.1 hok
    obtain ⟨more, hmore, hperm⟩ := exists_groups_of_coverPlace h hshift
    obtain ⟨groups', hgroups', hperm'⟩ := ih hmore hrest
    refine ⟨groups', hgroups', hperm'.trans ?_⟩
    simpa using hperm.append_right rest

/-- The places of sequences can be covered exactly if each growing end can be moved. -/
theorem exists_coverSequences_iff {offset : Int} {sequences : List Sequence}
    {covered : List (Place × Coverage)} :
    (∃ covered', coverSequences offset covered sequences = .ok covered') ↔
      ∀ s ∈ sequences, ∃ instant, s.frontierTime.shift offset = .ok instant := by
  induction sequences generalizing covered with
  | nil => simp [coverSequences]
  | cons s rest ih =>
    rw [List.forall_mem_cons]
    constructor
    · rintro ⟨covered', hok⟩
      obtain ⟨instant, hshift, hrest⟩ := bind_eq_ok_iff.1 hok
      exact ⟨⟨instant, hshift⟩, ih.1 ⟨covered', hrest⟩⟩
    · rintro ⟨⟨instant, hshift⟩, hrest⟩
      obtain ⟨covered', hok⟩ := ih.2 hrest
      exact ⟨covered', bind_eq_ok_iff.2 ⟨instant, hshift, hok⟩⟩

/-! ### The coverages of an assembly -/

/-- No more junctions are begun than there are. -/
theorem Reached.step_le {a : Assembly} (h : a.Reached) : a.step ≤ a.junctions.length := by
  induction h with
  | start hstart =>
    obtain ⟨halong, -⟩ := along_of_start hstart
    rw [halong.step_eq]
    exact Nat.zero_le _
  | @advance a h ih =>
    unfold Assembly.advance
    split
    · rename_i hnext
      exact of_decide_eq_true hnext
    · exact ih
  | merge h hok ih =>
    unfold Assembly.merge at hok
    split at hok
    · cases hok
      exact ih
    · split at hok
      · cases hok
        exact ih
      · obtain ⟨sequences, -, rfl⟩ := map_eq_ok_iff.1 hok
        exact ih

/-- Once a junction has been begun there is a stopover at which what is found joins. -/
theorem Reached.exists_mergeEnd {a : Assembly} (h : a.Reached) (hbegun : 0 < a.step) :
    ∃ stop, a.mergeEnd? = some stop := by
  have hstep := h.step_le
  have hlast : a.step - 1 < a.junctions.length := by omega
  unfold mergeEnd? junction?
  rw [if_neg (by omega), List.getElem?_eq_getElem hlast]
  exact ⟨_, rfl⟩

section Coverages

variable {a : Assembly} {stop : Stopover} {coverages : List Coverage}

/-- Behind the first junction the coverages are those of the places covered for groups of the
sequences, in the order of places. -/
theorem exists_groups (hend : a.mergeEnd? = some stop) (hlater : a.isFirstStep = false)
    (hok : a.coverages = .ok coverages) :
    ∃ (covered : List (Place × Coverage)) (groups : List (List Sequence)),
      List.Forall₂ (CoveredFor (stop.minWait * a.direction.sign)) covered groups ∧
      groups.flatten.Perm a.sequences ∧ coverages = covered.map Prod.snd ∧
      covered.Pairwise fun x y => (x.1.compareByReference y.1 != .gt) = true := by
  unfold Assembly.coverages at hok
  rw [hend, hlater] at hok
  obtain ⟨covered, hcovered, rfl⟩ := map_eq_ok_iff.1 hok
  obtain ⟨groups, hgroups, hperm⟩ := exists_groups_of_coverSequences .nil hcovered
  -- The groups are put in the order that the coverages are sorted in.
  obtain ⟨groups', hgroups', hperm'⟩ :=
    List.perm_comp_forall₂ (List.mergeSort_perm covered _) hgroups
  exact ⟨_, groups', hgroups', hperm'.flatten.trans (by simpa using hperm), rfl,
    Place.pairwise_mergeSort_compare Prod.fst covered⟩

/-- There are coverages behind the first junction exactly if each growing end can be moved. -/
theorem exists_coverages_iff (hend : a.mergeEnd? = some stop) (hlater : a.isFirstStep = false) :
    (∃ coverages, a.coverages = .ok coverages) ↔ ∀ s ∈ a.sequences,
      ∃ instant, s.frontierTime.shift (stop.minWait * a.direction.sign) = .ok instant := by
  rw [← @exists_coverSequences_iff _ _ []]
  unfold Assembly.coverages
  rw [hend, hlater]
  constructor
  · rintro ⟨coverages, hok⟩
    obtain ⟨covered, hcovered, -⟩ := map_eq_ok_iff.1 hok
    exact ⟨covered, hcovered⟩
  · rintro ⟨covered, hcovered⟩
    exact ⟨_, map_eq_ok_iff.2 ⟨covered, hcovered, rfl⟩⟩

/-- The coverages behind the first junction are those of the sequences. -/
theorem windowsOf_of_coverages (hend : a.mergeEnd? = some stop) (hlater : a.isFirstStep = false)
    (hok : a.coverages = .ok coverages) :
    WindowsOf (stop.minWait * a.direction.sign) a.sequences coverages := by
  obtain ⟨covered, groups, hgroups, hperm, rfl, hsorted⟩ := exists_groups hend hlater hok
  have happart := coverages_apart hok
  have hlocated : ∀ entry ∈ covered, entry.2.location.toPlace = entry.1 := by
    intro entry hentry
    obtain ⟨group, -, points, -, hcovers, -⟩ := exists_of_forall₂ hgroups.flip hentry
    rw [(hcovers.places entry (by simp)).located]
    rfl
  refine ⟨⟨groups, hperm, ?_⟩, fun s hs => exists_serves hend hlater hok hs, happart, ?_, ?_⟩
  · exact List.forall₂_map_left_iff.2 (hgroups.imp fun entry group h => h.windowOf)
  · intro hnone
    obtain rfl := List.map_eq_nil_iff.1 hnone
    cases hgroups
    exact (List.nil_perm.1 hperm)
  · refine List.pairwise_map.2
      ((hsorted.and (List.pairwise_map.1 happart)).imp_of_mem fun hx hy hxy => ?_)
    obtain ⟨hle, hxy⟩ := hxy
    rw [← hlocated _ hx, ← hlocated _ hy] at hle
    exact Place.compare_lt_or_of_ne_gt hle hxy

end Coverages

/-- In every state that an assembly can come to behind the first junction, the windows are
those of its sequences: one for each group that has come to the same location, from when the
first of the group gets there to when the last one does. -/
theorem coverages_are_windows {a : Assembly} (hreached : a.Reached) (hlater : 1 < a.step) :
    ∃ stop, a.mergeEnd? = some stop ∧
      ((∃ coverages, a.coverages = .ok coverages) ↔ ∀ s ∈ a.sequences,
        ∃ instant, s.frontierTime.shift (stop.minWait * a.direction.sign) = .ok instant) ∧
      ∀ coverages, a.coverages = .ok coverages →
        WindowsOf (stop.minWait * a.direction.sign) a.sequences coverages := by
  obtain ⟨stop, hend⟩ := hreached.exists_mergeEnd (by omega)
  have hnotFirst : a.isFirstStep = false := by
    rw [isFirstStep, beq_eq_false_iff_ne]
    omega
  exact ⟨stop, hend, exists_coverages_iff hend hnotFirst,
    fun coverages hok => windowsOf_of_coverages hend hnotFirst hok⟩

/-! ### On the way back from a harbour -/

/-- The second of three stops, where changing takes between four minutes and an hour. -/
private def quayStop : Stopover :=
  ⟨.ofPlace (.inRow 1), Span.minutes 4, Span.minutes 60, by decide, by decide⟩

/-- A route over three stops, before the first junction in the order of growth. -/
private def towardQuay : Assembly where
  direction := .arriveBy
  junctions := Direction.arriveBy.inTravelOrder
    (Junction.along [.atEnd (.ofPlace (.inRow 0)), quayStop, .atEnd (.ofPlace (.inRow 2))])
  step := 0
  sequences := []
  time := .ofMinute 720
  windowLength := none
  modes := .default

/-- The route when it goes on from the second stop, behind what was found first. -/
private def behindQuay (found : List Candidate) : Assembly :=
  { towardQuay with step := 2, sequences := found.map (Sequence.single .arriveBy) }

/-- Whatever was found, this state can come up. -/
private theorem reached_behindQuay (found : List Candidate) : (behindQuay found).Reached := by
  have hstart : Assembly.start .arriveBy
      [.atEnd (.ofPlace (.inRow 0)), quayStop, .atEnd (.ofPlace (.inRow 2))] (.ofMinute 720) none
      .default = .ok towardQuay := rfl
  have hmerge : towardQuay.advance.merge found =
      .ok { towardQuay with step := 1, sequences := found.map (Sequence.single .arriveBy) } := rfl
  exact (Assembly.Reached.start hstart).advance.merge hmerge |>.advance

/-- A harbour with two quays. -/
private def harbour : Coordinate :=
  ⟨63.4, 10.4, by decide +kernel⟩

/-- One of the quays there. -/
private def eastQuay : Place :=
  { Place.ofStop "E" (by decide) with coordinate := some harbour }

/-- The other one. -/
private def westQuay : Place :=
  { Place.ofStop "W" (by decide) with coordinate := some harbour }

/-- That quay again, when its position is not known. -/
private def westStop : Place :=
  .ofStop "W" (by decide)

/-- Two ferries from the east quay, and two from the west quay, which are the same location only
where its position is known. -/
private def ferries : List Candidate :=
  [.ofLeg 0 (.onDay .ferry eastQuay (.inRow 2) 500 520),
    .ofLeg 1 (.onDay .ferry westStop (.inRow 2) 540 560),
    .ofLeg 2 (.onDay .ferry westQuay (.inRow 2) 490 515),
    .ofLeg 3 (.onDay .ferry eastQuay (.inRow 2) 510 530)]

/-- Ferries from three places are behind two windows. -/
theorem ferries_behind_windows :
    (behindQuay ferries).Reached ∧ 1 < (behindQuay ferries).step ∧
      (behindQuay ferries).coverages =
        .ok [⟨.ofPlace eastQuay, some (.ofMinute 486, .ofMinute 506)⟩,
          ⟨.ofPlace westStop, some (.ofMinute 536, .ofMinute 536)⟩] ∧
      ∃ stop, (behindQuay ferries).mergeEnd? = some stop ∧
        ((∃ coverages, (behindQuay ferries).coverages = .ok coverages) ↔
          ∀ s ∈ (behindQuay ferries).sequences, ∃ instant,
            s.frontierTime.shift (stop.minWait * (behindQuay ferries).direction.sign) =
              .ok instant) ∧
        ∀ coverages, (behindQuay ferries).coverages = .ok coverages →
          WindowsOf (stop.minWait * (behindQuay ferries).direction.sign)
            (behindQuay ferries).sequences coverages := by
  have hcovered : coverSequences (quayStop.minWait * Direction.arriveBy.sign) []
      (behindQuay ferries).sequences =
        .ok [(eastQuay, ⟨.ofPlace eastQuay, some (.ofMinute 486, .ofMinute 506)⟩),
          (westStop, ⟨.ofPlace westStop, some (.ofMinute 536, .ofMinute 536)⟩)] := by
    decide +kernel
  exact ⟨reached_behindQuay ferries, by decide,
    coverages_of_pairwise (a := behindQuay ferries) rfl rfl hcovered (by decide +kernel),
    coverages_are_windows (reached_behindQuay ferries) (by decide)⟩

end Assembly

end JourneyPlanner.Composition
