import JourneyPlanner.Proofs.CheapestOfGroups
import JourneyPlanner.Proofs.ExactNumbers
import JourneyPlanner.Proofs.LinearTime
import Mathlib.Tactic.Linarith

/-!
# Main rides

The main rides of an itinerary are those of its longest transit legs that together cover a
share of the whole. With exact lengths they can be told without the loop that finds them: the
transit legs are put in order of length, and of all fronts of this list that are long enough
the shortest one is taken, or the whole list if none is. A front that covers a share covers a
smaller one as well, so main rides are only lost when the share is lowered.
-/

namespace JourneyPlanner.Selection

variable {length : Leg → ℚ} {legs ordered front : List Leg} {goal : ℚ}

/-! ### Legs in order of length -/

/-- Some legs in order of length, the longest first; legs of one length stand as they are
travelled. -/
structure LongestFirst (length : Leg → ℚ) (legs ordered : List Leg) : Prop where
  /-- They are the same legs. -/
  perm : ordered.Perm legs
  /-- None is longer than one in front of it. -/
  decreasing : ordered.Pairwise fun a b => length b ≤ length a
  /-- Those of one length stand as they are travelled. -/
  ties : ∀ x, ordered.filter (fun leg => length leg = x) = legs.filter fun leg => length leg = x

/-- A stable sort by length puts legs in order of length. -/
theorem longestFirst_mergeSort {le : Leg → Leg → Bool}
    (hle : ∀ a b, le a b = true ↔ length b ≤ length a) (legs : List Leg) :
    LongestFirst length legs (legs.mergeSort le) := by
  have htrans : ∀ a b c, le a b = true → le b c = true → le a c = true := by
    intro a b c hab hbc
    rw [hle] at *
    exact hbc.trans hab
  have htotal : ∀ a b, (le a b || le b a) = true := by
    intro a b
    rw [Bool.or_eq_true, hle, hle]
    exact le_total _ _
  refine ⟨List.mergeSort_perm _ _, ?_, fun x => ?_⟩
  · exact (List.pairwise_mergeSort htrans htotal legs).imp fun h => (hle _ _).1 h
  · -- Legs of one length are sorted as they stand.
    rw [filter_mergeSort htrans htotal]
    refine List.mergeSort_of_pairwise (List.pairwise_of_forall_mem_list fun a ha b hb => ?_)
    have hax : length a = x := of_decide_eq_true (List.mem_filter.1 ha).2
    have hbx : length b = x := of_decide_eq_true (List.mem_filter.1 hb).2
    rw [hle, hax, hbx]

/-- Legs can be put in order of length in one way only. -/
theorem LongestFirst.unique {other : List Leg} (h : LongestFirst length legs ordered)
    (hother : LongestFirst length legs other) : ordered = other := by
  have hties : ∀ x, ordered.filter (fun leg => length leg = x) =
      other.filter fun leg => length leg = x := fun x => (h.ties x).trans (hother.ties x).symm
  have hperm : ordered.Perm other := h.perm.trans hother.perm.symm
  have hsorted := h.decreasing
  have hsorted' := hother.decreasing
  clear h hother
  induction ordered generalizing other with
  | nil => exact (List.nil_perm.1 hperm).symm
  | cons a rest ih =>
    cases other with
    | nil => exact absurd hperm.length_eq (by simp)
    | cons b rest' =>
      obtain ⟨hfirst, hrest⟩ := List.pairwise_cons.1 hsorted
      obtain ⟨hfirst', hrest'⟩ := List.pairwise_cons.1 hsorted'
      -- Both first legs are longest ones, so they are the first of that length.
      have hlength : length a = length b := by
        refine le_antisymm ?_ ?_
        · rcases List.mem_cons.1 (hperm.mem_iff.1 List.mem_cons_self) with rfl | ha
          · exact le_refl _
          · exact hfirst' a ha
        · rcases List.mem_cons.1 (hperm.mem_iff.2 List.mem_cons_self) with rfl | hb
          · exact le_refl _
          · exact hfirst b hb
      obtain rfl : a = b := by
        have hhead := hties (length a)
        simp only [List.filter_cons, hlength, decide_true, if_true, List.cons.injEq] at hhead
        exact hhead.1
      refine congrArg _ (ih (fun x => ?_) ((List.perm_cons a).1 hperm) hrest hrest')
      have htail := hties x
      simp only [List.filter_cons] at htail
      split at htail
      · exact (List.cons.inj htail).2
      · exact htail

/-! ### Fronts that cover a goal -/

/-- Some legs, at least one, are together as long as a goal. -/
def Covers (length : Leg → ℚ) (goal : ℚ) (legs : List Leg) : Prop :=
  legs ≠ [] ∧ goal ≤ (legs.map length).sum

/-- The shortest front of some legs that covers a goal, or all of them if none does. -/
structure ShortestCover (length : Leg → ℚ) (goal : ℚ) (legs front : List Leg) : Prop where
  /-- It is a front. -/
  isFront : front <+: legs
  /-- It covers the goal, or there is nothing more to take. -/
  covers : Covers length goal front ∨ front = legs
  /-- No other front that covers the goal is shorter. -/
  shortest : ∀ other, other <+: legs → Covers length goal other → front <+: other

/-- What covers a goal covers a lower one. -/
theorem Covers.of_le {lower : ℚ} (h : Covers length goal legs) (hlower : lower ≤ goal) :
    Covers length lower legs :=
  ⟨h.1, hlower.trans h.2⟩

/-- A leg in front of others covers with them what is left of the goal. -/
theorem covers_cons_iff {leg : Leg} (hne : legs ≠ []) :
    Covers length goal (leg :: legs) ↔ Covers length (goal - length leg) legs := by
  simp only [Covers, ne_eq, hne, List.cons_ne_nil, not_false_eq_true, true_and, List.map_cons,
    List.sum_cons]
  constructor <;> intro h <;> linarith

namespace ShortestCover

/-- A lower goal is covered by a front of the legs that cover a higher one. -/
theorem mono {higher : ℚ} {front' : List Leg} (h : ShortestCover length goal legs front)
    (h' : ShortestCover length higher legs front') (hle : goal ≤ higher) : front <+: front' := by
  rcases h'.covers with hcovers | rfl
  · exact h.shortest front' h'.isFront (hcovers.of_le hle)
  · exact h.isFront

/-- There is one shortest front. -/
theorem unique {front' : List Leg} (h : ShortestCover length goal legs front)
    (h' : ShortestCover length goal legs front') : front = front' :=
  (h.mono h' le_rfl).eq_of_length_le (h'.mono h le_rfl).length_le

/-- A first leg as long as the goal is enough. -/
theorem single {leg : Leg} (hlong : goal ≤ length leg) :
    ShortestCover length goal (leg :: legs) [leg] where
  isFront := (List.cons_prefix_cons).2 ⟨rfl, List.nil_prefix⟩
  covers := Or.inl ⟨List.cons_ne_nil _ _, by simpa using hlong⟩
  shortest other hother hcovers := by
    obtain ⟨first, rest, rfl⟩ := List.exists_cons_of_ne_nil hcovers.1
    exact List.cons_prefix_cons.2 ⟨(List.cons_prefix_cons.1 hother).1.symm, List.nil_prefix⟩

/-- Behind a first leg that is too short, what is left of the goal has to be covered. -/
theorem cons {leg : Leg} (hshort : length leg < goal)
    (h : ShortestCover length (goal - length leg) legs front) :
    ShortestCover length goal (leg :: legs) (leg :: front) where
  isFront := List.cons_prefix_cons.2 ⟨rfl, h.isFront⟩
  covers := h.covers.imp (fun hcovers => (covers_cons_iff hcovers.1).2 hcovers) (congrArg _)
  shortest other hother hcovers := by
    obtain ⟨first, rest, rfl⟩ := List.exists_cons_of_ne_nil hcovers.1
    obtain ⟨rfl, hrest⟩ := List.cons_prefix_cons.1 hother
    have hne : rest ≠ [] := by
      rintro rfl
      have hlong : goal ≤ length first := by simpa using hcovers.2
      exact absurd hshort (not_lt.2 hlong)
    exact List.cons_prefix_cons.2 ⟨rfl, h.shortest rest hrest ((covers_cons_iff hne).1 hcovers)⟩

end ShortestCover

/-- Taking legs from the front until they cover a goal takes the shortest front that covers
what is left of it. -/
theorem shortestCover_takeCovering (length : Leg → ℚ) (goal covered : ℚ) (legs : List Leg) :
    ShortestCover length (goal - covered) legs (takeCovering length goal covered legs) := by
  induction legs generalizing covered with
  | nil => exact ⟨List.nil_prefix, Or.inr rfl, fun other _ _ => List.nil_prefix⟩
  | cons leg rest ih =>
    have hcovered : Quantity.add covered (length leg) = covered + length leg := rfl
    have hreached : Quantity.le goal (covered + length leg) = true ↔
        goal ≤ covered + length leg := decide_eq_true_iff
    rw [takeCovering]
    simp only [hcovered, hreached]
    split_ifs with hlong
    · exact .single (by linarith)
    · refine .cons (by linarith) ?_
      rw [sub_sub]
      exact ih (covered + length leg)

/-! ### The rides of an itinerary -/

/-- The length of a leg of an itinerary: its distance, if the distances of all legs come to
something, else its duration in whole seconds. -/
def exactLength (distance : Leg → ℚ) (it : Itinerary) (leg : Leg) : ℚ :=
  if 0 < (it.legs.map distance).sum then distance leg else (Span.inSeconds leg.duration : ℚ)

/-- The length of all legs of an itinerary. -/
def exactTotal (distance : Leg → ℚ) (it : Itinerary) : ℚ :=
  (it.legs.map (exactLength distance it)).sum

variable {distance : Leg → ℚ} {it : Itinerary} {share : ℚ}

/-- Legs are measured by their exact length. -/
theorem lengthOf_eq (distance : Leg → ℚ) (it : Itinerary) :
    lengthOf distance it = exactLength distance it := by
  have hsome : Quantity.lt Quantity.zero (Quantity.sum (it.legs.map distance)) = true ↔
      0 < (it.legs.map distance).sum := by
    rw [Quantity.sum_eq]
    exact decide_eq_true_iff
  funext leg
  unfold lengthOf exactLength
  simp only [hsome]
  split_ifs <;> rfl

/-- The main rides of an itinerary are those of a shortest front of its transit legs in order of
length. -/
theorem exists_mainLegs (distance : Leg → ℚ) (share : ℚ) (it : Itinerary) :
    ∃ ordered front, LongestFirst (exactLength distance it) it.transitLegs ordered ∧
      ShortestCover (exactLength distance it) (share * exactTotal distance it) ordered front ∧
        front.map Leg.ride = mainRides distance share it := by
  have hle : ∀ a b, (Quantity.rank (exactLength distance it b) (exactLength distance it a) !=
      .gt) = true ↔ exactLength distance it b ≤ exactLength distance it a :=
    fun a b => by simp [Quantity.rank, compare_le_iff_le]
  have hgoal : Quantity.mul share (Quantity.sum (it.legs.map (exactLength distance it))) =
      share * exactTotal distance it := by
    rw [Quantity.sum_eq]
    rfl
  have hcover := shortestCover_takeCovering (exactLength distance it)
    (share * exactTotal distance it) 0 (it.transitLegs.mergeSort fun a b =>
      Quantity.rank (exactLength distance it b) (exactLength distance it a) != .gt)
  rw [sub_zero] at hcover
  refine ⟨_, _, longestFirst_mergeSort hle _, hcover, ?_⟩
  unfold mainRides
  dsimp only
  rw [lengthOf_eq, hgoal]
  rfl

/-- The main rides of an itinerary at a share of its length are the rides of the shortest front of
its transit legs, the longest ones first, that covers this share of all legs, or of all its
transit legs if no front does. There are none exactly if the itinerary stays on the street, and
unless its length is negative, those at a smaller share are among those at a larger one. -/
theorem mainRides_cover_share (distance : Leg → ℚ) (share : ℚ) (it : Itinerary) :
    (∀ rides, mainRides distance share it = rides ↔ ∃ ordered front,
        LongestFirst (exactLength distance it) it.transitLegs ordered ∧
          ShortestCover (exactLength distance it) (share * exactTotal distance it) ordered front ∧
            front.map Leg.ride = rides) ∧
      (mainRides distance share it = [] ↔ it.isStreetOnly = true) ∧
      (0 ≤ exactTotal distance it → ∀ larger, share ≤ larger →
        mainRides distance share it ⊆ mainRides distance larger it) := by
  obtain ⟨ordered, front, hordered, hfront, hrides⟩ := exists_mainLegs distance share it
  refine ⟨fun rides => ⟨?_, ?_⟩, mainRides_eq_nil_iff, fun htotal larger hlarger => ?_⟩
  · rintro rfl
    exact ⟨ordered, front, hordered, hfront, hrides⟩
  · rintro ⟨ordered', front', hordered', hfront', rfl⟩
    obtain rfl := hordered.unique hordered'
    rw [← hrides, hfront.unique hfront']
  · obtain ⟨ordered', front', hordered', hfront', hrides'⟩ := exists_mainLegs distance larger it
    obtain rfl := hordered.unique hordered'
    have hgoals := mul_le_mul_of_nonneg_right hlarger htotal
    rw [← hrides, ← hrides']
    exact List.map_subset _ (hfront.mono hfront' hgoals).subset

/-- A ride. -/
private def firstRide : Leg :=
  { Leg.onDay .bus (.inRow 0) (.inRow 1) 480 500 with distance := 2000.0 }

/-- A ride twice as long. -/
private def longRide : Leg :=
  { Leg.onDay .tram (.inRow 2) (.inRow 3) 512 530 with distance := 4000.0 }

/-- A ride as long as the first one. -/
private def lastRide : Leg :=
  { Leg.onDay .rail (.inRow 3) (.inRow 0) 540 550 with distance := 2000.0 }

/-- A journey with a walk behind the first ride. -/
private def threeRides : Itinerary :=
  (Candidate.ofLegs 0
    [firstRide, { Leg.onDay .walk (.inRow 1) (.inRow 2) 500 510 with distance := 300.0 },
      longRide, lastRide] (by decide) (by decide)).toItinerary

/-- The number of metres of a leg. -/
private def metres (leg : Leg) : ℚ :=
  Decimal.exactly leg.distance

/-- Half of the journey is covered by the long ride and, of the two others, the first one. -/
theorem longRide_and_firstRide_cover : 0 ≤ exactTotal metres threeRides ∧ (1 / 2 : ℚ) ≤ 3 / 4 ∧
    mainRides metres (1 / 2) threeRides = [longRide.ride, firstRide.ride] ∧
    (mainRides metres (1 / 2) threeRides = [] ↔ threeRides.isStreetOnly = true) ∧
    mainRides metres (1 / 2) threeRides ⊆ mainRides metres (3 / 4) threeRides := by
  have hfirst : exactLength metres threeRides firstRide = 2000 := by decide +kernel
  have hlong : exactLength metres threeRides longRide = 4000 := by decide +kernel
  have hlast : exactLength metres threeRides lastRide = 2000 := by decide +kernel
  have htotal : exactTotal metres threeRides = 8300 := by decide +kernel
  have hlegs : threeRides.transitLegs = [firstRide, longRide, lastRide] := by decide +kernel
  have hordered : LongestFirst (exactLength metres threeRides) threeRides.transitLegs
      [longRide, firstRide, lastRide] := by
    rw [hlegs]
    refine ⟨.swap _ _ _, ?_, fun x => ?_⟩
    · norm_num [hfirst, hlong, hlast]
    · simp only [List.filter_cons, List.filter_nil, hfirst, hlong, hlast, decide_eq_true_iff]
      split_ifs with hx hx'
      · linarith
      · rfl
      · rfl
      · rfl
  have hcover : ShortestCover (exactLength metres threeRides)
      (1 / 2 * exactTotal metres threeRides) [longRide, firstRide, lastRide]
      [longRide, firstRide] := by
    refine .cons ?_ (.single ?_)
    · norm_num [hlong, htotal]
    · norm_num [hlong, hfirst, htotal]
  obtain ⟨hrides, hnone, hlarger⟩ := mainRides_cover_share metres (1 / 2) threeRides
  have hnonneg : 0 ≤ exactTotal metres threeRides := by norm_num [htotal]
  have hshares : (1 / 2 : ℚ) ≤ 3 / 4 := by norm_num
  exact ⟨hnonneg, hshares, (hrides _).2 ⟨_, _, hordered, hcover, rfl⟩, hnone,
    hlarger hnonneg _ hshares⟩

end JourneyPlanner.Selection
