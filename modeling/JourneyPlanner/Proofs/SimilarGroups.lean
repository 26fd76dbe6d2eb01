import JourneyPlanner.Selection.Similarity
import Mathlib.Algebra.GroupWithZero.Nat
import Mathlib.Data.Finset.Card
import Mathlib.Data.List.Pairwise
import Mathlib.Data.List.Perm.Subperm

/-!
# Groups of similar candidates

Rides compare as sets, so the groups that are met one after the other are the classes of
candidates with the same set of main rides, and each candidate without main rides is a
class of its own. From a part of a list come no more groups than from all of it, and no
group is larger; each group may then keep no fewer of its members.
-/

namespace JourneyPlanner.Selection

/-- Rides are the same if they are the same as sets. -/
theorem sameRides_iff {a b : List Ride} : sameRides a b = true ↔ a.toFinset = b.toFinset := by
  simp only [sameRides, Bool.and_eq_true, List.all_eq_true, List.contains_iff_mem]
  constructor
  · rintro ⟨hab, hba⟩
    ext ride
    simpa using ⟨hab ride, hba ride⟩
  · intro h
    have hmem : ∀ ride, ride ∈ a ↔ ride ∈ b := by simpa [Finset.ext_iff] using h
    exact ⟨fun ride hride => (hmem ride).1 hride, fun ride hride => (hmem ride).2 hride⟩

/-- What an insertion does to groups: the first group with the rides gets one more member, or a
new group stands behind all others. -/
theorem insertIntoGroups_cases (rides : List Ride) (entry : Candidate × Nat)
    (groups : List Group) :
    (∃ front group back, groups = front ++ group :: back ∧ rides ≠ [] ∧
      group.rides.toFinset = rides.toFinset ∧ insertIntoGroups rides entry groups =
        front ++ ⟨group.rides, group.members ++ [entry]⟩ :: back) ∨
    ((rides ≠ [] → ∀ group ∈ groups, group.rides.toFinset ≠ rides.toFinset) ∧
      insertIntoGroups rides entry groups = groups ++ [⟨rides, [entry]⟩]) := by
  fun_induction insertIntoGroups rides entry groups with
  | case1 => exact .inr ⟨by simp, rfl⟩
  | case2 group rest hsame =>
    rw [Bool.and_eq_true, Bool.not_eq_true', List.isEmpty_eq_false_iff, sameRides_iff] at hsame
    exact .inl ⟨[], group, rest, rfl, hsame.1, hsame.2, rfl⟩
  | case3 group rest hother ih =>
    rw [Bool.and_eq_true, Bool.not_eq_true', List.isEmpty_eq_false_iff, sameRides_iff, not_and]
      at hother
    rcases ih with ⟨front, found, back, rfl, hne, hrides, hinsert⟩ | ⟨hnew, hinsert⟩
    · exact .inl ⟨group :: front, found, back, rfl, hne, hrides, by rw [hinsert]; rfl⟩
    · refine .inr ⟨fun hne => ?_, by rw [hinsert]; rfl⟩
      exact List.forall_mem_cons.2 ⟨hother hne, hnew hne⟩

/-- The positions of a list increase. -/
theorem pairwise_zipIdx_lt {α : Type} (items : List α) :
    items.zipIdx.Pairwise fun a b => a.2 < b.2 := by
  have hpositions : (items.zipIdx.map Prod.snd).Pairwise (· < ·) := by
    rw [List.zipIdx_map_snd]
    exact List.pairwise_lt_range'
  exact List.pairwise_map.1 hpositions

/-- A position tells an entry of a list. -/
theorem eq_of_position_eq {α : Type} {items : List α} {a b : α × Nat} (ha : a ∈ items.zipIdx)
    (hb : b ∈ items.zipIdx) (hposition : a.2 = b.2) : a = b := by
  rw [List.mem_zipIdx_iff_getElem?] at ha hb
  rw [← hposition, ha, Option.some.injEq] at hb
  exact Prod.ext hb hposition

/-- No item stands in two places of a list. -/
theorem nodup_zipIdx {α : Type} (items : List α) : items.zipIdx.Nodup := by
  refine List.nodup_iff_pairwise_ne.2 ((pairwise_zipIdx_lt items).imp fun {a b} hlt => ?_)
  rintro rfl
  exact Nat.lt_irrefl _ hlt

/-- A sum of ones counts the items that give one. -/
theorem sum_map_eq_countP {α : Type} {items : List α} {f : α → Nat} {p : α → Bool}
    (h : ∀ a ∈ items, f a = if p a then 1 else 0) : (items.map f).sum = items.countP p := by
  induction items with
  | nil => rfl
  | cons a rest ih =>
    obtain ⟨ha, hrest⟩ := List.forall_mem_cons.1 h
    rw [List.map_cons, List.sum_cons, ha, ih hrest, List.countP_cons, Nat.add_comm]

section Grouping

variable (ridesOf : Candidate → List Ride)

/-- The main rides of a candidate as a set. -/
def rideSet (c : Candidate) : Finset Ride :=
  (ridesOf c).toFinset

/-- Groups hold entries, each in the group with its rides. -/
structure Grouped (entries : List (Candidate × Nat)) (groups : List Group) : Prop where
  /-- Each entry is a member of one group. -/
  perm : (groups.flatMap Group.members).Perm entries
  /-- The members of a group have its rides. -/
  shared : ∀ group ∈ groups, ∀ entry ∈ group.members,
    rideSet ridesOf entry.1 = group.rides.toFinset
  /-- No group is without members. -/
  ne_nil : ∀ group ∈ groups, group.members ≠ []
  /-- A group without rides has one member. -/
  alone : ∀ group ∈ groups, group.rides = [] → group.members.length = 1
  /-- Groups with rides have different ones. -/
  distinct : groups.Pairwise fun a b => a.rides.toFinset = b.rides.toFinset → a.rides = []

variable {ridesOf} {entries : List (Candidate × Nat)} {groups : List Group}

namespace Grouped

/-- One more entry keeps entries grouped. -/
theorem insert (h : Grouped ridesOf entries groups) (entry : Candidate × Nat) :
    Grouped ridesOf (entries ++ [entry]) (insertIntoGroups (ridesOf entry.1) entry groups) := by
  rcases insertIntoGroups_cases (ridesOf entry.1) entry groups with
    ⟨front, group, back, rfl, hne, hrides, hinsert⟩ | ⟨hnew, hinsert⟩
  · rw [hinsert]
    have hgroup : group ∈ front ++ group :: back := by simp
    have hgroupNe : group.rides ≠ [] := by
      intro hnil
      rw [hnil, List.toFinset_nil, eq_comm, List.toFinset_eq_empty_iff] at hrides
      exact hne hrides
    -- Only the members of one group have changed.
    have hmem : ∀ {p : Group → Prop}, (∀ other ∈ front ++ group :: back, p other) →
        p ⟨group.rides, group.members ++ [entry]⟩ →
        ∀ other ∈ front ++ ⟨group.rides, group.members ++ [entry]⟩ :: back, p other := by
      intro p hall hone other hother
      rcases List.mem_append.1 hother with hfront | hother
      · exact hall other (List.mem_append_left _ hfront)
      · rcases List.mem_cons.1 hother with rfl | hback
        · exact hone
        · exact hall other (List.mem_append_right _ (List.mem_cons_of_mem _ hback))
    refine ⟨?_, hmem h.shared ?_, hmem h.ne_nil (by simp), hmem h.alone ?_, ?_⟩
    · have hperm := h.perm.append_right [entry]
      simp only [List.flatMap_append, List.flatMap_cons, List.append_assoc] at hperm ⊢
      refine List.Perm.trans ?_ hperm
      exact (List.perm_append_comm.append_left group.members).append_left _
    · intro other hother
      rcases List.mem_append.1 hother with hother | hother
      · exact h.shared group hgroup other hother
      · rw [List.mem_singleton.1 hother]
        exact hrides.symm
    · exact fun hnil => absurd hnil hgroupNe
    · have hdistinct := h.distinct
      rw [List.pairwise_append, List.pairwise_cons] at hdistinct ⊢
      obtain ⟨hfront, ⟨hgroupBack, hback⟩, hacross⟩ := hdistinct
      refine ⟨hfront, ⟨hgroupBack, hback⟩, fun a ha b hb => ?_⟩
      rcases List.mem_cons.1 hb with rfl | hb
      · exact hacross a ha group (by simp)
      · exact hacross a ha b (List.mem_cons_of_mem _ hb)
  · rw [hinsert]
    refine ⟨?_, ?_, ?_, ?_, ?_⟩
    · simpa using h.perm.append_right [entry]
    · refine List.forall_mem_append.2 ⟨h.shared, ?_⟩
      rintro group hgroup other hother
      obtain rfl := List.mem_singleton.1 hgroup
      rw [List.mem_singleton.1 hother, rideSet]
    · exact List.forall_mem_append.2 ⟨h.ne_nil, by simp⟩
    · exact List.forall_mem_append.2 ⟨h.alone, by simp⟩
    · refine List.pairwise_append.2 ⟨h.distinct, List.pairwise_singleton _ _, ?_⟩
      intro a ha b hb hsame
      obtain rfl := List.mem_singleton.1 hb
      -- Only an entry without rides may meet a group like its own.
      by_cases hrides : ridesOf entry.1 = []
      · simpa [hrides] using hsame
      · exact absurd hsame (hnew hrides a ha)

/-- All entries end up grouped. -/
theorem foldl (h : Grouped ridesOf entries groups) (more : List (Candidate × Nat)) :
    Grouped ridesOf (entries ++ more)
      (more.foldl (fun groups entry => insertIntoGroups (ridesOf entry.1) entry groups)
        groups) := by
  induction more generalizing entries groups with
  | nil => simpa using h
  | cons entry more ih => simpa using ih (h.insert entry)

/-- Groups with the same rides are one group. -/
theorem eq_of_rides_eq (h : Grouped ridesOf entries groups) {a b : Group} (ha : a ∈ groups)
    (hb : b ∈ groups) (hrides : a.rides.toFinset = b.rides.toFinset) (hne : a.rides ≠ []) :
    a = b := by
  by_contra hab
  have hsymm : Std.Symm fun a b : Group => a.rides.toFinset = b.rides.toFinset → a.rides = [] := by
    constructor
    intro a b hnil hrides
    rw [hnil hrides.symm] at hrides
    simpa using hrides
  exact hne (h.distinct.forall ha hb hab hrides)

/-- Each entry is a member of a group. -/
theorem exists_group (h : Grouped ridesOf entries groups) {entry : Candidate × Nat}
    (hentry : entry ∈ entries) : ∃ group ∈ groups, entry ∈ group.members := by
  simpa using h.perm.mem_iff.2 hentry

/-- Members of groups are entries. -/
theorem mem_of_mem_members (h : Grouped ridesOf entries groups) {group : Group}
    (hgroup : group ∈ groups) {entry : Candidate × Nat} (hentry : entry ∈ group.members) :
    entry ∈ entries :=
  h.perm.mem_iff.1 (List.mem_flatMap.2 ⟨group, hgroup, hentry⟩)

/-- A group has members without rides only if it has none itself, and then one. -/
theorem countP_members (h : Grouped ridesOf entries groups) {group : Group}
    (hgroup : group ∈ groups) :
    group.members.countP (fun entry => rideSet ridesOf entry.1 = ∅) =
      if group.rides = [] then 1 else 0 := by
  have hrides : ∀ entry ∈ group.members,
      (rideSet ridesOf entry.1 = ∅ ↔ group.rides = []) := by
    intro entry hentry
    rw [h.shared group hgroup entry hentry, List.toFinset_eq_empty_iff]
  split_ifs with hnil
  · rw [← h.alone group hgroup hnil, List.countP_eq_length]
    exact fun entry hentry => decide_eq_true ((hrides entry hentry).2 hnil)
  · rw [List.countP_eq_zero]
    simpa using fun entry hentry hempty => hnil ((hrides entry hentry).1 hempty)

/-- A group has no more members than there are entries with its rides. -/
theorem length_members_le (h : Grouped ridesOf entries groups) {group : Group}
    (hgroup : group ∈ groups) :
    group.members.length ≤
      entries.countP fun entry => rideSet ridesOf entry.1 = group.rides.toFinset := by
  have hall : group.members.countP
      (fun entry => decide (rideSet ridesOf entry.1 = group.rides.toFinset)) =
      group.members.length :=
    List.countP_eq_length.2 fun entry hentry =>
      decide_eq_true (h.shared group hgroup entry hentry)
  rw [← hall, ← h.perm.countP_eq]
  obtain ⟨front, back, rfl⟩ := List.append_of_mem hgroup
  rw [List.flatMap_append, List.flatMap_cons, List.countP_append, List.countP_append]
  omega

/-- Entries with the same rides that are each among the first few of a group come from one
group, so they are few. -/
theorem length_le_of_taken (h : Grouped ridesOf entries groups) {rides : Finset Ride}
    (hrides : rides ≠ ∅) {limit : Nat} {taken : List (Candidate × Nat)} (hnodup : taken.Nodup)
    (htaken : ∀ entry ∈ taken, ∃ group ∈ groups, group.rides.toFinset = rides ∧
      entry ∈ group.byCost.take limit) : taken.length ≤ limit := by
  cases taken with
  | nil => exact Nat.zero_le limit
  | cons first rest =>
    obtain ⟨group, hgroup, hsame, -⟩ := htaken first (by simp)
    have hne : group.rides ≠ [] := by
      rintro hnil
      rw [hnil, List.toFinset_nil] at hsame
      exact hrides hsame.symm
    have hsubset : first :: rest ⊆ group.byCost.take limit := by
      intro entry hentry
      obtain ⟨other, hother, hotherSame, hmem⟩ := htaken entry hentry
      rwa [h.eq_of_rides_eq hgroup hother (hsame.trans hotherSame.symm) hne]
    exact (hnodup.subperm hsubset).length_le.trans (List.length_take_le limit _)

/-- There is one group for each entry without rides and one for each set of rides. -/
theorem length_eq (h : Grouped ridesOf entries groups) :
    groups.length = entries.countP (fun entry => rideSet ridesOf entry.1 = ∅) +
      ((entries.map fun entry => rideSet ridesOf entry.1).toFinset.erase ∅).card := by
  have halone : entries.countP (fun entry => rideSet ridesOf entry.1 = ∅) =
      groups.countP fun group => group.rides = [] := by
    rw [← h.perm.countP_eq, List.countP_flatMap]
    exact sum_map_eq_countP fun group hgroup => by simpa using h.countP_members hgroup
  have hsets : ((groups.filter fun group => group.rides ≠ []).map fun group =>
      group.rides.toFinset).toFinset =
        (entries.map fun entry => rideSet ridesOf entry.1).toFinset.erase ∅ := by
    ext rides
    simp only [List.mem_toFinset, List.mem_map, List.mem_filter, decide_eq_true_eq,
      Finset.mem_erase]
    constructor
    · rintro ⟨group, ⟨hgroup, hne⟩, rfl⟩
      obtain ⟨entry, hentry⟩ := List.exists_mem_of_ne_nil _ (h.ne_nil group hgroup)
      exact ⟨by simpa using hne, entry, h.mem_of_mem_members hgroup hentry,
        h.shared group hgroup entry hentry⟩
    · rintro ⟨hne, entry, hentry, rfl⟩
      obtain ⟨group, hgroup, hmem⟩ := h.exists_group hentry
      have hrides := h.shared group hgroup entry hmem
      exact ⟨group, ⟨hgroup, by simpa [hrides] using hne⟩, hrides.symm⟩
  have hnodup : ((groups.filter fun group => group.rides ≠ []).map fun group =>
      group.rides.toFinset).Nodup := by
    refine List.pairwise_map.2 ((List.pairwise_filter.2 ?_))
    refine h.distinct.imp fun hab ha _ hsame => ?_
    exact of_decide_eq_true ha (hab hsame)
  rw [halone, ← hsets, List.toFinset_card_of_nodup hnodup, List.length_map,
    ← List.countP_eq_length_filter, List.length_eq_countP_add_countP fun group : Group =>
      decide (group.rides = [])]
  simp

end Grouped

/-- The candidates of a list are grouped, each with its position. -/
theorem grouped_groupsBy (ridesOf : Candidate → List Ride) (candidates : List Candidate) :
    Grouped ridesOf candidates.zipIdx (groupsBy ridesOf candidates) := by
  have hnone : Grouped ridesOf [] [] := ⟨.nil, by simp, by simp, by simp, .nil⟩
  exact hnone.foldl candidates.zipIdx

/-- There is one group for each candidate without main rides and one for each set of main
rides. -/
theorem length_groupsBy (ridesOf : Candidate → List Ride) (candidates : List Candidate) :
    (groupsBy ridesOf candidates).length =
      candidates.countP (fun c => rideSet ridesOf c = ∅) +
        ((candidates.map (rideSet ridesOf)).toFinset.erase ∅).card := by
  have hcandidates : candidates.zipIdx.map Prod.fst = candidates := List.zipIdx_map_fst 0 _
  rw [(grouped_groupsBy ridesOf candidates).length_eq]
  conv_rhs => rw [← hcandidates]
  rw [List.countP_map, List.map_map]
  rfl

/-- From a part of a list come no more groups than from all of it. -/
theorem length_groupsBy_mono {part candidates : List Candidate} (h : part.Subperm candidates) :
    (groupsBy ridesOf part).length ≤ (groupsBy ridesOf candidates).length := by
  rw [length_groupsBy, length_groupsBy]
  have hsets : (part.map (rideSet ridesOf)).toFinset ⊆
      (candidates.map (rideSet ridesOf)).toFinset := by
    intro rides hrides
    rw [List.mem_toFinset, List.mem_map] at hrides ⊢
    obtain ⟨c, hc, rfl⟩ := hrides
    exact ⟨c, h.subset hc, rfl⟩
  exact Nat.add_le_add (h.countP_le _) (Finset.card_le_card (Finset.erase_subset_erase ∅ hsets))

end Grouping

/-! ### How many each group keeps -/

/-- Each group keeps one candidate at least. -/
theorem keptPerGroup_pos (wanted groups : Nat) : 0 < keptPerGroup wanted groups := by
  unfold keptPerGroup
  split_ifs with hfew
  · exact Nat.one_pos
  · rw [not_or] at hfew
    exact Nat.div_pos (by omega) (by omega)

/-- Of fewer groups each keeps no fewer candidates. -/
theorem keptPerGroup_antitone {wanted few many : Nat} (hfew : 0 < few) (hle : few ≤ many) :
    keptPerGroup wanted many ≤ keptPerGroup wanted few := by
  by_cases hmany : many = 0 ∨ wanted ≤ many
  · have hone : keptPerGroup wanted many = 1 := if_pos hmany
    rw [hone]
    exact keptPerGroup_pos wanted few
  · have hfew' : ¬(few = 0 ∨ wanted ≤ few) := by omega
    have hrounded : ∀ groups, 0 < groups → groups ≤ many →
        (wanted + groups - 1) / groups = (wanted - 1) / groups + 1 := by
      intro groups hpos hgroups
      rw [show wanted + groups - 1 = wanted - 1 + groups by omega, Nat.add_div_right _ hpos]
    unfold keptPerGroup
    rw [if_neg hmany, if_neg hfew', hrounded many (by omega) (Nat.le_refl _),
      hrounded few hfew hle]
    exact Nat.succ_le_succ (Nat.div_le_div_left hle hfew)

/-! ### What is kept -/

section Kept

variable {ridesOf : Candidate → List Ride} {wanted : Nat} {candidates : List Candidate}

/-- An entry whose position is kept is among the cheapest of the group with its rides. -/
theorem exists_of_mem_keptPositions {entry : Candidate × Nat} (hentry : entry ∈ candidates.zipIdx)
    (hkept : entry.2 ∈ keptPositions wanted (groupsBy ridesOf candidates)) :
    ∃ group ∈ groupsBy ridesOf candidates, group.rides.toFinset = rideSet ridesOf entry.1 ∧
      entry ∈ group.byCost.take (keptPerGroup wanted (groupsBy ridesOf candidates).length) := by
  have hgrouped := grouped_groupsBy ridesOf candidates
  obtain ⟨group, hgroup, hpositions⟩ := List.mem_flatMap.1 hkept
  obtain ⟨other, hother, hposition⟩ := List.mem_map.1 hpositions
  have hmember : other ∈ group.members :=
    (List.mergeSort_perm group.members _).mem_iff.1 (List.mem_of_mem_take hother)
  have hlisted := hgrouped.mem_of_mem_members hgroup hmember
  obtain rfl : other = entry := eq_of_position_eq hlisted hentry hposition
  exact ⟨group, hgroup, (hgrouped.shared group hgroup other hmember).symm, hother⟩

/-- No more candidates with given main rides are kept than each group keeps. -/
theorem countP_cheapestOfSimilar_le {rides : Finset Ride} (hrides : rides ≠ ∅) :
    (cheapestOfSimilar ridesOf wanted candidates).countP (fun c => rideSet ridesOf c = rides) ≤
      keptPerGroup wanted (groupsBy ridesOf candidates).length := by
  let kept := candidates.zipIdx.filter fun entry =>
    (keptPositions wanted (groupsBy ridesOf candidates)).contains entry.2
  have hcount : (cheapestOfSimilar ridesOf wanted candidates).countP
      (fun c => rideSet ridesOf c = rides) =
        (kept.filter fun entry => rideSet ridesOf entry.1 = rides).length := by
    unfold cheapestOfSimilar
    rw [List.countP_map, List.countP_eq_length_filter]
    rfl
  rw [hcount]
  refine (grouped_groupsBy ridesOf candidates).length_le_of_taken hrides
    (((nodup_zipIdx candidates).filter _).filter _) fun entry hentry => ?_
  obtain ⟨hkept, hsame⟩ := List.mem_filter.1 hentry
  obtain ⟨hlisted, hposition⟩ := List.mem_filter.1 hkept
  have hfound := exists_of_mem_keptPositions hlisted (List.contains_iff_mem.1 hposition)
  rwa [of_decide_eq_true hsame] at hfound

/-- If no more candidates share their main rides than each group keeps, all are kept. -/
theorem cheapestOfSimilar_eq_self (hfew : ∀ rides : Finset Ride, rides ≠ ∅ →
      candidates.countP (fun c => rideSet ridesOf c = rides) ≤
        keptPerGroup wanted (groupsBy ridesOf candidates).length) :
    cheapestOfSimilar ridesOf wanted candidates = candidates := by
  have hgrouped := grouped_groupsBy ridesOf candidates
  have hsmall : ∀ group ∈ groupsBy ridesOf candidates, group.members.length ≤
      keptPerGroup wanted (groupsBy ridesOf candidates).length := by
    intro group hgroup
    by_cases hrides : group.rides = []
    · rw [hgrouped.alone group hgroup hrides]
      exact keptPerGroup_pos wanted _
    · refine (hgrouped.length_members_le hgroup).trans ?_
      have hcount := hfew group.rides.toFinset (by simpa using hrides)
      have hcandidates : candidates.zipIdx.map Prod.fst = candidates := List.zipIdx_map_fst 0 _
      rw [← hcandidates, List.countP_map] at hcount
      rwa [hcandidates] at hcount
  have hall : ∀ entry ∈ candidates.zipIdx,
      entry.2 ∈ keptPositions wanted (groupsBy ridesOf candidates) := by
    intro entry hentry
    obtain ⟨group, hgroup, hmember⟩ := hgrouped.exists_group hentry
    have hsorted := List.mergeSort_perm group.members fun a b => decide (a.1.cost ≤ b.1.cost)
    refine List.mem_flatMap.2 ⟨group, hgroup, List.mem_map_of_mem ?_⟩
    rw [Group.byCost, List.take_of_length_le (hsorted.length_eq ▸ hsmall group hgroup)]
    exact hsorted.mem_iff.2 hmember
  unfold cheapestOfSimilar
  dsimp only
  rw [List.filter_eq_self.2 fun entry hentry => List.contains_iff_mem.2 (hall entry hentry),
    List.zipIdx_map_fst]

end Kept

end JourneyPlanner.Selection
