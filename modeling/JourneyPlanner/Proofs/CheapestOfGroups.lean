import JourneyPlanner.Proofs.RuleEffects
import JourneyPlanner.Proofs.SimilarGroups
import Mathlib.Algebra.Order.Floor.Div

/-!
# The cheapest of each group

Of similar candidates the cheapest few are kept. Read from the list alone, without its groups
and their order: two entries belong together if they have the same main rides, one entry comes
before another if it is cheaper, or as cheap and in front of it, and an entry is kept exactly
if fewer entries of its group come before it than each group keeps. The members of a group
stand in the order of the list, and a stable sort by cost then leaves them in this order.
-/

namespace JourneyPlanner.Selection

section Lists

variable {α : Type}

/-- A stable sort leaves two items of which each may stand in front of the other as they
stood. -/
theorem pairwise_mergeSort_stable {le : α → α → Bool}
    (htrans : ∀ a b c, le a b → le b c → le a c) (htotal : ∀ a b, (le a b || le b a) = true)
    {r : α → α → Prop} {items : List α} (hitems : items.Pairwise r) :
    (items.mergeSort le).Pairwise fun a b => le a b = true ∧ (le b a = true → r a b) := by
  induction items with
  | nil => simp
  | cons a items ih =>
    obtain ⟨ha, hitems⟩ := List.pairwise_cons.1 hitems
    obtain ⟨front, back, hsorted, hrest, hfront, hback⟩ :=
      exists_mergeSort_cons htrans htotal a items
    have hpairs := ih hitems
    rw [hrest, List.pairwise_append] at hpairs
    obtain ⟨hfronts, hbacks, hacross⟩ := hpairs
    rw [hsorted, List.pairwise_append, List.pairwise_cons]
    refine ⟨hfronts, ⟨fun b hb => ?_, hbacks⟩, fun b hb c hc => ?_⟩
    · have hlisted : b ∈ items := by
        rw [← (List.mergeSort_perm items le).mem_iff, hrest]
        exact List.mem_append_right front hb
      exact ⟨by simpa using hback b hb, fun _ => ha b hlisted⟩
    · rcases List.mem_cons.1 hc with rfl | hc
      · -- What stands in front of the first item must do so.
        have hnot : le c b = false := by simpa using hfront b hb
        have hle : le b c = true := by simpa [hnot] using htotal b c
        exact ⟨hle, fun hback => absurd hback (by rw [hnot]; decide)⟩
      · exact hacross b hb c hc

section Ordered

variable {before : α → α → Prop} [DecidableRel before] {items : List α}

/-- The items at the front of an ordered list are those that few items come before. -/
theorem mem_take_iff_countP (hasymm : ∀ a b, before a b → ¬before b a)
    (hordered : items.Pairwise before) {a : α} (ha : a ∈ items) (limit : Nat) :
    a ∈ items.take limit ↔ items.countP (fun b => before b a) < limit := by
  obtain ⟨front, back, rfl⟩ := List.append_of_mem ha
  rw [List.pairwise_append, List.pairwise_cons] at hordered
  obtain ⟨-, ⟨hback, -⟩, hfront⟩ := hordered
  have hirrefl : ¬before a a := fun h => hasymm a a h h
  have hless : front.countP (fun b => before b a) = front.length :=
    List.countP_eq_length.2 fun b hb => decide_eq_true (hfront b hb a (by simp))
  have hmore : (a :: back).countP (fun b => before b a) = 0 := by
    refine List.countP_eq_zero.2 fun b hb hbefore => ?_
    rcases List.mem_cons.1 hb with rfl | hb
    · exact hirrefl (of_decide_eq_true hbefore)
    · exact hasymm a b (hback b hb) (of_decide_eq_true hbefore)
  have hfresh : a ∉ front := fun hmem => hirrefl (hfront a hmem a (by simp))
  rw [List.countP_append, hless, hmore, Nat.add_zero, List.take_append, List.mem_append]
  constructor
  · rintro (hmem | hmem)
    · exact absurd (List.mem_of_mem_take hmem) hfresh
    · by_contra hlong
      rw [Nat.sub_eq_zero_of_le (Nat.le_of_not_lt hlong), List.take_zero] at hmem
      cases hmem
  · intro hshort
    obtain ⟨left, hleft⟩ := Nat.exists_eq_succ_of_ne_zero (Nat.sub_ne_zero_of_lt hshort)
    right
    rw [hleft, List.take_succ_cons]
    exact List.mem_cons_self

/-- As many items of an ordered list have fewer than a number of items before them. -/
theorem countP_countP_lt (hasymm : ∀ a b, before a b → ¬before b a)
    (hordered : items.Pairwise before) (limit : Nat) :
    items.countP (fun a => items.countP (fun b => before b a) < limit) =
      min limit items.length := by
  have hnodup : items.Nodup := by
    refine List.nodup_iff_pairwise_ne.2 (hordered.imp fun {a b} h => ?_)
    rintro rfl
    exact hasymm a a h h
  have hsplit : ∀ p : α → Bool, items.countP p =
      (items.take limit).countP p + (items.drop limit).countP p := by
    intro p
    rw [← List.countP_append, List.take_append_drop]
  have htake : (items.take limit).countP
      (fun a => items.countP (fun b => before b a) < limit) = (items.take limit).length := by
    refine List.countP_eq_length.2 fun a ha => decide_eq_true ?_
    exact (mem_take_iff_countP hasymm hordered (List.mem_of_mem_take ha) limit).1 ha
  have hdrop : (items.drop limit).countP
      (fun a => items.countP (fun b => before b a) < limit) = 0 := by
    refine List.countP_eq_zero.2 fun a ha hfew => ?_
    have hlisted : a ∈ items := List.mem_of_mem_drop ha
    have hfront := (mem_take_iff_countP hasymm hordered hlisted limit).2 (of_decide_eq_true hfew)
    exact List.disjoint_take_drop hnodup (Nat.le_refl limit) hfront ha
  rw [hsplit, htake, hdrop, List.length_take, Nat.add_zero]

end Ordered

end Lists

/-! ### Entries that belong together -/

section Together

variable (ridesOf : Candidate → List Ride)

/-- Two entries of a list belong together: they have the same main rides, or are one entry
without any. -/
def Together (a b : Candidate × Nat) : Prop :=
  rideSet ridesOf a.1 = rideSet ridesOf b.1 ∧ (rideSet ridesOf a.1 = ∅ → a.2 = b.2)

instance : DecidableRel (Together ridesOf) :=
  fun _ _ => inferInstanceAs (Decidable (_ ∧ (_ → _)))

/-- One entry comes before another: it is cheaper, or as cheap and stands in front of it. -/
def ComesBefore (a b : Candidate × Nat) : Prop :=
  a.1.cost < b.1.cost ∨ a.1.cost = b.1.cost ∧ a.2 < b.2

instance : DecidableRel ComesBefore :=
  fun _ _ => inferInstanceAs (Decidable (_ ∨ _ ∧ _))

/-- The entries of a list that belong together with one of them. -/
def groupOf (candidates : List Candidate) (entry : Candidate × Nat) : List (Candidate × Nat) :=
  candidates.zipIdx.filter fun other => Together ridesOf other entry

/-- The number of groups in a list: one for each candidate without main rides, and one for each
set of main rides. -/
def groupCount (candidates : List Candidate) : Nat :=
  candidates.countP (fun c => rideSet ridesOf c = ∅) +
    ((candidates.map (rideSet ridesOf)).toFinset.erase ∅).card

/-- How many entries each of some groups keeps, so that about `wanted` are kept in all. -/
def keptOfEach (wanted groups : Nat) : Nat :=
  if wanted ≤ groups then 1 else wanted ⌈/⌉ groups

/-- The entries of a list that fewer entries of their group come before than each group
keeps. -/
def cheapestEntries (wanted : Nat) (candidates : List Candidate) : List (Candidate × Nat) :=
  candidates.zipIdx.filter fun entry =>
    (groupOf ridesOf candidates entry).countP (fun other => ComesBefore other entry) <
      keptOfEach wanted (groupCount ridesOf candidates)

variable {ridesOf} {a b c : Candidate × Nat} {candidates : List Candidate} {wanted : Nat}

theorem Together.refl (a : Candidate × Nat) : Together ridesOf a a :=
  ⟨rfl, fun _ => rfl⟩

theorem Together.symm (h : Together ridesOf a b) : Together ridesOf b a :=
  ⟨h.1.symm, fun hnone => (h.2 (h.1.trans hnone)).symm⟩

theorem Together.trans (hab : Together ridesOf a b) (hbc : Together ridesOf b c) :
    Together ridesOf a c :=
  ⟨hab.1.trans hbc.1, fun hnone => (hab.2 hnone).trans (hbc.2 (hab.1.symm.trans hnone))⟩

theorem ComesBefore.asymm (h : ComesBefore a b) : ¬ComesBefore b a := by
  unfold ComesBefore at *
  omega

/-- An entry is in its group. -/
theorem mem_groupOf_self (ha : a ∈ candidates.zipIdx) : a ∈ groupOf ridesOf candidates a :=
  List.mem_filter.2 ⟨ha, decide_eq_true (Together.refl a)⟩

/-- Entries that belong together have one group. -/
theorem groupOf_eq (h : Together ridesOf a b) :
    groupOf ridesOf candidates a = groupOf ridesOf candidates b := by
  refine List.filter_congr fun other _ => ?_
  rw [decide_eq_decide]
  exact ⟨fun ha => ha.trans h, fun hb => hb.trans h.symm⟩

/-- Each group of a list that is not empty keeps its part rounded up. -/
theorem keptPerGroup_groupsBy (ridesOf : Candidate → List Ride) (wanted : Nat)
    (ha : a ∈ candidates.zipIdx) :
    keptPerGroup wanted (groupsBy ridesOf candidates).length =
      keptOfEach wanted (groupCount ridesOf candidates) := by
  obtain ⟨group, hgroup, -⟩ := (grouped_groupsBy ridesOf candidates).exists_group ha
  have hpos := List.length_pos_of_mem hgroup
  have hcount : (groupsBy ridesOf candidates).length = groupCount ridesOf candidates :=
    length_groupsBy ridesOf candidates
  rw [hcount] at hpos ⊢
  unfold keptPerGroup keptOfEach
  rw [Nat.ceilDiv_eq_add_pred_div]
  split_ifs <;> first | rfl | omega

/-! ### The groups as they are met -/

/-- The members of groups are entries in their order, also with one more entry. -/
theorem members_sublist_insert {entries : List (Candidate × Nat)} {groups : List Group}
    (h : ∀ group ∈ groups, group.members.Sublist entries) (rides : List Ride)
    (entry : Candidate × Nat) :
    ∀ group ∈ insertIntoGroups rides entry groups, group.members.Sublist (entries ++ [entry]) := by
  have hlonger : ∀ group ∈ groups, group.members.Sublist (entries ++ [entry]) :=
    fun group hgroup => (h group hgroup).trans (List.sublist_append_left entries [entry])
  rcases insertIntoGroups_cases rides entry groups with
    ⟨front, group, back, rfl, -, -, hinsert⟩ | ⟨-, hinsert⟩
  · rw [hinsert]
    rw [List.forall_mem_append, List.forall_mem_cons] at hlonger ⊢
    exact ⟨hlonger.1, (h group (by simp)).append (List.Sublist.refl [entry]), hlonger.2.2⟩
  · rw [hinsert, List.forall_mem_append, List.forall_mem_singleton]
    exact ⟨hlonger, List.sublist_append_right entries [entry]⟩

/-- The members of each group stand in the order of the list. -/
theorem members_sublist {group : Group} (hgroup : group ∈ groupsBy ridesOf candidates) :
    group.members.Sublist candidates.zipIdx := by
  have hfold : ∀ (more entries : List (Candidate × Nat)) (groups : List Group),
      (∀ group ∈ groups, group.members.Sublist entries) →
      ∀ group ∈ more.foldl (fun groups entry => insertIntoGroups (ridesOf entry.1) entry groups)
        groups, group.members.Sublist (entries ++ more) := by
    intro more
    induction more with
    | nil => simp
    | cons entry more ih =>
      intro entries groups h
      simpa using ih (entries ++ [entry]) _ (members_sublist_insert h (ridesOf entry.1) entry)
  exact hfold candidates.zipIdx [] [] (by simp) group hgroup

/-- The group that an entry is a member of is its group in the list. -/
theorem members_eq_groupOf {group : Group} (hgroup : group ∈ groupsBy ridesOf candidates)
    {entry : Candidate × Nat} (hentry : entry ∈ group.members) :
    group.members = groupOf ridesOf candidates entry := by
  have hgrouped := grouped_groupsBy ridesOf candidates
  have hsublist := members_sublist hgroup
  have hlisted : entry ∈ candidates.zipIdx := hsublist.subset hentry
  have hrides := hgrouped.shared group hgroup entry hentry
  have hmem : ∀ other, other ∈ group.members ↔
      other ∈ candidates.zipIdx ∧ Together ridesOf other entry := by
    intro other
    constructor
    · intro hother
      have hsame := (hgrouped.shared group hgroup other hother).trans hrides.symm
      refine ⟨hsublist.subset hother, hsame, fun hnone => ?_⟩
      -- A group without rides has no second member.
      rw [hgrouped.shared group hgroup other hother, List.toFinset_eq_empty_iff] at hnone
      obtain ⟨only, honly⟩ := List.length_eq_one_iff.1 (hgrouped.alone group hgroup hnone)
      rw [honly, List.mem_singleton] at hother hentry
      rw [hother, hentry]
    · rintro ⟨hother, hsame, hposition⟩
      obtain ⟨found, hfound, hmember⟩ := hgrouped.exists_group hother
      by_cases hnone : rideSet ridesOf other.1 = ∅
      · rwa [eq_of_position_eq hother hlisted (hposition hnone)]
      · have hfoundRides := hgrouped.shared found hfound other hmember
        rw [hgrouped.eq_of_rides_eq hgroup hfound
          (hrides.symm.trans (hsame.symm.trans hfoundRides)) ?_]
        · exact hmember
        · rintro hnil
          rw [hsame, hrides, hnil] at hnone
          exact hnone rfl
  have hpositions : ∀ items : List (Candidate × Nat), items.Sublist candidates.zipIdx →
      items.Pairwise fun a b => a.2 < b.2 :=
    fun items hitems => (pairwise_zipIdx_lt candidates).sublist hitems
  have hgroupOf : (groupOf ridesOf candidates entry).Sublist candidates.zipIdx :=
    List.filter_sublist
  refine List.Perm.eq_of_pairwise (fun a b _ _ hab hba => absurd hab (Nat.lt_asymm hba))
    (hpositions _ hsublist) (hpositions _ hgroupOf) ?_
  refine (List.perm_ext_iff_of_nodup ((nodup_zipIdx candidates).sublist hsublist)
    ((nodup_zipIdx candidates).sublist hgroupOf)).2 fun other => ?_
  rw [hmem, groupOf, List.mem_filter, decide_eq_true_iff]

/-- By cost, the members of a group stand in the order in which they come before each other. -/
theorem pairwise_byCost {group : Group} (hgroup : group ∈ groupsBy ridesOf candidates) :
    group.byCost.Pairwise ComesBefore := by
  have hpositions : group.members.Pairwise fun a b => a.2 < b.2 :=
    (pairwise_zipIdx_lt candidates).sublist (members_sublist hgroup)
  have hstable : group.byCost.Pairwise fun a b => decide (a.1.cost ≤ b.1.cost) = true ∧
      (decide (b.1.cost ≤ a.1.cost) = true → a.2 < b.2) := by
    refine pairwise_mergeSort_stable (fun a b c hab hbc => ?_) (fun a b => ?_) hpositions
    · rw [decide_eq_true_eq] at hab hbc ⊢
      omega
    · rw [Bool.or_eq_true, decide_eq_true_eq, decide_eq_true_eq]
      omega
  refine hstable.imp fun {a b} ⟨hle, hequal⟩ => ?_
  rw [decide_eq_true_eq] at hle hequal
  unfold ComesBefore
  by_cases hless : a.1.cost < b.1.cost
  · exact Or.inl hless
  · exact Or.inr ⟨by omega, hequal (by omega)⟩

/-- The position of an entry is kept exactly if few entries of its group come before it. -/
theorem mem_keptPositions_iff {entry : Candidate × Nat} (hentry : entry ∈ candidates.zipIdx) :
    entry.2 ∈ keptPositions wanted (groupsBy ridesOf candidates) ↔
      (groupOf ridesOf candidates entry).countP (fun other => ComesBefore other entry) <
        keptOfEach wanted (groupCount ridesOf candidates) := by
  have hgrouped := grouped_groupsBy ridesOf candidates
  obtain ⟨group, hgroup, hmember⟩ := hgrouped.exists_group hentry
  have hmembers := members_eq_groupOf hgroup hmember
  have hbyCost : group.byCost.Perm group.members := List.mergeSort_perm _ _
  have hcheap : entry ∈ group.byCost.take (keptOfEach wanted (groupCount ridesOf candidates)) ↔
      (groupOf ridesOf candidates entry).countP (fun other => ComesBefore other entry) <
        keptOfEach wanted (groupCount ridesOf candidates) := by
    rw [mem_take_iff_countP (fun _ _ => ComesBefore.asymm) (pairwise_byCost hgroup)
      (hbyCost.mem_iff.2 hmember), hbyCost.countP_eq, hmembers]
  rw [← hcheap, ← keptPerGroup_groupsBy ridesOf wanted hentry]
  constructor
  · intro hkept
    obtain ⟨found, hfound, -, htaken⟩ := exists_of_mem_keptPositions hentry hkept
    have hother : entry ∈ found.members :=
      (List.mergeSort_perm found.members _).mem_iff.1 (List.mem_of_mem_take htaken)
    have hsame : found.members = group.members :=
      (members_eq_groupOf hfound hother).trans hmembers.symm
    rwa [Group.byCost, hsame] at htaken
  · exact fun htaken => List.mem_flatMap.2 ⟨group, hgroup, List.mem_map_of_mem htaken⟩

/-- What is kept of similar candidates are the cheapest entries of each group, in their
order. -/
theorem cheapestOfSimilar_eq_cheapestEntries (ridesOf : Candidate → List Ride) (wanted : Nat)
    (candidates : List Candidate) :
    cheapestOfSimilar ridesOf wanted candidates =
      (cheapestEntries ridesOf wanted candidates).map Prod.fst := by
  unfold cheapestOfSimilar cheapestEntries
  dsimp only
  refine congrArg (List.map Prod.fst) (List.filter_congr fun entry hentry => ?_)
  rw [Bool.eq_iff_iff, List.contains_iff_mem, mem_keptPositions_iff hentry, decide_eq_true_iff]

/-! ### What is left of a group -/

/-- An entry is kept exactly if few entries of its group come before it. -/
theorem mem_cheapestEntries_iff {entry : Candidate × Nat} :
    entry ∈ cheapestEntries ridesOf wanted candidates ↔ entry ∈ candidates.zipIdx ∧
      (groupOf ridesOf candidates entry).countP (fun other => ComesBefore other entry) <
        keptOfEach wanted (groupCount ridesOf candidates) := by
  rw [cheapestEntries, List.mem_filter, decide_eq_true_iff]

/-- A group can be put in the order in which its entries come before each other. -/
theorem exists_ordered (ridesOf : Candidate → List Ride) {entry : Candidate × Nat}
    (hentry : entry ∈ candidates.zipIdx) :
    ∃ ordered : List (Candidate × Nat), ordered.Perm (groupOf ridesOf candidates entry) ∧
      ordered.Pairwise ComesBefore := by
  obtain ⟨group, hgroup, hmember⟩ := (grouped_groupsBy ridesOf candidates).exists_group hentry
  refine ⟨group.byCost, ?_, pairwise_byCost hgroup⟩
  rw [← members_eq_groupOf hgroup hmember]
  exact List.mergeSort_perm _ _

/-- Each group of a list keeps one entry at least. -/
theorem keptOfEach_pos {entry : Candidate × Nat} (hentry : entry ∈ candidates.zipIdx) :
    0 < keptOfEach wanted (groupCount ridesOf candidates) := by
  rw [← keptPerGroup_groupsBy ridesOf wanted hentry]
  exact keptPerGroup_pos wanted _

/-- Of each group as many entries are kept as each group keeps, or all if there are fewer. -/
theorem countP_cheapestEntries {entry : Candidate × Nat} (hentry : entry ∈ candidates.zipIdx) :
    (cheapestEntries ridesOf wanted candidates).countP (fun other => Together ridesOf other entry) =
      min (keptOfEach wanted (groupCount ridesOf candidates))
        (groupOf ridesOf candidates entry).length := by
  obtain ⟨ordered, hperm, hordered⟩ := exists_ordered ridesOf hentry
  rw [← hperm.length_eq, ← countP_countP_lt (fun _ _ => ComesBefore.asymm) hordered,
    hperm.countP_eq, groupOf, List.countP_filter, cheapestEntries, List.countP_filter]
  refine List.countP_congr fun other _ => ?_
  rw [Bool.and_eq_true, Bool.and_eq_true, and_comm, decide_eq_true_iff, decide_eq_true_iff,
    decide_eq_true_iff]
  refine and_congr_left fun htogether => ?_
  rw [groupOf_eq htogether, hperm.countP_eq]

/-- The entry of a group that comes before all others is kept. -/
theorem exists_first (ridesOf : Candidate → List Ride) (wanted : Nat)
    {entry : Candidate × Nat} (hentry : entry ∈ candidates.zipIdx) :
    ∃ first ∈ groupOf ridesOf candidates entry,
      first ∈ cheapestEntries ridesOf wanted candidates ∧
        ∀ other ∈ groupOf ridesOf candidates entry, ¬ComesBefore other first := by
  obtain ⟨ordered, hperm, hordered⟩ := exists_ordered ridesOf hentry
  have hself : entry ∈ ordered := hperm.mem_iff.2 (mem_groupOf_self hentry)
  obtain ⟨first, rest, rfl⟩ := List.exists_cons_of_ne_nil (List.ne_nil_of_mem hself)
  have hfirst : first ∈ groupOf ridesOf candidates entry := hperm.mem_iff.1 (by simp)
  have hleast : ∀ other ∈ groupOf ridesOf candidates entry, ¬ComesBefore other first := by
    intro other hother hbefore
    rcases List.mem_cons.1 (hperm.mem_iff.2 hother) with rfl | hrest
    · exact hbefore.asymm hbefore
    · exact hbefore.asymm ((List.pairwise_cons.1 hordered).1 other hrest)
  have htogether : Together ridesOf first entry := of_decide_eq_true (List.mem_filter.1 hfirst).2
  refine ⟨first, hfirst, mem_cheapestEntries_iff.2 ⟨List.mem_of_mem_filter hfirst, ?_⟩, hleast⟩
  have hnone : (groupOf ridesOf candidates first).countP
      (fun other => ComesBefore other first) = 0 := by
    refine List.countP_eq_zero.2 fun other hother => ?_
    rw [groupOf_eq htogether] at hother
    simpa using hleast other hother
  rw [hnone]
  exact keptOfEach_pos hentry

/-- An entry without main rides is kept. -/
theorem mem_cheapestEntries_of_rides_eq_nil {entry : Candidate × Nat}
    (hentry : entry ∈ candidates.zipIdx) (hnone : ridesOf entry.1 = []) :
    entry ∈ cheapestEntries ridesOf wanted candidates := by
  obtain ⟨first, hfirst, hkept, -⟩ := exists_first ridesOf wanted hentry
  obtain ⟨hlisted, htogether⟩ := List.mem_filter.1 hfirst
  obtain ⟨hsame, hposition⟩ := of_decide_eq_true htogether
  have hempty : rideSet ridesOf first.1 = ∅ := by rw [hsame, rideSet, hnone, List.toFinset_nil]
  rwa [eq_of_position_eq hlisted hentry (hposition hempty)] at hkept

end Together

/-! ### Main rides -/

section MainRides

variable {α : Type} [Quantity α]

/-- Of some legs at least one is taken. -/
theorem takeCovering_eq_nil_iff {length : Leg → α} {goal covered : α} {legs : List Leg} :
    takeCovering length goal covered legs = [] ↔ legs = [] := by
  cases legs <;> simp [takeCovering]

/-- An itinerary has no main rides exactly if it stays on the street. -/
theorem mainRides_eq_nil_iff {distance : Leg → α} {share : α} {it : Itinerary} :
    mainRides distance share it = [] ↔ it.isStreetOnly = true := by
  unfold mainRides Itinerary.isStreetOnly Itinerary.transitLegs
  dsimp only
  rw [List.map_eq_nil_iff, takeCovering_eq_nil_iff, ← List.length_eq_zero_iff,
    List.length_mergeSort, List.length_eq_zero_iff]
  simp

end MainRides

/-- The main rides of a candidate by distance, which cover a share of it. -/
def ridesAt (share : Float) (c : Candidate) : List Ride :=
  mainRides Leg.distance share c.toItinerary

/-- The rule that keeps the cheapest of similar candidates leaves the part of the list in which
an entry is kept exactly if fewer entries of its group come before it, by cost and then
position, than each group keeps. So each group keeps that many entries, or all of fewer, and
among them the first of them; and what stays on the street is kept. -/
theorem Rule.keeps_cheapest_of_groups (share : Float) (wanted : Nat)
    (candidates : List Candidate) :
    (Rule.cheapestOfSimilar share wanted).apply candidates =
        (candidates.zipIdx.filter fun entry =>
          (groupOf (ridesAt share) candidates entry).countP (ComesBefore · entry) <
            keptOfEach wanted (groupCount (ridesAt share) candidates)).map Prod.fst ∧
      ∀ entry ∈ candidates.zipIdx,
        (cheapestEntries (ridesAt share) wanted candidates).countP
            (Together (ridesAt share) · entry) =
          min (keptOfEach wanted (groupCount (ridesAt share) candidates))
            (groupOf (ridesAt share) candidates entry).length ∧
        (∃ first ∈ groupOf (ridesAt share) candidates entry,
          first ∈ cheapestEntries (ridesAt share) wanted candidates ∧
            ∀ other ∈ groupOf (ridesAt share) candidates entry, ¬ComesBefore other first) ∧
        (entry.1.isStreetOnly = true →
          entry ∈ cheapestEntries (ridesAt share) wanted candidates) := by
  refine ⟨cheapestOfSimilar_eq_cheapestEntries (ridesAt share) wanted candidates,
    fun entry hentry => ⟨countP_cheapestEntries hentry, exists_first _ _ hentry, fun hstreet => ?_⟩⟩
  exact mem_cheapestEntries_of_rides_eq_nil hentry (mainRides_eq_nil_iff.2 hstreet)

end JourneyPlanner.Selection
