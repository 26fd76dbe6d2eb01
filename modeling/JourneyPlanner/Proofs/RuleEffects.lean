import Mathlib.Data.List.Nodup
import Mathlib.Data.List.TakeWhile
import JourneyPlanner.Selection.Chain

/-!
# What rules leave of a list

A rule that may drop candidates leaves the others as they are, in their order. The
only other rule sorts, and its order compares no more than three numbers, so that
sorting is stable and leaves a part of a list as if that part had been sorted alone.
-/

namespace JourneyPlanner.Selection

/-- The time by which itineraries are shown, turned around where the latest is first. -/
def showTime (arriveBy : Bool) (it : Itinerary) : Int :=
  if arriveBy then -it.start.rank else it.finish.rank

/-- The order of presentation compares the times itineraries are shown by, then costs, then
durations. -/
theorem compareForShow_eq (arriveBy : Bool) (a b : Itinerary) :
    a.compareForShow arriveBy b =
      ((compare (showTime arriveBy a) (showTime arriveBy b)).then
        (compare a.cost b.cost)).then (compare a.duration b.duration) := by
  cases arriveBy with
  | false => rfl
  | true =>
    have hneg : compare b.start.rank a.start.rank = compare (-a.start.rank) (-b.start.rank) := by
      rw [Int.compare_eq_ite_lt, Int.compare_eq_ite_lt]
      split_ifs <;> first | rfl | omega
    unfold Itinerary.compareForShow showTime
    exact congrArg (fun o => (Ordering.then o _).then _) hneg

/-- A candidate may be shown in front of another, unless it is later, dearer or longer, in
this order of importance. -/
theorem mayPrecede_iff {arriveBy : Bool} {a b : Candidate} :
    mayPrecede arriveBy a b = true ↔
      showTime arriveBy a.toItinerary < showTime arriveBy b.toItinerary ∨
        showTime arriveBy a.toItinerary = showTime arriveBy b.toItinerary ∧
          (a.cost < b.cost ∨ a.cost = b.cost ∧ a.duration ≤ b.duration) := by
  unfold mayPrecede
  rw [compareForShow_eq, bne_iff_ne, ne_eq]
  simp only [Ordering.then_eq_gt, Ordering.then_eq_eq, Int.compare_eq_gt, Int.compare_eq_eq]
  omega

/-- One of two candidates may be shown in front of the other. -/
theorem mayPrecede_total (arriveBy : Bool) (a b : Candidate) :
    (mayPrecede arriveBy a b || mayPrecede arriveBy b a) = true := by
  rw [Bool.or_eq_true, mayPrecede_iff, mayPrecede_iff]
  omega

/-- What may be shown in front of a candidate may be shown in front of all behind it. -/
theorem mayPrecede_trans (arriveBy : Bool) (a b c : Candidate) (hab : mayPrecede arriveBy a b)
    (hbc : mayPrecede arriveBy b c) : mayPrecede arriveBy a c = true := by
  rw [mayPrecede_iff] at *
  omega

section Sorting

variable {α : Type} {le : α → α → Bool}

/-- A list is cut in only one way into items with a property and items without it. -/
theorem append_inj_of_forall {q : α → Bool} {xs ys xs' ys' : List α}
    (h : xs ++ ys = xs' ++ ys') (hxs : ∀ x ∈ xs, q x) (hys : ∀ y ∈ ys, ¬q y)
    (hxs' : ∀ x ∈ xs', q x) (hys' : ∀ y ∈ ys', ¬q y) : xs = xs' ∧ ys = ys' := by
  have hfilter := congrArg (List.filter q) h
  rw [List.filter_append, List.filter_append, List.filter_eq_self.2 hxs,
    List.filter_eq_self.2 hxs', List.filter_eq_nil_iff.2 hys, List.filter_eq_nil_iff.2 hys',
    List.append_nil, List.append_nil] at hfilter
  subst hfilter
  exact ⟨rfl, List.append_cancel_left h⟩

/-- A stable sort puts the first item of a list behind those it may not precede, and in front
of all others, which it leaves as they are. -/
theorem exists_mergeSort_cons (htrans : ∀ a b c, le a b → le b c → le a c)
    (htotal : ∀ a b, (le a b || le b a) = true) (a : α) (items : List α) :
    ∃ front back, (a :: items).mergeSort le = front ++ a :: back ∧
      items.mergeSort le = front ++ back ∧ (∀ b ∈ front, !le a b) ∧ ∀ b ∈ back, ¬!le a b := by
  obtain ⟨front, back, hsorted, hrest, hfront⟩ := List.mergeSort_cons htrans htotal a items
  refine ⟨front, back, hsorted, hrest, hfront, ?_⟩
  intro b hb
  have hpairwise := List.pairwise_mergeSort htrans htotal (a :: items)
  rw [hsorted, List.pairwise_append] at hpairwise
  have hab : le a b := (List.pairwise_cons.1 hpairwise.2.1).1 b hb
  simp [hab]

/-- A stable sort leaves the part of a list with a property as if it had been sorted alone. -/
theorem filter_mergeSort (htrans : ∀ a b c, le a b → le b c → le a c)
    (htotal : ∀ a b, (le a b || le b a) = true) (p : α → Bool) (items : List α) :
    (items.mergeSort le).filter p = (items.filter p).mergeSort le := by
  induction items with
  | nil => simp
  | cons a items ih =>
    obtain ⟨front, back, hsorted, hrest, hfront, hback⟩ :=
      exists_mergeSort_cons htrans htotal a items
    rw [hrest, List.filter_append] at ih
    rw [hsorted, List.filter_append]
    by_cases ha : p a
    · obtain ⟨front', back', hsorted', hrest', hfront', hback'⟩ :=
        exists_mergeSort_cons htrans htotal a (items.filter p)
      rw [hrest'] at ih
      -- Both splits are at the place of `a`, so they are the same one.
      obtain ⟨hf, hb⟩ := append_inj_of_forall ih
        (fun b hb => hfront b (List.mem_of_mem_filter hb))
        (fun b hb => hback b (List.mem_of_mem_filter hb)) hfront' hback'
      rw [List.filter_cons_of_pos ha, List.filter_cons_of_pos ha, hsorted', hf, hb]
    · rw [List.filter_cons_of_neg ha, List.filter_cons_of_neg ha, ih]

end Sorting

/-- Sorting for show keeps all candidates. -/
theorem sortForShow_perm (arriveBy : Bool) (candidates : List Candidate) :
    (sortForShow arriveBy candidates).Perm candidates :=
  List.mergeSort_perm candidates _

/-- Sorting for show swaps two candidates of which the first may not precede the second. -/
theorem sortForShow_pair {arriveBy : Bool} {a b : Candidate}
    (h : mayPrecede arriveBy a b = false) : sortForShow arriveBy [a, b] = [b, a] := by
  simp [sortForShow, List.mergeSort, h]

/-- Sorting for show leaves the candidates with a property as if they had been sorted alone. -/
theorem filter_sortForShow (arriveBy : Bool) (p : Candidate → Bool)
    (candidates : List Candidate) :
    (sortForShow arriveBy candidates).filter p = sortForShow arriveBy (candidates.filter p) :=
  filter_mergeSort (mayPrecede_trans arriveBy) (mayPrecede_total arriveBy) p candidates

/-- Limiting the number of street-only candidates only drops candidates. -/
theorem takeStreetOnly_sublist (limit : Nat) (candidates : List Candidate) :
    (takeStreetOnly limit candidates).Sublist candidates := by
  fun_induction takeStreetOnly limit candidates with
  | case1 limit => exact .slnil
  | case2 c rest _ ih => exact ih.cons c
  | case3 c rest _ left ih => exact ih.cons_cons c
  | case4 limit c rest _ ih => exact ih.cons_cons c

/-- Keeping candidates within what the cheapest of some of them allows only drops candidates. -/
theorem lowestCost_filter_sublist (lowest : Option Int) (allowed : Int → Candidate → Bool)
    (candidates : List Candidate) :
    (match lowest with
      | none => candidates
      | some best => candidates.filter (allowed best)).Sublist candidates := by
  cases lowest with
  | none => exact List.Sublist.refl candidates
  | some best => exact List.filter_sublist

/-- Keeping the cheapest of similar candidates only drops candidates. -/
theorem cheapestOfSimilar_sublist (ridesOf : Candidate → List Ride) (wanted : Nat)
    (candidates : List Candidate) :
    (cheapestOfSimilar ridesOf wanted candidates).Sublist candidates := by
  have hkept : (cheapestOfSimilar ridesOf wanted candidates).Sublist
      (candidates.zipIdx.map Prod.fst) := List.filter_sublist.map Prod.fst
  rwa [List.zipIdx_map_fst] at hkept

namespace Rule

/-- A rule that may drop candidates leaves the others as they are, in their order. -/
theorem apply_sublist {rule : Rule} (hremoves : rule.removes = true)
    (candidates : List Candidate) : (rule.apply candidates).Sublist candidates := by
  cases rule with
  | sort arriveBy => cases hremoves
  | atMost label limit reports => exact List.take_sublist limit candidates
  | streetOnlyAtMost label limit => exact takeStreetOnly_sublist limit candidates
  | transitCost limit => exact lowestCost_filter_sublist _ _ candidates
  | streetOnlyCost limit => exact lowestCost_filter_sublist _ _ candidates
  | noDearerThanStreetOnly => exact lowestCost_filter_sublist _ _ candidates
  | cheapestOfSimilar share wanted => exact cheapestOfSimilar_sublist _ wanted candidates
  | departsBy | isShown | cyclesFurtherThan | leavesBicycle | arrivesOnDemand =>
    exact List.filter_sublist

/-- A rule that drops no candidates sorts them. -/
theorem eq_sort_of_not_removes {rule : Rule} (hremoves : rule.removes = false) :
    ∃ arriveBy, rule = .sort arriveBy := by
  cases rule with
  | sort arriveBy => exact ⟨arriveBy, rfl⟩
  | _ => cases hremoves

/-- No rule makes candidates of its own. -/
theorem mem_of_mem_apply {rule : Rule} {candidates : List Candidate} {c : Candidate}
    (hc : c ∈ rule.apply candidates) : c ∈ candidates := by
  by_cases hremoves : rule.removes = true
  · exact (apply_sublist hremoves candidates).subset hc
  · obtain ⟨arriveBy, rfl⟩ := eq_sort_of_not_removes (Bool.not_eq_true _ ▸ hremoves)
    exact (sortForShow_perm arriveBy candidates).mem_iff.1 hc

end Rule

/-- Whether a rule reports the first candidate it cuts off. -/
def Rule.reports : Rule → Bool
  | atMost _ _ reports => reports
  | _ => false

/-- Other rules report nothing. -/
theorem Rule.firstCut?_eq_none {rule : Rule} (hsilent : rule.reports = false)
    (candidates : List Candidate) : rule.firstCut? candidates = none := by
  cases rule with
  | atMost label limit reports =>
    cases reports
    · rfl
    · cases hsilent
  | _ => rfl

/-- Whatever steps drop or tag, each candidate behind a step is the itinerary of one before
it. -/
theorem Step.exists_of_mem_apply {step : Step} {candidates : List Candidate} {c : Candidate}
    (hc : c ∈ step.apply candidates) : ∃ d ∈ candidates, d.toItinerary = c.toItinerary := by
  unfold Step.apply at hc
  split at hc
  · obtain ⟨d, hd, rfl⟩ := List.mem_map.1 hc
    refine ⟨d, hd, ?_⟩
    split_ifs
    · rfl
    · rfl
  · exact ⟨c, Rule.mem_of_mem_apply hc, rfl⟩

/-- Each candidate behind a chain is the itinerary of one before it. -/
theorem Chain.exists_of_mem_run {chain : Chain} {candidates : List Candidate} {c : Candidate}
    (hc : c ∈ (chain.run candidates).candidates) :
    ∃ d ∈ candidates, d.toItinerary = c.toItinerary := by
  induction chain generalizing candidates with
  | nil => exact ⟨c, hc, rfl⟩
  | cons step rest ih =>
    obtain ⟨e, he, hec⟩ := ih hc
    obtain ⟨d, hd, hde⟩ := step.exists_of_mem_apply he
    exact ⟨d, hd, hde.trans hec⟩

end JourneyPlanner.Selection
