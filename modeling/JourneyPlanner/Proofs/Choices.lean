import Mathlib.Data.List.Forall2

/-!
# Choices of one item from each list

To combine what several searches have found, one item is chosen from the findings of
each. The choices are listed in lexicographic order of the positions at which items
are chosen, and each choice of positions is listed once.
-/

namespace JourneyPlanner

variable {α β : Type}

/-- All choices of one item from each list. -/
def choices : List (List α) → List (List α)
  | [] => [[]]
  | items :: rest => items.flatMap fun item => (choices rest).map (item :: ·)

/-- A choice takes an item of each list. -/
theorem mem_choices_iff {lists : List (List α)} {choice : List α} :
    choice ∈ choices lists ↔ List.Forall₂ (fun items item => item ∈ items) lists choice := by
  induction lists generalizing choice with
  | nil => simp [choices]
  | cons items rest ih =>
    simp only [choices, List.mem_flatMap, List.mem_map, ih]
    constructor
    · rintro ⟨item, hitem, choice, hchoice, rfl⟩
      exact .cons hitem hchoice
    · intro h
      cases h with
      | cons hitem hchoice => exact ⟨_, hitem, _, hchoice, rfl⟩

/-- There are as many items in a choice as there are lists. -/
theorem length_of_mem_choices {lists : List (List α)} {choice : List α}
    (h : choice ∈ choices lists) : choice.length = lists.length :=
  (mem_choices_iff.1 h).length_eq.symm

/-- Choices of images are the images of choices. -/
theorem choices_map (f : α → β) (lists : List (List α)) :
    choices (lists.map (List.map f)) = (choices lists).map (List.map f) := by
  induction lists with
  | nil => rfl
  | cons items rest ih =>
    simp [choices, ih, List.map_flatMap, List.flatMap_map, Function.comp_def]

/-- With one more list each choice goes on with every item of it. -/
theorem choices_concat (lists : List (List α)) (items : List α) :
    choices (lists ++ [items]) =
      (choices lists).flatMap fun choice => items.map fun item => choice ++ [item] := by
  induction lists with
  | nil => simp [choices, List.map_eq_flatMap]
  | cons first rest ih =>
    simp [choices, ih, List.map_flatMap, List.flatMap_map, List.flatMap_assoc, Function.comp_def]

/-- From a single list each item is a choice. -/
theorem choices_singleton (items : List α) : choices [items] = items.map fun item => [item] := by
  simp [choices, List.map_eq_flatMap]

/-- If the keys of each list increase, the keys of the choices increase in lexicographic
order. -/
theorem pairwise_choices {key : α → Nat} {lists : List (List α)}
    (h : ∀ items ∈ lists, items.Pairwise fun a b => key a < key b) :
    (choices lists).Pairwise fun a b => a.map key < b.map key := by
  induction lists with
  | nil => exact List.pairwise_singleton _ _
  | cons items rest ih =>
    obtain ⟨hitems, hrest⟩ := List.forall_mem_cons.1 h
    rw [choices, List.pairwise_flatMap]
    constructor
    · intro item _
      rw [List.pairwise_map]
      refine (ih hrest).imp fun hlt => ?_
      exact List.cons_lt_cons_iff.2 (Or.inr ⟨rfl, hlt⟩)
    · refine hitems.imp fun hlt x hx y hy => ?_
      obtain ⟨x, -, rfl⟩ := List.mem_map.1 hx
      obtain ⟨y, -, rfl⟩ := List.mem_map.1 hy
      exact List.cons_lt_cons_iff.2 (Or.inl hlt)

/-- The choices from numbered lists are listed by increasing positions. -/
theorem pairwise_positions (lists : List (List α)) :
    (choices (lists.map fun items => items.zipIdx)).Pairwise fun a b =>
      a.map Prod.snd < b.map Prod.snd := by
  apply pairwise_choices
  intro items hitems
  obtain ⟨items, -, rfl⟩ := List.mem_map.1 hitems
  rw [← List.pairwise_map, List.zipIdx_map_snd]
  exact List.pairwise_lt_range'

/-- A choice from numbered lists takes each item at its position. -/
theorem mem_positions_iff {lists : List (List α)} {choice : List (α × Nat)} :
    choice ∈ choices (lists.map fun items => items.zipIdx) ↔
      List.Forall₂ (fun items entry => items[entry.2]? = some entry.1) lists choice := by
  rw [mem_choices_iff, List.forall₂_map_left_iff]
  simp only [List.mem_zipIdx_iff_getElem?]

/-- Without their positions the choices from numbered lists are those from the lists. -/
theorem map_positions (lists : List (List α)) :
    (choices (lists.map fun items => items.zipIdx)).map (List.map Prod.fst) = choices lists := by
  have hlists : (lists.map fun items => items.zipIdx).map (List.map Prod.fst) = lists := by
    simp [Function.comp_def, List.zipIdx_map_fst]
  rw [← choices_map, hlists]

end JourneyPlanner
