import Mathlib.Data.List.Chain
import Mathlib.Data.List.Forall2

/-!
# Linked lists of items

What is composed of parts is described twice: by the parts, and by what stands
between each part and the next, a wait or a place to change at. The relation here
reads both lists together. It can be extended at the far end, as a journey is when it
grows, and reversed, as it is when it grows against the order of travel.
-/

namespace JourneyPlanner

variable {α β : Type}

/-- What is first in a list corresponds to what is first in a list related item by item. -/
theorem head?_of_forall₂ {R : α → β → Prop} {xs : List α} {ys : List β} {x : α}
    (h : List.Forall₂ R xs ys) (hx : xs.head? = some x) : ∃ y, ys.head? = some y ∧ R x y := by
  cases h with
  | nil => cases hx
  | cons hR _ =>
    cases hx
    exact ⟨_, rfl, hR⟩

/-- What is last in a list corresponds to what is last in a list related item by item. -/
theorem getLast?_of_forall₂ {R : α → β → Prop} {xs : List α} {ys : List β} {x : α}
    (h : List.Forall₂ R xs ys) (hx : xs.getLast? = some x) :
    ∃ y, ys.getLast? = some y ∧ R x y := by
  rw [List.getLast?_eq_head?_reverse] at *
  exact head?_of_forall₂ (List.forall₂_reverse_iff.2 h) hx

/-- Every item of a list related item by item to another comes from one of the other's. -/
theorem exists_of_forall₂ {R : α → β → Prop} {xs : List α} {ys : List β}
    (h : List.Forall₂ R xs ys) {y : β} (hy : y ∈ ys) : ∃ x ∈ xs, R x y := by
  induction h with
  | nil => cases hy
  | cons hR _ ih =>
    rcases List.mem_cons.1 hy with rfl | hy
    · exact ⟨_, by simp, hR⟩
    · obtain ⟨x, hx, hxy⟩ := ih hy
      exact ⟨x, List.mem_cons_of_mem _ hx, hxy⟩

/-- Each item is related to the next one under the label that stands between the two. -/
inductive Linked (R : β → α → α → Prop) : List β → List α → Prop
  | single (a : α) : Linked R [] [a]
  | cons {b : β} {a a' : α} {labels : List β} {items : List α} :
      R b a a' → Linked R labels (a' :: items) → Linked R (b :: labels) (a :: a' :: items)

namespace Linked

variable {R : β → α → α → Prop} {labels : List β} {items : List α}

/-- There is one label fewer than items. -/
theorem length_eq (h : Linked R labels items) : labels.length + 1 = items.length := by
  induction h with
  | single a => rfl
  | cons _ _ ih => simpa using ih

/-- Linked items grow at their end. -/
theorem concat {b : β} {a a' : α} (h : Linked R labels (items ++ [a])) (hR : R b a a') :
    Linked R (labels ++ [b]) (items ++ [a, a']) := by
  induction items generalizing labels with
  | nil =>
    cases h with
    | single => exact .cons hR (.single a')
  | cons x items ih =>
    cases items with
    | nil =>
      cases h with
      | cons hx hrest => exact .cons hx (ih hrest)
    | cons y items =>
      cases h with
      | cons hx hrest => exact .cons hx (ih hrest)

/-- Read from the far end, linked items are linked the other way round. -/
theorem reverse (h : Linked R labels items) :
    Linked (fun b x y => R b y x) labels.reverse items.reverse := by
  induction h with
  | single a => exact .single a
  | @cons b a a' labels items hR _ ih =>
    have hrest : Linked (fun b x y => R b y x) labels.reverse (items.reverse ++ [a']) := by
      simpa only [List.reverse_cons] using ih
    simpa using hrest.concat hR

/-- Two readings of as many items, with labels and items that correspond, combine into one. -/
theorem combine {γ δ : Type} {S : γ → δ → δ → Prop} {T : γ → α → α → Prop} {U : γ → β → Prop}
    {V : δ → α → Prop} {labels' : List γ} {items' : List δ} (h : Linked R labels items)
    (h' : Linked S labels' items') (hlabels : List.Forall₂ U labels' labels)
    (hitems : List.Forall₂ V items' items)
    (hT : ∀ {c b x x' y y'}, U c b → V x' x → V y' y → R b x y → S c x' y' → T c x y) :
    Linked T labels' items := by
  induction h generalizing labels' items' with
  | single a =>
    cases hlabels
    exact .single a
  | cons hR _ ih =>
    cases hlabels with
    | cons hb hlabels =>
      cases hitems with
      | cons ha hitems =>
        cases h' with
        | cons hS hrest' =>
          have hmore := hitems
          cases hitems with
          | cons ha' _ => exact .cons (hT hb ha ha' hR hS) (ih hrest' hlabels hmore)

/-- Linked items that are replaced one by one stay linked, if each link allows it. -/
theorem map_items {R' : β → α → α → Prop} {V : α → α → Prop} {items' : List α}
    (h : Linked R labels items) (hitems : List.Forall₂ V items items')
    (hR : ∀ {b x x' y y'}, V x x' → V y y' → R b x y → R' b x' y') :
    Linked R' labels items' := by
  induction h generalizing items' with
  | single a =>
    obtain ⟨a', _, -, hnil, rfl⟩ := List.forall₂_cons_left_iff.1 hitems
    cases hnil
    exact .single a'
  | cons hab _ ih =>
    cases hitems with
    | cons ha hitems =>
      have hmore := hitems
      cases hitems with
      | cons ha' _ => exact .cons (hR ha ha' hab) (ih hmore)

/-- Linked items stay linked under what each of their links implies. -/
theorem imp {S : β → α → α → Prop} (h : Linked R labels items)
    (hS : ∀ {b x y}, R b x y → S b x y) : Linked S labels items := by
  induction h with
  | single a => exact .single a
  | cons hR _ ih => exact .cons (hS hR) ih

/-- Neighbouring items are related under the label at their place. -/
theorem of_getElem? (h : Linked R labels items) {index : Nat} {b : β} {x y : α}
    (hb : labels[index]? = some b) (hx : items[index]? = some x)
    (hy : items[index + 1]? = some y) : R b x y := by
  induction h generalizing index with
  | single => simp at hb
  | cons hR _ ih =>
    cases index with
    | zero =>
      cases hb
      cases hx
      cases hy
      exact hR
    | succ index => exact ih hb hx hy

/-- Items are a chain for any relation that each link with one of the labels implies. -/
theorem isChain {S : α → α → Prop} (h : Linked R labels items)
    (hS : ∀ b ∈ labels, ∀ x ∈ items, ∀ y ∈ items, R b x y → S x y) : items.IsChain S := by
  induction h with
  | single a => exact .singleton a
  | cons hR _ ih =>
    refine .cons_cons (hS _ (by simp) _ (by simp) _ (by simp) hR) (ih ?_)
    intro b hb x hx y hy
    exact hS b (List.mem_cons_of_mem _ hb) x (List.mem_cons_of_mem _ hx) y
      (List.mem_cons_of_mem _ hy)

end Linked

end JourneyPlanner
