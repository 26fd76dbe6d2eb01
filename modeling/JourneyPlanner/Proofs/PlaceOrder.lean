import JourneyPlanner.Proofs.FiniteFloats

/-!
# The order of places

Places are ordered by stop, then by position, and an absent one comes last. Two places that
are equal in this order have the same stop and the same position, so they are the same
location unless they have neither.
-/

namespace JourneyPlanner

open Std (TransCmp OrientedCmp ReflCmp LawfulEqCmp)

/-- Values are in order if parts of them are compared in order. -/
theorem transCmp_comap {α β : Type} (part : β → α) (cmp : α → α → Ordering) [TransCmp cmp] :
    TransCmp fun a b => cmp (part a) (part b) where
  eq_swap {a b} := @OrientedCmp.eq_swap _ cmp _ (part a) (part b)
  isLE_trans {a b c} := @TransCmp.isLE_trans _ cmp _ (part a) (part b) (part c)

/-! ### Absent values come last -/

section AbsentLast

variable {α : Type} {cmp : α → α → Ordering}

instance [TransCmp cmp] : TransCmp (compareAbsentLast cmp) where
  eq_swap {a b} := by
    cases a <;> cases b
    case some.some a b => exact @OrientedCmp.eq_swap _ cmp _ a b
    all_goals rfl
  isLE_trans {a b c} hab hbc := by
    cases a <;> cases b <;> cases c
    case some.some.some a b c => exact @TransCmp.isLE_trans _ cmp _ a b c hab hbc
    all_goals simp_all [compareAbsentLast]

instance [LawfulEqCmp cmp] : LawfulEqCmp (compareAbsentLast cmp) where
  eq_of_compare {a b} h := by
    cases a <;> cases b
    case some.some a b => exact congrArg some (@LawfulEqCmp.eq_of_compare _ cmp _ a b h)
    case none.none => rfl
    all_goals cases h
  compare_self {a} := by
    cases a
    case some a => exact @ReflCmp.compare_self _ cmp _ a
    case none => rfl

end AbsentLast

/-! ### Floats in their total order -/

namespace Decimal

/-- A float is known by its bits. -/
theorem eq_of_toBits_eq {x y : Float} (h : x.toBits = y.toBits) : x = y := by
  obtain ⟨bits, _⟩ := x
  obtain ⟨bits', _⟩ := y
  cases (show bits = bits' from h)
  rfl

/-- Floats with one place in the total order are one float. -/
theorem eq_of_totalRank_eq {x y : Float} (h : totalRank x = totalRank y) : x = y := by
  refine eq_of_toBits_eq (UInt64.toNat_inj.1 ?_)
  have hpow : Int.pow 2 63 = ((Nat.pow 2 63 : Nat) : Int) := rfl
  simp only [totalRank, hpow] at h
  -- Bits below the sign keep their value; those with the sign are turned around below zero.
  split at h <;> split at h <;> omega

instance : TransCmp totalCompare :=
  inferInstanceAs (TransCmp (compareOn totalRank))

instance : LawfulEqCmp totalCompare where
  eq_of_compare h := eq_of_totalRank_eq (LawfulEqCmp.eq_of_compare h)
  compare_self {x} := @ReflCmp.compare_self _ (compareOn totalRank) _ x

end Decimal

/-! ### Stops, positions and places in order -/

instance : TransCmp StopId.compareByText :=
  inferInstanceAs (TransCmp (compareOn StopId.text))

instance : LawfulEqCmp StopId.compareByText where
  eq_of_compare {a b} h := by
    obtain ⟨text, _⟩ := a
    obtain ⟨text', _⟩ := b
    cases (show text = text' from @LawfulEqCmp.eq_of_compare _ compare _ _ _ h)
    rfl
  compare_self {a} := @ReflCmp.compare_self _ (compareOn StopId.text) _ a

instance : TransCmp Coordinate.compareByPosition :=
  have := transCmp_comap Coordinate.lon Decimal.totalCompare
  have := transCmp_comap Coordinate.lat Decimal.totalCompare
  inferInstanceAs (TransCmp (compareLex _ _))

instance : LawfulEqCmp Coordinate.compareByPosition where
  eq_of_compare {a b} h := by
    obtain ⟨hlon, hlat⟩ := Ordering.then_eq_eq.1 h
    obtain ⟨lat, lon, _⟩ := a
    obtain ⟨lat', lon', _⟩ := b
    cases @LawfulEqCmp.eq_of_compare _ Decimal.totalCompare _ _ _ hlon
    cases @LawfulEqCmp.eq_of_compare _ Decimal.totalCompare _ _ _ hlat
    rfl
  compare_self := Ordering.then_eq_eq.2
    ⟨@ReflCmp.compare_self _ Decimal.totalCompare _ _,
      @ReflCmp.compare_self _ Decimal.totalCompare _ _⟩

instance : TransCmp Place.compareByReference :=
  have := transCmp_comap Place.stop (compareAbsentLast StopId.compareByText)
  have := transCmp_comap Place.coordinate (compareAbsentLast Coordinate.compareByPosition)
  inferInstanceAs (TransCmp (compareLex _ _))

namespace Place

/-- Neither a stop nor a position: nothing that could be searched from. -/
def IsBare (place : Place) : Prop :=
  place.stop = none ∧ place.coordinate = none

instance (place : Place) : Decidable place.IsBare :=
  inferInstanceAs (Decidable (_ ∧ _))

/-- Places that are equal in their order have the same stop and the same position. -/
theorem compareByReference_eq_iff {a b : Place} :
    a.compareByReference b = .eq ↔ a.stop = b.stop ∧ a.coordinate = b.coordinate := by
  rw [compareByReference, Ordering.then_eq_eq, LawfulEqCmp.compare_eq_iff_eq,
    LawfulEqCmp.compare_eq_iff_eq]

/-- Places that are equal in their order are the same location, or both are bare. -/
theorem sameLocation_or_of_compare_eq {a b : Place} (h : a.compareByReference b = .eq) :
    a.sameLocation b = true ∨ a.IsBare ∧ b.IsBare := by
  obtain ⟨hstop, hcoordinate⟩ := compareByReference_eq_iff.1 h
  have hself : a.sameLocation b = a.sameLocation a := by
    unfold sameLocation
    rw [hstop, hcoordinate]
  by_cases hbare : a.IsBare
  · exact Or.inr ⟨hbare, hstop ▸ hbare.1, hcoordinate ▸ hbare.2⟩
  · exact Or.inl (hself.trans (sameLocation_self (Decidable.not_and_iff_not_or_not.1 hbare)))

/-- Of two places of which the first does not come after the second, and which are not the same
location, the first comes before, or both are bare. -/
theorem compare_lt_or_of_ne_gt {a b : Place} (hle : (a.compareByReference b != .gt) = true)
    (hapart : a.sameLocation b = false) :
    a.compareByReference b = .lt ∨ a.IsBare ∧ b.IsBare := by
  cases h : a.compareByReference b with
  | lt => exact Or.inl rfl
  | eq =>
    exact Or.inr ((sameLocation_or_of_compare_eq h).resolve_left
      (Bool.eq_false_iff.1 hapart))
  | gt =>
    rw [h] at hle
    cases hle

/-- Sorted by their order, places never come after those behind them. -/
theorem pairwise_mergeSort_compare {α : Type} (place : α → Place) (items : List α) :
    (items.mergeSort fun x y => (place x).compareByReference (place y) != .gt).Pairwise fun x y =>
      ((place x).compareByReference (place y) != .gt) = true := by
  have hle : ∀ x y, ((place x).compareByReference (place y) != .gt) = true ↔
      ((place x).compareByReference (place y)).isLE = true := by
    intro x y
    cases (place x).compareByReference (place y) <;> decide
  refine List.pairwise_mergeSort (fun x y z hxy hyz => ?_) (fun x y => ?_) items
  · exact (hle x z).2 (TransCmp.isLE_trans ((hle x y).1 hxy) ((hle y z).1 hyz))
  · rw [@OrientedCmp.eq_swap _ compareByReference _ (place y)]
    cases (place x).compareByReference (place y) <;> rfl

end Place

end JourneyPlanner
