import JourneyPlanner.Composition.Flatten

/-!
# Outcomes of computations

What the success or the failure of a computation in several parts says about its
parts, and which failures an itinerary of given legs can have at all.
-/

namespace JourneyPlanner

section Parts

variable {ε ε' α β : Type} {x : Except ε α}

/-- A computation in two parts succeeds exactly if the first part does and the second
does with its result. -/
theorem bind_eq_ok_iff {f : α → Except ε β} {b : β} :
    x >>= f = .ok b ↔ ∃ a, x = .ok a ∧ f a = .ok b := by
  cases x <;> simp [bind, Except.bind]

/-- A check in front of a computation that succeeds has been passed. -/
theorem check_bind_eq_ok_iff {ε β : Type} {check : Except ε Unit} {x : Except ε β} {b : β} :
    (check >>= fun _ => x) = .ok b ↔ check = .ok () ∧ x = .ok b := by
  rw [bind_eq_ok_iff]
  constructor
  · rintro ⟨⟨⟩, hcheck, hx⟩
    exact ⟨hcheck, hx⟩
  · rintro ⟨hcheck, hx⟩
    exact ⟨(), hcheck, hx⟩

/-- Items pass a check one after the other exactly if each of them does. -/
theorem forM_eq_ok_iff {α ε : Type} {check : α → Except ε Unit} {items : List α} :
    items.forM check = .ok () ↔ ∀ a ∈ items, check a = .ok () := by
  induction items with
  | nil => simp [List.forM, pure, Except.pure]
  | cons a rest ih =>
    rw [List.forall_mem_cons, ← ih]
    exact check_bind_eq_ok_iff

/-- A computation in two parts fails exactly if the first part does, or the second does with
its result. -/
theorem bind_eq_error_iff {f : α → Except ε β} {e : ε} :
    x >>= f = .error e ↔ x = .error e ∨ ∃ a, x = .ok a ∧ f a = .error e := by
  cases x <;> simp [bind, Except.bind]

/-- An image succeeds exactly if what it is the image of does. -/
theorem map_eq_ok_iff {f : α → β} {b : β} : x.map f = .ok b ↔ ∃ a, x = .ok a ∧ f a = b := by
  cases x <;> simp [Except.map]

/-- An image fails exactly if what it is the image of does. -/
theorem map_eq_error_iff {f : α → β} {e : ε} : x.map f = .error e ↔ x = .error e := by
  cases x <;> simp [Except.map]

/-- Telling errors in other words leaves successes as they are. -/
theorem ok_of_mapError {f : ε → ε'} {a : α} (h : x.mapError f = .ok a) : x = .ok a := by
  cases x with
  | error e => cases h
  | ok a' =>
    cases h
    rfl

/-- A computation that does not fail has a result. -/
theorem exists_ok (h : ∀ e, x ≠ .error e) : ∃ a, x = .ok a := by
  cases x with
  | error e => exact absurd rfl (h e)
  | ok a => exact ⟨a, rfl⟩

/-- A computation that is seen to succeed does not fail. -/
theorem ne_error_of_toBool (h : x.toBool = true) (e : ε) : x ≠ .error e := by
  rintro rfl
  cases h

end Parts

namespace Itinerary

/-- There is an itinerary of given legs exactly if there is a leg, they follow each other and
their costs have a sum; this is then its cost. -/
theorem ofLegs_eq_ok_iff {legs : List Leg} {it : Itinerary} :
    ofLegs legs = .ok it ↔ ∃ (cost : Int) (hne : legs ≠ []) (hchained : Leg.Chained legs),
      sumCosts (legs.map Leg.cost) = .ok cost ∧
        it = ⟨legs, cost, 0.0, 0.0, false, false, hne, hchained⟩ := by
  constructor
  · intro h
    unfold ofLegs at h
    split at h
    · cases h
    · rename_i hne
      split at h
      · cases h
      · rename_i hoverlap
        split at h
        · cases h
        · rename_i cost hsum
          cases h
          exact ⟨cost, hne, firstOverlap?_eq_none_iff.1 hoverlap, hsum, rfl⟩
  · rintro ⟨cost, hne, hchained, hsum, rfl⟩
    unfold ofLegs
    rw [dif_neg hne]
    split
    · rename_i overlap hoverlap
      rw [firstOverlap?_eq_none_iff.2 hchained] at hoverlap
      cases hoverlap
    · split
      · rename_i hfault
        cases hsum.symm.trans hfault
      · rename_i hok
        cases hsum.symm.trans hok
        rfl

/-- An itinerary of legs has these legs. -/
theorem legs_of_ofLegs {legs : List Leg} {it : Itinerary} (h : ofLegs legs = .ok it) :
    it.legs = legs := by
  obtain ⟨cost, hne, hchained, -, rfl⟩ := ofLegs_eq_ok_iff.1 h
  rfl

/-- Legs that follow each other are not refused. -/
theorem ofLegs_not_refused {legs : List Leg} (hne : legs ≠ []) (hchained : Leg.Chained legs)
    (reason : ItineraryError) : ofLegs legs ≠ .error (.refused reason) := by
  intro h
  unfold ofLegs at h
  rw [dif_neg hne] at h
  split at h
  · rename_i overlap hoverlap
    rw [firstOverlap?_eq_none_iff.2 hchained] at hoverlap
    cases hoverlap
  · split at h
    · cases h
    · cases h

end Itinerary

namespace Composition

/-- A computation that can only fault is not refused. -/
theorem orFault_not_refused {ε α : Type} {x : Except Fault α} {reason : ε} :
    orFault x ≠ .error (.refused reason) := by
  intro h
  unfold orFault at h
  cases x <;> cases h

end Composition

end JourneyPlanner
