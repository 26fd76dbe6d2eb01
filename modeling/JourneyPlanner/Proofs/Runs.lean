import JourneyPlanner.Composition.Flatten
import JourneyPlanner.Proofs.LinearTime
import JourneyPlanner.Proofs.Linked

/-!
# Runs of legs

Flattening handles the legs of one itinerary as a run: it moves them together and puts
them in front of or behind the legs placed before. A run is known to its neighbours by
its near and its far end, named in the order of growth as those of an itinerary are.
-/

namespace JourneyPlanner.Composition

/-! ### Moving legs -/

/-- Legs are moved one by one. -/
theorem shiftLegs_eq_ok_iff {span : Int} {legs moved : List Leg} :
    shiftLegs span legs = .ok moved ↔
      List.Forall₂ (fun leg leg' => leg.shift span = .ok leg') legs moved := by
  induction legs generalizing moved with
  | nil => simp [shiftLegs, eq_comm]
  | cons leg rest ih =>
    simp only [shiftLegs, bind_eq_ok_iff, pure, Except.pure, Except.ok.injEq,
      List.forall₂_cons_left_iff]
    constructor
    · rintro ⟨leg', hleg, rest', hrest, rfl⟩
      exact ⟨leg', rest', hleg, ih.1 hrest, rfl⟩
    · rintro ⟨leg', rest', hleg, hrest, rfl⟩
      exact ⟨leg', hleg, rest', ih.2 hrest, rfl⟩

/-- Legs moved by nothing stay. -/
theorem shiftLegs_zero (legs : List Leg) : shiftLegs 0 legs = .ok legs :=
  shiftLegs_eq_ok_iff.2 (List.forall₂_same.2 fun leg _ => leg.shift_zero)

/-- Two moves of linear legs in a row come to one move by the sum of their spans. -/
theorem shiftLegs_trans {span span' : Int} {legs moved again : List Leg}
    (hlinear : ∀ leg ∈ legs, leg.Linear) (hmoved : shiftLegs span legs = .ok moved)
    (hagain : shiftLegs span' moved = .ok again) : shiftLegs (span + span') legs = .ok again := by
  rw [shiftLegs_eq_ok_iff] at *
  induction hmoved generalizing again with
  | nil =>
    cases hagain
    exact .nil
  | cons hleg _ ih =>
    cases hagain with
    | cons hleg' hrest' =>
      exact .cons ((hlinear _ (by simp)).shift_trans hleg hleg')
        (ih (fun leg hmem => hlinear leg (List.mem_cons_of_mem _ hmem)) hrest')

/-- Of two copies of linear legs, the one is moved to where the other is by the difference of
their moves. -/
theorem shiftLegs_between {span span' : Int} {legs moved moved' : List Leg}
    (hlinear : ∀ leg ∈ legs, leg.Linear) (hmoved : shiftLegs span legs = .ok moved)
    (hmoved' : shiftLegs (span + span') legs = .ok moved') :
    shiftLegs span' moved = .ok moved' := by
  rw [shiftLegs_eq_ok_iff] at *
  induction hmoved generalizing moved' with
  | nil =>
    cases hmoved'
    exact .nil
  | cons hleg _ ih =>
    rw [List.forall_mem_cons] at hlinear
    cases hmoved' with
    | cons hleg' hrest' => exact .cons (hlinear.1.shift_between hleg hleg') (ih hlinear.2 hrest')

/-- Moved legs stay linear. -/
theorem linear_of_shiftLegs {span : Int} {legs moved : List Leg}
    (hlinear : ∀ leg ∈ legs, leg.Linear) (hmoved : shiftLegs span legs = .ok moved) :
    ∀ leg ∈ moved, leg.Linear := by
  rw [shiftLegs_eq_ok_iff] at hmoved
  induction hmoved with
  | nil => simp
  | cons hleg _ ih =>
    rw [List.forall_mem_cons] at hlinear ⊢
    exact ⟨hlinear.1.of_shift hleg, ih hlinear.2⟩

/-- Legs in two parts are moved part by part. -/
theorem shiftLegs_append {span : Int} {legs legs' moved : List Leg}
    (h : shiftLegs span (legs ++ legs') = .ok moved) :
    ∃ out out', shiftLegs span legs = .ok out ∧ shiftLegs span legs' = .ok out' ∧
      moved = out ++ out' := by
  have hmoved := shiftLegs_eq_ok_iff.1 h
  have hleft := List.forall₂_take legs.length hmoved
  have hright := List.forall₂_drop legs.length hmoved
  rw [List.take_left' rfl] at hleft
  rw [List.drop_left' rfl] at hright
  exact ⟨_, _, shiftLegs_eq_ok_iff.2 hleft, shiftLegs_eq_ok_iff.2 hright,
    (List.take_append_drop _ _).symm⟩

/-- Runs that are moved together are moved run by run. -/
theorem shiftLegs_flatten {span : Int} {runs : List (List Leg)} {moved : List Leg}
    (h : shiftLegs span runs.flatten = .ok moved) :
    ∃ runs', List.Forall₂ (fun run run' => shiftLegs span run = .ok run') runs runs' ∧
      moved = runs'.flatten := by
  induction runs generalizing moved with
  | nil =>
    cases h
    exact ⟨[], .nil, rfl⟩
  | cons run runs ih =>
    rw [List.flatten_cons] at h
    obtain ⟨run', rest, hrun, hrest, rfl⟩ := shiftLegs_append h
    obtain ⟨runs', hruns, rfl⟩ := ih hrest
    exact ⟨run' :: runs', .cons hrun hruns, rfl⟩

/-! ### The two ends of a run -/

namespace Direction

/-- When the near end of a run of legs is passed. -/
def nearInstant? : Direction → List Leg → Option Instant
  | .departAt, run => run.head?.map Leg.start
  | .arriveBy, run => run.getLast?.map Leg.finish

/-- When the far end of a run of legs is passed. -/
def farInstant? : Direction → List Leg → Option Instant
  | .departAt, run => run.getLast?.map Leg.finish
  | .arriveBy, run => run.head?.map Leg.start

/-- The near end of the legs of an itinerary is that of the itinerary. -/
theorem nearInstant?_legs (direction : Direction) (it : Itinerary) :
    direction.nearInstant? it.legs = some (direction.nearTime it) := by
  cases direction
  · simp [nearInstant?, nearTime, Itinerary.start, Itinerary.firstLeg,
      List.head?_eq_some_head it.legs_ne_nil]
  · simp [nearInstant?, nearTime, Itinerary.finish, Itinerary.lastLeg,
      List.getLast?_eq_some_getLast it.legs_ne_nil]

/-- The far end of the legs of an itinerary is that of the itinerary. -/
theorem farInstant?_legs (direction : Direction) (it : Itinerary) :
    direction.farInstant? it.legs = some (direction.farTime it) := by
  cases direction
  · simp [farInstant?, farTime, Itinerary.finish, Itinerary.lastLeg,
      List.getLast?_eq_some_getLast it.legs_ne_nil]
  · simp [farInstant?, farTime, Itinerary.start, Itinerary.firstLeg,
      List.head?_eq_some_head it.legs_ne_nil]

/-- The near end of a run moves with the run. -/
theorem nearInstant?_shiftLegs (direction : Direction) {span : Int} {legs moved : List Leg}
    {a : Instant} (h : shiftLegs span legs = .ok moved)
    (ha : direction.nearInstant? legs = some a) :
    ∃ b, direction.nearInstant? moved = some b ∧ a.shift span = .ok b := by
  cases direction
  · obtain ⟨leg, hleg, rfl⟩ := Option.map_eq_some_iff.1 ha
    obtain ⟨leg', hleg', hshift⟩ := head?_of_forall₂ (shiftLegs_eq_ok_iff.1 h) hleg
    obtain ⟨start, finish, hstart, -, rfl⟩ := Leg.shift_eq_ok_iff.1 hshift
    exact ⟨start, by simp [nearInstant?, hleg'], hstart⟩
  · obtain ⟨leg, hleg, rfl⟩ := Option.map_eq_some_iff.1 ha
    obtain ⟨leg', hleg', hshift⟩ := getLast?_of_forall₂ (shiftLegs_eq_ok_iff.1 h) hleg
    obtain ⟨start, finish, -, hfinish, rfl⟩ := Leg.shift_eq_ok_iff.1 hshift
    exact ⟨finish, by simp [nearInstant?, hleg'], hfinish⟩

/-- The other direction has the two ends of a run the other way round. -/
theorem farInstant?_eq (direction : Direction) (run : List Leg) :
    direction.farInstant? run = (ofArriveBy !direction.isArriveBy).nearInstant? run := by
  cases direction <;> rfl

/-- The far end of a run moves with the run. -/
theorem farInstant?_shiftLegs (direction : Direction) {span : Int} {legs moved : List Leg}
    {a : Instant} (h : shiftLegs span legs = .ok moved)
    (ha : direction.farInstant? legs = some a) :
    ∃ b, direction.farInstant? moved = some b ∧ a.shift span = .ok b := by
  rw [farInstant?_eq] at *
  exact nearInstant?_shiftLegs _ h ha

/-- The near end of legs stays when more are put behind them in the order of growth. -/
theorem nearInstant?_attach (direction : Direction) {placed : List Leg} (added : List Leg)
    {a : Instant} (ha : direction.nearInstant? placed = some a) :
    direction.nearInstant? (Placed.attach direction placed added) = some a := by
  cases direction
  · obtain ⟨leg, hleg, rfl⟩ := Option.map_eq_some_iff.1 ha
    simp [nearInstant?, Placed.attach, hleg]
  · obtain ⟨leg, hleg, rfl⟩ := Option.map_eq_some_iff.1 ha
    simp [nearInstant?, Placed.attach, hleg]

/-- The far end of legs is that of what is put behind them in the order of growth. -/
theorem farInstant?_attach (direction : Direction) (placed : List Leg) {added : List Leg}
    {a : Instant} (ha : direction.farInstant? added = some a) :
    direction.farInstant? (Placed.attach direction placed added) = some a := by
  cases direction
  · obtain ⟨leg, hleg, rfl⟩ := Option.map_eq_some_iff.1 ha
    simp [farInstant?, Placed.attach, hleg]
  · obtain ⟨leg, hleg, rfl⟩ := Option.map_eq_some_iff.1 ha
    simp [farInstant?, Placed.attach, hleg]

/-- Both orders hold the same items. -/
@[simp] theorem mem_inTravelOrder {α : Type} (direction : Direction) {items : List α} {item : α} :
    item ∈ direction.inTravelOrder items ↔ item ∈ items := by
  cases direction <;> simp [inTravelOrder]

/-- Whether there is an item of a kind does not depend on the order. -/
@[simp] theorem any_inTravelOrder {α : Type} (direction : Direction) (items : List α)
    (p : α → Bool) : (direction.inTravelOrder items).any p = items.any p := by
  cases direction <;> simp [inTravelOrder]

/-- Put into the other order, what stands between the two ends of a list still does, and the
ends have changed places if it was turned around. -/
theorem between_of_inTravelOrder {α : Type} {direction : Direction} {start finish first last : α}
    {items between : List α}
    (h : direction.inTravelOrder (start :: (items ++ [finish])) = first :: (between ++ [last])) :
    direction.inTravelOrder between = items ∧
      (direction = .departAt ∧ first = start ∧ last = finish ∨
        direction = .arriveBy ∧ first = finish ∧ last = start) := by
  cases direction with
  | departAt =>
    obtain ⟨rfl, hrest⟩ := List.cons.inj h
    obtain ⟨rfl, hlast⟩ := List.append_inj' hrest rfl
    exact ⟨rfl, .inl ⟨rfl, rfl, (List.singleton_inj.1 hlast).symm⟩⟩
  | arriveBy =>
    have hreversed : finish :: (items.reverse ++ [start]) = first :: (between ++ [last]) := by
      simpa [inTravelOrder] using h
    obtain ⟨rfl, hrest⟩ := List.cons.inj hreversed
    obtain ⟨rfl, hlast⟩ := List.append_inj' hrest rfl
    exact ⟨List.reverse_reverse items, .inr ⟨rfl, rfl, (List.singleton_inj.1 hlast).symm⟩⟩

/-- One more item in the order of growth comes last or first in the order of travel. -/
theorem flatten_inTravelOrder_concat (direction : Direction) (runs : List (List Leg))
    (run : List Leg) :
    (direction.inTravelOrder (runs ++ [run])).flatten =
      Placed.attach direction (direction.inTravelOrder runs).flatten run := by
  cases direction <;> simp [inTravelOrder, Placed.attach]

/-- Runs in the order of travel that are moved together are moved run by run, whichever way
they grow. -/
theorem shiftLegs_inTravelOrder (direction : Direction) {span : Int} {runs : List (List Leg)}
    {moved : List Leg} (h : shiftLegs span (direction.inTravelOrder runs).flatten = .ok moved) :
    ∃ runs', List.Forall₂ (fun run run' => shiftLegs span run = .ok run') runs runs' ∧
      moved = (direction.inTravelOrder runs').flatten := by
  obtain ⟨runs', hruns, rfl⟩ := shiftLegs_flatten h
  cases direction with
  | departAt => exact ⟨runs', hruns, rfl⟩
  | arriveBy =>
    refine ⟨runs'.reverse, List.forall₂_reverse_iff.1 ?_, ?_⟩
    · simpa [inTravelOrder] using hruns
    · simp [inTravelOrder]

end Direction

end JourneyPlanner.Composition
