import JourneyPlanner.Proofs.Growth
import JourneyPlanner.Proofs.Runs

/-!
# Mirror images in time

The mirror image of a journey is travelled from its end to its start, with every time
reflected on the timeline: two instants are reflections of each other if their nanoseconds
add up to a fixed number. A journey is the mirror image of its mirror image, and what is
near in one direction of growth is the reflection of what is near in the other.
-/

namespace JourneyPlanner

/-! ### Instants and legs -/

/-- The reflection of an instant, if the calendar has a date for it; `c` is the number of
nanoseconds that both come to together. -/
def Instant.reflect? (c : Int) (a : Instant) : Option Instant :=
  ofNanos? (c - a.nanos)

/-- The mirror image of a leg leads back in reflected time and is the same in all else. -/
def Leg.mirror? (c : Int) (leg : Leg) : Option Leg := do
  let start ← leg.finish.reflect? c
  let finish ← leg.start.reflect? c
  return { leg with
    origin := leg.destination, destination := leg.origin, start := start, finish := finish }

namespace Instant

/-- An instant outside inserted seconds and its reflection. -/
structure MirrorImage (c : Int) (a b : Instant) : Prop where
  /-- The instant lies outside inserted seconds. -/
  linear : a.Linear
  /-- The other one is its reflection. -/
  eq_some : a.reflect? c = some b

variable {c : Int} {a b a' b' : Instant}

/-- Instants are reflections of each other if they come to a fixed number of nanoseconds. -/
theorem mirrorImage_iff : MirrorImage c a b ↔ a.Linear ∧ b.Linear ∧ a.nanos + b.nanos = c := by
  constructor
  · rintro ⟨ha, heq⟩
    obtain ⟨hnanos, hb⟩ := nanos_of_ofNanos? heq
    exact ⟨ha, hb, by omega⟩
  · rintro ⟨ha, hb, hnanos⟩
    have hrest : c - a.nanos = b.nanos := by omega
    refine ⟨ha, ?_⟩
    rw [reflect?, hrest]
    exact ofNanos?_nanos hb

namespace MirrorImage

/-- An instant is the reflection of its reflection. -/
theorem symm (h : MirrorImage c a b) : MirrorImage c b a := by
  obtain ⟨ha, hb, hnanos⟩ := mirrorImage_iff.1 h
  exact mirrorImage_iff.2 ⟨hb, ha, by omega⟩

/-- Moved opposite ways, an instant and its reflection stay reflections of each other. -/
theorem of_shift (h : MirrorImage c a b) {span span' : Int} (hmoved : a.shift span = .ok a')
    (hback : b.shift span' = .ok b') (hopposite : span' = -span) : MirrorImage c a' b' := by
  obtain ⟨ha, hb, hnanos⟩ := mirrorImage_iff.1 h
  obtain ⟨hmovedNanos, ha'⟩ := ha.shift_eq_ok_iff.1 hmoved
  obtain ⟨hbackNanos, hb'⟩ := hb.shift_eq_ok_iff.1 hback
  exact mirrorImage_iff.2 ⟨ha', hb', by omega⟩

/-- The span between two instants is that between their reflections the other way round. -/
theorem since_eq (h : MirrorImage c a b) (h' : MirrorImage c a' b') :
    b.since b' = a'.since a := by
  obtain ⟨ha, hb, hnanos⟩ := mirrorImage_iff.1 h
  obtain ⟨ha', hb', hnanos'⟩ := mirrorImage_iff.1 h'
  rw [Instant.since_eq hb hb', Instant.since_eq ha' ha]
  omega

/-- The span between two reflections is the opposite of that between the instants. -/
theorem since_eq_neg (h : MirrorImage c a b) (h' : MirrorImage c a' b') :
    b.since b' = -a.since a' := by
  rw [h.since_eq h', Instant.since_eq h'.linear h.linear, Instant.since_eq h.linear h'.linear]
  omega

end MirrorImage

end Instant

namespace Leg

/-- A leg outside inserted seconds and its mirror image. -/
structure MirrorImage (c : Int) (leg image : Leg) : Prop where
  /-- The leg lies outside inserted seconds. -/
  linear : leg.Linear
  /-- The other one is its mirror image. -/
  eq_some : leg.mirror? c = some image

variable {c : Int} {leg image : Leg}

namespace MirrorImage

/-- The mirror image of a leg differs from it in its ends only. -/
theorem exists_eq (h : MirrorImage c leg image) :
    ∃ start finish, Instant.MirrorImage c leg.finish start ∧
      Instant.MirrorImage c leg.start finish ∧
      image = { leg with
        origin := leg.destination, destination := leg.origin
        start := start, finish := finish } := by
  have heq := h.eq_some
  simp only [mirror?, bind, Option.bind_eq_some_iff, pure, Option.some.injEq] at heq
  obtain ⟨start, hstart, finish, hfinish, rfl⟩ := heq
  exact ⟨start, finish, ⟨h.linear.finish, hstart⟩, ⟨h.linear.start, hfinish⟩, rfl⟩

/-- A leg is the mirror image of its mirror image. -/
theorem symm (h : MirrorImage c leg image) : MirrorImage c image leg := by
  obtain ⟨start, finish, hstart, hfinish, rfl⟩ := h.exists_eq
  refine ⟨⟨hstart.symm.linear, hfinish.symm.linear⟩, ?_⟩
  simp [mirror?, hstart.symm.eq_some, hfinish.symm.eq_some]

/-- Moved opposite ways, a leg and its mirror image stay mirror images of each other. -/
theorem of_shift (h : MirrorImage c leg image) {span span' : Int} {leg' image' : Leg}
    (hmoved : leg.shift span = .ok leg') (hback : image.shift span' = .ok image')
    (hopposite : span' = -span) : MirrorImage c leg' image' := by
  obtain ⟨start, finish, hstart, hfinish, rfl⟩ := h.exists_eq
  refine ⟨h.linear.of_shift hmoved, ?_⟩
  obtain ⟨start', finish', hstart', hfinish', rfl⟩ := shift_eq_ok_iff.1 hmoved
  obtain ⟨start'', finish'', hstart'', hfinish'', rfl⟩ := shift_eq_ok_iff.1 hback
  have hnewStart := hstart.of_shift hfinish' hstart'' hopposite
  have hnewFinish := hfinish.of_shift hstart' hfinish'' hopposite
  simp [mirror?, hnewStart.eq_some, hnewFinish.eq_some]

/-- A mirror image is travelled in the same way. -/
theorem isTransit_eq (h : MirrorImage c leg image) : image.isTransit = leg.isTransit := by
  obtain ⟨start, finish, -, -, rfl⟩ := h.exists_eq
  rfl

end MirrorImage

/-! ### Runs of legs -/

/-- The legs of a run are the mirror images of those of another, in the opposite order. -/
def MirrorRun (c : Int) (run image : List Leg) : Prop :=
  List.Forall₂ (MirrorImage c) run.reverse image

namespace MirrorRun

variable {run image : List Leg}

/-- A run is the mirror image of its mirror image. -/
theorem symm (h : MirrorRun c run image) : MirrorRun c image run := by
  have hback : List.Forall₂ (MirrorImage c) image run.reverse :=
    List.Forall₂.flip (h.imp fun _ _ hleg => hleg.symm)
  simpa [MirrorRun] using List.forall₂_reverse_iff.2 hback

/-- Runs in a row have their mirror images in the opposite order. -/
theorem append {run' image' : List Leg} (h : MirrorRun c run image)
    (h' : MirrorRun c run' image') : MirrorRun c (run ++ run') (image' ++ image) := by
  unfold MirrorRun
  rw [List.reverse_append]
  exact List.rel_append h' h

/-- Moved opposite ways, a run and its mirror image stay mirror images of each other. -/
theorem of_shiftLegs (h : MirrorRun c run image) {span span' : Int} {run' image' : List Leg}
    (hmoved : Composition.shiftLegs span run = .ok run')
    (hback : Composition.shiftLegs span' image = .ok image') (hopposite : span' = -span) :
    MirrorRun c run' image' := by
  rw [Composition.shiftLegs_eq_ok_iff] at hmoved hback
  rw [← List.forall₂_reverse_iff] at hmoved
  unfold MirrorRun at h ⊢
  generalize run.reverse = legs at h hmoved
  generalize run'.reverse = legs' at hmoved ⊢
  induction h generalizing legs' image' with
  | nil =>
    cases hmoved
    cases hback
    exact .nil
  | cons hleg _ ih =>
    cases hmoved with
    | cons hlegMoved hmoved =>
      cases hback with
      | cons hlegBack hback =>
        exact .cons (hleg.of_shift hlegMoved hlegBack hopposite) (ih hback _ hmoved)

/-- A mirror image rides transit exactly if the original does. -/
theorem any_isTransit (h : MirrorRun c run image) :
    image.any Leg.isTransit = run.any Leg.isTransit := by
  unfold MirrorRun at h
  have hreverse : run.any Leg.isTransit = run.reverse.any Leg.isTransit := List.any_reverse.symm
  rw [hreverse]
  generalize run.reverse = legs at h ⊢
  induction h with
  | nil => rfl
  | cons hleg _ ih => rw [List.any_cons, List.any_cons, ih, hleg.isTransit_eq]

/-- The mirror image of the last leg of a run comes first. -/
theorem exists_head (h : MirrorRun c run image) (hleg : run.getLast? = some leg) :
    ∃ leg', image.head? = some leg' ∧ MirrorImage c leg leg' :=
  head?_of_forall₂ h (by rw [List.head?_reverse, hleg])

end MirrorRun

end Leg

/-! ### Candidates -/

namespace Composition.Direction

/-- The direction that grows at the other end. -/
def opposite : Direction → Direction
  | departAt => arriveBy
  | arriveBy => departAt

variable (direction : Direction)

/-- Opposite is what is turned around once. -/
@[simp] theorem opposite_opposite : direction.opposite.opposite = direction := by
  cases direction <;> rfl

/-- Opposite growth runs the other way in time. -/
@[simp] theorem sign_opposite : direction.opposite.sign = -direction.sign := by
  cases direction <;> rfl

/-- What is far in one direction is near in the other. -/
theorem farTime_eq (it : Itinerary) : direction.farTime it = direction.opposite.nearTime it := by
  cases direction <;> rfl

/-- The place that is far in one direction is near in the other. -/
theorem farPlace_eq (it : Itinerary) : direction.farPlace it = direction.opposite.nearPlace it := by
  cases direction <;> rfl

end Composition.Direction

/-- A candidate outside inserted seconds and its mirror image, which may be recognised by
another identity. -/
structure Candidate.MirrorImage (c : Int) (it image : Candidate) : Prop where
  /-- It is travelled backward in reflected time. -/
  legs : Leg.MirrorRun c it.legs image.legs
  /-- It costs the same. -/
  cost : image.cost = it.cost
  /-- Its metres climbed are counted as those of the original. -/
  climb : image.climb = it.climb
  /-- Its metres descended are counted as those of the original. -/
  descent : image.descent = it.descent
  /-- It exceeds a limit if the original does. -/
  limitExceeded : image.limitExceeded = it.limitExceeded
  /-- It is too steep if the original is. -/
  tooSloped : image.tooSloped = it.tooSloped
  /-- It carries the same notices. -/
  notices : image.notices = it.notices

namespace Candidate.MirrorImage

open JourneyPlanner.Composition

variable {c : Int} {it image : Candidate}

/-- A candidate is the mirror image of its mirror image. -/
theorem symm (h : MirrorImage c it image) : MirrorImage c image it :=
  ⟨h.legs.symm, h.cost.symm, h.climb.symm, h.descent.symm, h.limitExceeded.symm,
    h.tooSloped.symm, h.notices.symm⟩

/-- A candidate that has a mirror image lies outside inserted seconds. -/
theorem linear (h : MirrorImage c it image) : it.Linear := by
  intro leg hleg
  obtain ⟨leg', -, hmirror⟩ := exists_of_forall₂ h.legs.symm hleg
  exact hmirror.symm.linear

/-- The last leg has its mirror image in front. -/
theorem lastLeg (h : MirrorImage c it image) : Leg.MirrorImage c it.lastLeg image.firstLeg := by
  obtain ⟨leg, hleg, hmirror⟩ :=
    h.legs.exists_head (List.getLast?_eq_some_getLast it.legs_ne_nil)
  rw [List.head?_eq_some_head image.legs_ne_nil] at hleg
  obtain rfl := Option.some.inj hleg
  exact hmirror

/-- The first leg has its mirror image at the end. -/
theorem firstLeg (h : MirrorImage c it image) : Leg.MirrorImage c it.firstLeg image.lastLeg :=
  h.symm.lastLeg.symm

/-- A mirror image rides transit exactly if the original does. -/
theorem isStreetOnly_eq (h : MirrorImage c it image) : image.isStreetOnly = it.isStreetOnly := by
  rw [Itinerary.isStreetOnly, Itinerary.isStreetOnly, h.legs.any_isTransit]

/-- The near end of the mirror image in the opposite direction is the reflection of the near
end. -/
theorem nearTime (h : MirrorImage c it image) (direction : Direction) :
    Instant.MirrorImage c (direction.nearTime it.toItinerary)
      (direction.opposite.nearTime image.toItinerary) := by
  cases direction with
  | departAt =>
    obtain ⟨start, finish, -, hfinish, heq⟩ := h.firstLeg.exists_eq
    change Instant.MirrorImage c it.firstLeg.start image.lastLeg.finish
    rwa [heq]
  | arriveBy =>
    obtain ⟨start, finish, hstart, -, heq⟩ := h.lastLeg.exists_eq
    change Instant.MirrorImage c it.lastLeg.finish image.firstLeg.start
    rwa [heq]

/-- The far end of the mirror image in the opposite direction is the reflection of the far
end. -/
theorem farTime (h : MirrorImage c it image) (direction : Direction) :
    Instant.MirrorImage c (direction.farTime it.toItinerary)
      (direction.opposite.farTime image.toItinerary) := by
  rw [direction.farTime_eq, direction.opposite.farTime_eq]
  exact h.nearTime direction.opposite

/-- The mirror image is entered in the opposite direction where the original is. -/
theorem nearPlace (h : MirrorImage c it image) (direction : Direction) :
    direction.opposite.nearPlace image.toItinerary = direction.nearPlace it.toItinerary := by
  cases direction with
  | departAt =>
    obtain ⟨start, finish, -, -, heq⟩ := h.firstLeg.exists_eq
    exact congrArg Leg.destination heq
  | arriveBy =>
    obtain ⟨start, finish, -, -, heq⟩ := h.lastLeg.exists_eq
    exact congrArg Leg.origin heq

/-- The mirror image is left in the opposite direction where the original is. -/
theorem farPlace (h : MirrorImage c it image) (direction : Direction) :
    direction.opposite.farPlace image.toItinerary = direction.farPlace it.toItinerary := by
  rw [direction.farPlace_eq, direction.opposite.farPlace_eq]
  exact h.nearPlace direction.opposite

/-- A mirror image takes as long as the original. -/
theorem duration_eq (h : MirrorImage c it image) : image.duration = it.duration :=
  (h.nearTime .departAt).since_eq (h.nearTime .arriveBy)

end Candidate.MirrorImage

end JourneyPlanner
