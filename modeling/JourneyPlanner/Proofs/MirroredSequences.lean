import JourneyPlanner.Proofs.Flattening
import JourneyPlanner.Proofs.Mirror

/-!
# Sequences and their mirror images

A sequence that arrives by a time is the mirror image of one that departs at a time. If
its itineraries are mirror images of the other's, each extension and each placement of
legs succeeds in both or in neither, and what comes out is a mirror image again.
-/

namespace JourneyPlanner.Composition

/-! ### Extensions -/

/-- An itinerary that is to be joined to a sequence, and the bounds on the wait before it. -/
structure Addition where
  /-- The itinerary. -/
  next : Candidate
  /-- The shortest wait. -/
  minWait : Int
  /-- The longest wait between two rides. -/
  maxWait : Int

/-- Additions of mirror images under the same bounds. -/
structure Addition.MirrorImage (c : Int) (added image : Addition) : Prop where
  /-- The itineraries are mirror images. -/
  next : added.next.MirrorImage c image.next
  /-- The shortest wait is the same. -/
  minWait : image.minWait = added.minWait
  /-- The longest wait is the same. -/
  maxWait : image.maxWait = added.maxWait

/-- An addition is the mirror image of its mirror image. -/
theorem Addition.MirrorImage.symm {c : Int} {added image : Addition}
    (h : MirrorImage c added image) : MirrorImage c image added :=
  ⟨h.next.symm, h.minWait.symm, h.maxWait.symm⟩

namespace Sequence

/-- Joins itineraries to the growing end, one after the other. There is no result if one of
them cannot be joined. -/
def extendBy (s : Sequence) : List Addition → Except Fault (Option Sequence)
  | [] => .ok (some s)
  | added :: rest => do
    match ← s.extend added.next added.minWait added.maxWait with
    | none => return none
    | some t => t.extendBy rest

/-- The sequence of a first itinerary and further ones, which grows in a direction. -/
def compose (direction : Direction) (first : Candidate) (additions : List Addition) :
    Except Fault (Option Sequence) :=
  (single direction first).extendBy additions

/-- A composed sequence has grown by extensions, and so have those it is extended to. -/
theorem Grown.extendBy {s t : Sequence} (hs : s.Grown) {additions : List Addition}
    (hlinear : ∀ added ∈ additions, added.next.Linear)
    (hmin : ∀ added ∈ additions, 0 ≤ added.minWait)
    (hok : s.extendBy additions = .ok (some t)) : t.Grown := by
  induction additions generalizing s with
  | nil =>
    cases hok
    exact hs
  | cons added additions ih =>
    rw [List.forall_mem_cons] at hlinear hmin
    obtain ⟨r, hr, hrest⟩ := bind_eq_ok_iff.1 hok
    cases r with
    | none => cases hrest
    | some u => exact ih (hs.extend hlinear.1 hmin.1 hr) hlinear.2 hmin.2 hrest

/-- Two sequences that grow in opposite directions, the members and ends of one being the
mirror images of those of the other. -/
structure MirrorImage (c : Int) (s image : Sequence) : Prop where
  /-- They grow in opposite directions. -/
  direction : image.direction = s.direction.opposite
  /-- The itineraries at the fixed end are mirror images. -/
  first : s.first.MirrorImage c image.first
  /-- So are the others, and they are joined after the same waits. -/
  links : List.Forall₂
    (fun link link' => link'.wait = link.wait ∧ link.member.MirrorImage c link'.member)
    s.links image.links
  /-- The fixed ends are reflections. -/
  originTime : Instant.MirrorImage c s.originTime image.originTime
  /-- The growing ends are reflections. -/
  frontierTime : Instant.MirrorImage c s.frontierTime image.frontierTime
  /-- Both stay on the street or both ride transit. -/
  streetOnly : image.streetOnly = s.streetOnly

namespace MirrorImage

variable {c : Int} {s image : Sequence} {next next' : Candidate}

/-- Single itineraries that are mirror images make sequences that are. -/
theorem single (direction : Direction) (h : next.MirrorImage c next') :
    MirrorImage c (.single direction next) (.single direction.opposite next') where
  direction := rfl
  first := h
  links := .nil
  originTime := h.nearTime direction
  frontierTime := h.farTime direction
  streetOnly := h.isStreetOnly_eq

/-- A sequence is the mirror image of its mirror image. -/
theorem symm (h : MirrorImage c s image) : MirrorImage c image s where
  direction := by rw [h.direction, Direction.opposite_opposite]
  first := h.first.symm
  links := (h.links.imp fun _ _ hlink => ⟨hlink.1.symm, hlink.2.symm⟩).flip
  originTime := h.originTime.symm
  frontierTime := h.frontierTime.symm
  streetOnly := h.streetOnly.symm

/-- The itineraries of a sequence are, in the order of growth, mirror images of those of the
other. -/
theorem grown (h : MirrorImage c s image) :
    List.Forall₂ (Candidate.MirrorImage c) s.grown image.grown :=
  .cons h.first (List.forall₂_map_left_iff.2 (List.forall₂_map_right_iff.2
    (h.links.imp fun _ _ hlink => hlink.2)))

/-- The itineraries at the growing ends are mirror images. -/
theorem last (h : MirrorImage c s image) : s.last.MirrorImage c image.last := by
  obtain ⟨last', hlast', hmirror⟩ := getLast?_of_forall₂ h.grown s.getLast?_grown
  rw [image.getLast?_grown] at hlast'
  obtain rfl := Option.some.inj hlast'
  exact hmirror

/-- Both sequences grow from the same place. -/
theorem frontierPlace (h : MirrorImage c s image) : image.frontierPlace = s.frontierPlace := by
  unfold Sequence.frontierPlace
  rw [h.direction]
  exact h.last.farPlace s.direction

/-- A new itinerary touches one sequence exactly if its mirror image touches the other. -/
theorem nearPlace (h : MirrorImage c s image) (hnext : next.MirrorImage c next') :
    image.direction.nearPlace next'.toItinerary = s.direction.nearPlace next.toItinerary := by
  rw [h.direction]
  exact hnext.nearPlace s.direction

/-- The start of the mirror image is the reflection of the end. -/
theorem start (h : MirrorImage c s image) : Instant.MirrorImage c s.finish image.start := by
  unfold Sequence.start finish
  rw [h.direction]
  cases s.direction
  · exact h.frontierTime
  · exact h.originTime

/-- The end of the mirror image is the reflection of the start. -/
theorem finish (h : MirrorImage c s image) : Instant.MirrorImage c s.start image.finish := by
  unfold Sequence.start Sequence.finish
  rw [h.direction]
  cases s.direction
  · exact h.originTime
  · exact h.frontierTime

/-- Both sequences take the same time. -/
theorem length_eq (h : MirrorImage c s image) :
    image.finish.since image.start = s.finish.since s.start :=
  h.finish.since_eq h.start

/-- The schedules leave the same wait in both. -/
theorem scheduledWait (h : MirrorImage c s image) (hnext : next.MirrorImage c next') :
    image.scheduledWait next' = s.scheduledWait next := by
  have hsince := (hnext.nearTime s.direction).since_eq_neg h.frontierTime
  unfold Sequence.scheduledWait
  rw [h.direction, Direction.sign_opposite, hsince, Int.neg_mul_neg]

/-- Mirror images that are added after the same wait, with reflected ends, make mirror
images. -/
theorem push (h : MirrorImage c s image) (hnext : next.MirrorImage c next') (wait : Int)
    {origin origin' frontier frontier' : Instant} (horigin : Instant.MirrorImage c origin origin')
    (hfrontier : Instant.MirrorImage c frontier frontier') :
    MirrorImage c (s.push wait next origin frontier) (image.push wait next' origin' frontier') where
  direction := h.direction
  first := h.first
  links := List.rel_append h.links (.cons ⟨rfl, hnext⟩ .nil)
  originTime := horigin
  frontierTime := hfrontier
  streetOnly := by
    rw [push_streetOnly, push_streetOnly, h.streetOnly, hnext.isStreetOnly_eq]

/-- Mirror images are extended in the same form, to mirror images. -/
theorem of_extends (h : MirrorImage c s image) (hnext : next.MirrorImage c next')
    {minWait maxWait : Int} {t t' : Sequence} (hext : s.Extends next minWait maxWait t)
    (hext' : image.Extends next' minWait maxWait t') : MirrorImage c t t' := by
  have hstreetOnly := hnext.isStreetOnly_eq
  cases hext with
  | follows hstreet hfrontier =>
    cases hext' with
    | follows _ hfrontier' =>
      rw [hnext.duration_eq, h.direction, Direction.sign_opposite, Int.mul_neg] at hfrontier'
      exact h.push hnext minWait h.originTime (h.frontierTime.of_shift hfrontier hfrontier' rfl)
    | meets hride | connects hride => simp [hstreetOnly, hstreet] at hride
  | meets hride hstreet horigin =>
    cases hext' with
    | follows hstreet' => simp [hstreetOnly, hride] at hstreet'
    | meets _ _ horigin' =>
      rw [h.direction, Direction.sign_opposite, h.length_eq, Int.mul_neg] at horigin'
      have hnear := (hnext.nearTime s.direction).of_shift horigin horigin' rfl
      rw [h.direction]
      exact h.push hnext minWait hnear (hnext.farTime s.direction)
    | connects _ hscheduled => simp [h.streetOnly, hstreet] at hscheduled
  | connects hride hscheduled =>
    cases hext' with
    | follows hstreet' => simp [hstreetOnly, hride] at hstreet'
    | meets _ hstreet' => simp [h.streetOnly, hscheduled] at hstreet'
    | connects =>
      rw [h.scheduledWait hnext, h.direction]
      exact h.push hnext _ h.originTime (hnext.farTime s.direction)

/-- A sequence is not extended where its mirror image is. -/
theorem extend_ne_none (h : MirrorImage c s image) (hnext : next.MirrorImage c next')
    {minWait maxWait : Int} {t : Sequence} (hok : s.extend next minWait maxWait = .ok (some t)) :
    image.extend next' minWait maxWait ≠ .ok none := by
  intro hnone
  obtain ⟨htouches, hext⟩ := extend_cases hok
  rcases not_extended hnone with hapart | ⟨hride, hscheduled, hbounds⟩
  · rw [h.nearPlace hnext, h.frontierPlace, htouches] at hapart
    cases hapart
  · rw [hnext.isStreetOnly_eq] at hride
    rw [h.streetOnly] at hscheduled
    rw [h.scheduledWait hnext] at hbounds
    cases hext with
    | follows hstreet => simp [hride] at hstreet
    | meets _ hstreet => simp [hscheduled] at hstreet
    | connects _ _ hmin hmax => exact hbounds ⟨hmin, hmax⟩

/-- What an extension makes of a sequence it makes, mirrored, of the mirror image. -/
theorem extend (h : MirrorImage c s image) (hnext : next.MirrorImage c next')
    {minWait maxWait : Int} {result result' : Option Sequence}
    (hok : s.extend next minWait maxWait = .ok result)
    (hok' : image.extend next' minWait maxWait = .ok result') :
    Option.Rel (MirrorImage c) result result' := by
  cases result with
  | none =>
    cases result' with
    | none => exact .none
    | some t' => exact absurd hok (h.symm.extend_ne_none hnext.symm hok')
  | some t =>
    cases result' with
    | none => exact absurd hok' (h.extend_ne_none hnext hok)
    | some t' => exact .some (h.of_extends hnext (extend_cases hok).2 (extend_cases hok').2)

/-- What several extensions make of a sequence they make, mirrored, of the mirror image. -/
theorem extendBy (h : MirrorImage c s image) {additions additions' : List Addition}
    (hadded : List.Forall₂ (Addition.MirrorImage c) additions additions')
    {result result' : Option Sequence} (hok : s.extendBy additions = .ok result)
    (hok' : image.extendBy additions' = .ok result') :
    Option.Rel (MirrorImage c) result result' := by
  induction hadded generalizing s image with
  | nil =>
    cases hok
    cases hok'
    exact .some h
  | @cons added added' _ _ hfirst _ ih =>
    obtain ⟨r, hr, hrest⟩ := bind_eq_ok_iff.1 hok
    obtain ⟨r', hr', hrest'⟩ := bind_eq_ok_iff.1 hok'
    rw [hfirst.minWait, hfirst.maxWait] at hr'
    cases h.extend hfirst.next hr hr' with
    | none =>
      cases hrest
      cases hrest'
      exact .none
    | some hnext => exact ih hnext hrest hrest'

end MirrorImage

end Sequence

/-! ### Placed legs -/

namespace Placed

/-- Legs placed in opposite directions that are mirror images. -/
structure MirrorImage (c : Int) (placed image : Placed) : Prop where
  /-- The legs are mirror images. -/
  legs : Leg.MirrorRun c placed.legs image.legs
  /-- The growing ends are reflections. -/
  frontier : Instant.MirrorImage c placed.frontier image.frontier
  /-- All of both stay on the street, or some of both ride transit. -/
  streetOnly : image.streetOnly = placed.streetOnly

/-- Runs that are attached at opposite ends to mirror images make mirror images. -/
theorem mirrorRun_attach (direction : Direction) {c : Int} {placed image added added' : List Leg}
    (hplaced : Leg.MirrorRun c placed image) (hadded : Leg.MirrorRun c added added') :
    Leg.MirrorRun c (attach direction placed added) (attach direction.opposite image added') := by
  cases direction with
  | departAt => exact hplaced.append hadded
  | arriveBy => exact hadded.append hplaced

namespace MirrorImage

variable {c : Int} {placed image next next' : Placed} {direction : Direction} {link link' : Link}

/-- Members that are mirror images have to move by opposite spans. -/
theorem gap_eq (direction : Direction) (hmember : link.member.MirrorImage c link'.member)
    {due due' : Instant} (hdue : Instant.MirrorImage c due due') :
    gap direction.opposite link' due' = -gap direction link due :=
  hdue.since_eq_neg (hmember.nearTime direction)

/-- One more member is placed in the same form on both sides, which makes mirror images
again. -/
theorem joins (h : MirrorImage c placed image) (hwait : link'.wait = link.wait)
    (hmember : link.member.MirrorImage c link'.member) (hjoin : placed.Joins direction link next)
    (hjoin' : image.Joins direction.opposite link' next') : MirrorImage c next next' := by
  have hstreetOnly := hmember.isStreetOnly_eq
  cases hjoin with
  | follows hstreet hdue hadded hfrontier =>
    cases hjoin' with
    | follows _ hdue' hadded' hfrontier' =>
      rw [hwait, Direction.sign_opposite, Int.mul_neg] at hdue'
      have hopposite := gap_eq direction hmember (h.frontier.of_shift hdue hdue' rfl)
      exact ⟨mirrorRun_attach direction h.legs (hmember.legs.of_shiftLegs hadded hadded' hopposite),
        (hmember.farTime direction).of_shift hfrontier hfrontier' hopposite, h.streetOnly⟩
    | meets hride | connects hride => simp [hstreetOnly, hstreet] at hride
  | meets hride hstreet hdue hbefore =>
    cases hjoin' with
    | follows hstreet' => simp [hstreetOnly, hride] at hstreet'
    | meets _ _ hdue' hbefore' =>
      rw [hwait, Direction.sign_opposite, Int.mul_neg] at hdue'
      have hopposite := gap_eq direction hmember (h.frontier.of_shift hdue hdue' rfl)
      have hmoved := h.legs.of_shiftLegs hbefore hbefore' (congrArg Neg.neg hopposite)
      exact ⟨mirrorRun_attach direction hmoved hmember.legs, hmember.farTime direction, rfl⟩
    | connects _ hscheduled => simp [h.streetOnly, hstreet] at hscheduled
  | connects hride hscheduled =>
    cases hjoin' with
    | follows hstreet' => simp [hstreetOnly, hride] at hstreet'
    | meets _ hstreet' => simp [h.streetOnly, hscheduled] at hstreet'
    | connects =>
      exact ⟨mirrorRun_attach direction h.legs hmember.legs, hmember.farTime direction, rfl⟩

/-- The legs of all members are placed as mirror images. -/
theorem joinAll (h : MirrorImage c placed image) {links links' : List Link}
    (hlinks : List.Forall₂
      (fun link link' => link'.wait = link.wait ∧ link.member.MirrorImage c link'.member)
      links links')
    (hok : placed.joinAll direction links = .ok next)
    (hok' : image.joinAll direction.opposite links' = .ok next') : MirrorImage c next next' := by
  induction hlinks generalizing placed image with
  | nil =>
    cases hok
    cases hok'
    exact h
  | cons hlink _ ih =>
    obtain ⟨joined, hjoin, hrest⟩ := bind_eq_ok_iff.1 hok
    obtain ⟨joined', hjoin', hrest'⟩ := bind_eq_ok_iff.1 hok'
    exact ih (h.joins hlink.1 hlink.2 (join_cases hjoin) (join_cases hjoin')) hrest hrest'

end MirrorImage

end Placed

/-! ### The itinerary of a sequence -/

namespace Sequence

/-- The properties of an itinerary that are summed up from the members of a sequence. -/
structure SumsUp (s : Sequence) (flat : Candidate) : Prop where
  /-- The costs are added. -/
  cost : sumCosts (s.grown.map fun c => c.cost) = .ok flat.cost
  /-- The metres climbed are added. -/
  climb : flat.climb = Quantity.sum (s.grown.map fun c => c.climb)
  /-- The metres descended are added. -/
  descent : flat.descent = Quantity.sum (s.grown.map fun c => c.descent)
  /-- A limit is exceeded if one of the members exceeds it. -/
  limitExceeded : flat.limitExceeded = s.grown.any fun c => c.limitExceeded
  /-- It is too steep if one of the members is. -/
  tooSloped : flat.tooSloped = s.grown.any fun c => c.tooSloped
  /-- It carries no notice. -/
  notices : flat.notices = []

/-- Several members are summed up, and a single one stays what it is. -/
theorem summed_of_flatten {s : Sequence} {identity : Identity} {flat : Candidate}
    (hok : s.flatten identity = .ok flat) :
    s.links = [] ∧ flat = s.first ∨ s.links ≠ [] ∧ s.SumsUp flat := by
  unfold flatten at hok
  split at hok
  · rename_i hlinks
    exact Or.inl ⟨List.isEmpty_iff.1 hlinks, (Except.ok.inj hok).symm⟩
  · rename_i hlinks
    obtain ⟨placed, -, hok⟩ := bind_eq_ok_iff.1 hok
    obtain ⟨it, -, hok⟩ := bind_eq_ok_iff.1 hok
    obtain ⟨cost, hcost, hok⟩ := bind_eq_ok_iff.1 hok
    cases hok
    exact Or.inr ⟨mt List.isEmpty_iff.2 hlinks, ok_of_mapError hcost, rfl, rfl, rfl, rfl, rfl⟩

namespace MirrorImage

variable {c : Int} {s image : Sequence}

/-- The legs of mirror images are placed as mirror images. -/
theorem place (h : MirrorImage c s image) {placed placed' : Placed}
    (hok : s.place = .ok placed) (hok' : image.place = .ok placed') :
    placed.MirrorImage c placed' := by
  unfold Sequence.place at hok hok'
  rw [h.direction] at hok'
  have hstart : (Placed.start s.direction s.first).MirrorImage c
      (Placed.start s.direction.opposite image.first) :=
    ⟨h.first.legs, h.first.farTime s.direction, h.first.isStreetOnly_eq⟩
  exact hstart.joinAll h.links hok hok'

/-- What mirror images keep is the same for the members of both. -/
theorem map_grown {α : Type} (h : MirrorImage c s image) {f : Candidate → α}
    (hf : ∀ {it it' : Candidate}, it.MirrorImage c it' → f it' = f it) :
    image.grown.map f = s.grown.map f := by
  have hgrown := h.grown
  generalize s.grown = members at hgrown ⊢
  generalize image.grown = images at hgrown ⊢
  induction hgrown with
  | nil => rfl
  | cons hmember _ ih => rw [List.map_cons, List.map_cons, hf hmember, ih]

/-- The itinerary of a mirror image is the mirror image of the itinerary. -/
theorem flatten (h : MirrorImage c s image) {identity identity' : Identity}
    {flat flat' : Candidate} (hok : s.flatten identity = .ok flat)
    (hok' : image.flatten identity' = .ok flat') : flat.MirrorImage c flat' := by
  have hlength := h.links.length_eq
  rcases summed_of_flatten hok with ⟨hlinks, rfl⟩ | ⟨hlinks, hsums⟩
  · rcases summed_of_flatten hok' with ⟨-, rfl⟩ | ⟨hlinks', -⟩
    · exact h.first
    · rw [hlinks, List.length_nil, eq_comm, List.length_eq_zero_iff] at hlength
      exact absurd hlength hlinks'
  · rcases summed_of_flatten hok' with ⟨hlinks', -⟩ | ⟨-, hsums'⟩
    · rw [hlinks', List.length_nil, List.length_eq_zero_iff] at hlength
      exact absurd hlength hlinks
    · obtain ⟨placed, hplaced, hlegs⟩ := legs_of_flatten hok
      obtain ⟨placed', hplaced', hlegs'⟩ := legs_of_flatten hok'
      constructor
      · rw [hlegs, hlegs']
        exact (h.place hplaced hplaced').legs
      · have hcost := hsums'.cost
        rw [h.map_grown fun hmember => hmember.cost, hsums.cost] at hcost
        exact (Except.ok.inj hcost).symm
      · rw [hsums'.climb, hsums.climb, h.map_grown fun hmember => hmember.climb]
      · rw [hsums'.descent, hsums.descent, h.map_grown fun hmember => hmember.descent]
      · have hflags := h.map_grown fun hmember => hmember.limitExceeded
        rw [hsums'.limitExceeded, hsums.limitExceeded]
        simpa [List.any_map, Function.comp_def] using congrArg (fun flags => flags.any id) hflags
      · have hflags := h.map_grown fun hmember => hmember.tooSloped
        rw [hsums'.tooSloped, hsums.tooSloped]
        simpa [List.any_map, Function.comp_def] using congrArg (fun flags => flags.any id) hflags
      · rw [hsums'.notices, hsums.notices]

end MirrorImage

/-- What a traveller sees of two sequences is mirrored: their times, the waits in the order of
growth and the itineraries they come to. -/
structure LooksMirrored (c : Int) (s image : Sequence) : Prop where
  /-- The end is reflected at the start. -/
  start : Instant.MirrorImage c s.finish image.start
  /-- The start is reflected at the end. -/
  finish : Instant.MirrorImage c s.start image.finish
  /-- The waits are the same, as the sequences grow. -/
  waits : image.links.map Link.wait = s.links.map Link.wait
  /-- Both have itineraries, unless there is a fault, and these are mirror images. -/
  flatten : ∀ identity identity', (∀ cause, s.flatten identity ≠ .error (.fault cause)) →
    (∀ cause, image.flatten identity' ≠ .error (.fault cause)) →
    ∃ flat flat', s.flatten identity = .ok flat ∧ image.flatten identity' = .ok flat' ∧
      flat.MirrorImage c flat'

/-- Mirror images that have grown by extensions look mirrored. -/
theorem MirrorImage.looksMirrored {c : Int} {s image : Sequence} (h : MirrorImage c s image)
    (hs : s.Grown) (himage : image.Grown) : s.LooksMirrored c image where
  start := h.start
  finish := h.finish
  waits := by
    have hlinks := h.links
    generalize s.links = links at hlinks ⊢
    generalize image.links = links' at hlinks ⊢
    induction hlinks with
    | nil => rfl
    | cons hlink _ ih => rw [List.map_cons, List.map_cons, hlink.1, ih]
  flatten := by
    intro identity identity' hfault hfault'
    obtain ⟨flat, hflat⟩ := hs.exists_flat identity hfault
    obtain ⟨flat', hflat'⟩ := himage.exists_flat identity' hfault'
    exact ⟨flat, flat', hflat, hflat', h.flatten hflat hflat'⟩

/-- Unless a time leaves the calendar, itineraries compose in one direction exactly if their
mirror images compose in the opposite one, and then the two sequences look mirrored. -/
theorem compose_mirrors {c : Int} (direction : Direction) {first first' : Candidate}
    {additions additions' : List Addition} (hfirst : first.MirrorImage c first')
    (hadded : List.Forall₂ (Addition.MirrorImage c) additions additions')
    (hmin : ∀ added ∈ additions, 0 ≤ added.minWait)
    (hfault : ∀ cause, compose direction first additions ≠ .error cause)
    (hfault' : ∀ cause, compose direction.opposite first' additions' ≠ .error cause) :
    (compose direction first additions = .ok none ∧
      compose direction.opposite first' additions' = .ok none) ∨
    ∃ s image, compose direction first additions = .ok (some s) ∧
      compose direction.opposite first' additions' = .ok (some image) ∧
      s.LooksMirrored c image := by
  obtain ⟨result, hresult⟩ := exists_ok hfault
  obtain ⟨result', hresult'⟩ := exists_ok hfault'
  have hmirror := (MirrorImage.single direction hfirst).extendBy hadded hresult hresult'
  have hback : List.Forall₂ (Addition.MirrorImage c) additions' additions :=
    (hadded.imp fun _ _ h => h.symm).flip
  rw [hresult, hresult']
  cases hmirror with
  | none => exact Or.inl ⟨rfl, rfl⟩
  | @some s image h =>
    have hs : s.Grown := by
      refine (Grown.single hfirst.linear).extendBy (fun added hmem => ?_) hmin hresult
      obtain ⟨added', -, hadded'⟩ := exists_of_forall₂ hback hmem
      exact hadded'.symm.next.linear
    have himage : image.Grown := by
      refine (Grown.single hfirst.symm.linear).extendBy (fun added' hmem => ?_)
        (fun added' hmem => ?_) hresult'
      · obtain ⟨added, -, hadded'⟩ := exists_of_forall₂ hadded hmem
        exact hadded'.symm.next.linear
      · obtain ⟨added, hmem', hadded'⟩ := exists_of_forall₂ hadded hmem
        rw [hadded'.minWait]
        exact hmin added hmem'
    exact Or.inr ⟨s, image, rfl, rfl, h.looksMirrored hs himage⟩

/-- A single leg between two of the stops in a row. -/
def between (mode : Mode) (origin destination : Fin 4) (start finish : Fin 1440) :
    Candidate :=
  .ofLeg 0 (.onDay mode (.inRow origin) (.inRow destination) start finish)

/-- A bus, a walk and another bus behind a walk. -/
private def outward : List Addition :=
  [⟨between .bus 1 2 500 520, Span.minutes 5, Span.minutes 5⟩,
    ⟨between .walk 2 3 300 312, Span.minutes 3, Span.minutes 9⟩,
    ⟨between .bus 3 0 560 600, Span.minutes 20, Span.minutes 60⟩]

/-- The way back, with each time taken from a thousand minutes. -/
private def homeward : List Addition :=
  [⟨between .bus 2 1 480 500, Span.minutes 5, Span.minutes 5⟩,
    ⟨between .walk 3 2 688 700, Span.minutes 3, Span.minutes 9⟩,
    ⟨between .bus 0 3 400 440, Span.minutes 20, Span.minutes 60⟩]

/-- The way out and the way back look mirrored, each with three more itineraries behind the first
and the same waits in front of these. -/
theorem outward_mirrors_homeward :
    (between .walk 0 1 400 410).MirrorImage (Span.minutes 1000) (between .walk 1 0 590 600) ∧
    List.Forall₂ (Addition.MirrorImage (Span.minutes 1000)) outward homeward ∧
    (∀ added ∈ outward, 0 ≤ added.minWait) ∧
    (∀ cause, compose .departAt (between .walk 0 1 400 410) outward ≠ .error cause) ∧
    (∀ cause, compose .arriveBy (between .walk 1 0 590 600) homeward ≠ .error cause) ∧
    ∃ s image, compose .departAt (between .walk 0 1 400 410) outward = .ok (some s) ∧
      compose .arriveBy (between .walk 1 0 590 600) homeward = .ok (some image) ∧
      s.LooksMirrored (Span.minutes 1000) image ∧
      s.links.map Link.wait = [Span.minutes 5, Span.minutes 3, Span.minutes 25] ∧
      image.links.map Link.wait = [Span.minutes 5, Span.minutes 3, Span.minutes 25] := by
  have hfirst : (between .walk 0 1 400 410).MirrorImage (Span.minutes 1000)
      (between .walk 1 0 590 600) :=
    ⟨.cons ⟨by decide, rfl⟩ .nil, rfl, rfl, rfl, rfl, rfl, rfl⟩
  have hadded : List.Forall₂ (Addition.MirrorImage (Span.minutes 1000)) outward homeward := by
    refine .cons ⟨?_, rfl, rfl⟩ (.cons ⟨?_, rfl, rfl⟩ (.cons ⟨?_, rfl, rfl⟩ .nil))
    all_goals exact ⟨.cons ⟨by decide, rfl⟩ .nil, rfl, rfl, rfl, rfl, rfl, rfl⟩
  have hmin : ∀ added ∈ outward, 0 ≤ added.minWait := by decide
  have hfault := ne_error_of_toBool
    (x := compose .departAt (between .walk 0 1 400 410) outward) (by decide)
  have hfault' := ne_error_of_toBool
    (x := compose .arriveBy (between .walk 1 0 590 600) homeward) (by decide)
  have hwaits : (compose .departAt (between .walk 0 1 400 410) outward).map
      (Option.map fun s => s.links.map Link.wait) =
        .ok (some [Span.minutes 5, Span.minutes 3, Span.minutes 25]) := by decide
  have hwaits' : (compose .arriveBy (between .walk 1 0 590 600) homeward).map
      (Option.map fun s => s.links.map Link.wait) =
        .ok (some [Span.minutes 5, Span.minutes 3, Span.minutes 25]) := by decide
  refine ⟨hfirst, hadded, hmin, hfault, hfault', ?_⟩
  rcases compose_mirrors .departAt hfirst hadded hmin hfault hfault' with
    ⟨hnone, -⟩ | ⟨s, image, hs, himage, hmirrored⟩
  · rw [hnone] at hwaits
    cases hwaits
  · rw [hs] at hwaits
    rw [Direction.opposite] at himage
    rw [himage] at hwaits'
    exact ⟨s, image, hs, himage, hmirrored, Option.some.inj (Except.ok.inj hwaits),
      Option.some.inj (Except.ok.inj hwaits')⟩

end Sequence

end JourneyPlanner.Composition
