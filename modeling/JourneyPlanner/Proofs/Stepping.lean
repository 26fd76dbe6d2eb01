import JourneyPlanner.Composition.Assembly
import JourneyPlanner.Proofs.Outcomes

/-!
# Steps of an assembly

In the order of growth the junction of each step leads from one stopover of the route
to the next, and what is found joins at the first of the two. This holds in both
directions and is all that is ever used of how an assembly counts its steps.
-/

namespace JourneyPlanner.Composition

open Journey (RequestError Stopover)

namespace Junction

/-- The stopover that sequences reach with what is found. -/
def reachedEnd (direction : Direction) (junction : Junction) : Stopover :=
  match direction with
  | .departAt => junction.destination
  | .arriveBy => junction.origin

/-- There is one junction fewer than stopovers. -/
theorem length_along (route : List Stopover) : (along route).length = route.length - 1 := by
  fun_induction along route with
  | case1 a b rest ih => simpa using ih
  | case2 route hshort =>
    match route, hshort with
    | [], _ => rfl
    | [a], _ => rfl
    | a :: b :: rest, hshort => exact absurd rfl (hshort a b rest)

/-- A junction leads from a stopover to the next one. -/
theorem getElem?_along {route : List Stopover} {index : Nat} {junction : Junction}
    (h : (along route)[index]? = some junction) :
    route[index]? = some junction.origin ∧ route[index + 1]? = some junction.destination := by
  fun_induction along route generalizing index with
  | case1 a b rest ih =>
    cases index with
    | zero =>
      cases h
      exact ⟨rfl, rfl⟩
    | succ index => exact ih h
  | case2 => simp at h

/-- In the order of growth a junction leads from where sequences join to the next stopover. -/
theorem getElem?_junctions {direction : Direction} {route : List Stopover} {index : Nat}
    {junction : Junction} (h : (direction.inTravelOrder (along route))[index]? = some junction) :
    (direction.inTravelOrder route)[index]? = some (junction.mergeEnd direction) ∧
      (direction.inTravelOrder route)[index + 1]? = some (junction.reachedEnd direction) := by
  cases direction with
  | departAt => exact getElem?_along h
  | arriveBy =>
    simp only [Direction.inTravelOrder, mergeEnd, reachedEnd] at *
    have hindex : index < (along route).length := by
      simpa using (List.getElem?_eq_some_iff.1 h).1
    rw [List.getElem?_reverse hindex] at h
    rw [length_along] at hindex h
    obtain ⟨horigin, hdestination⟩ := getElem?_along h
    rw [List.getElem?_reverse (by omega), List.getElem?_reverse (by omega), ← horigin,
      ← hdestination]
    constructor <;> congr 1 <;> omega

end Junction

namespace Assembly

/-- Going on leaves the junctions as they are. -/
@[simp] theorem advance_junctions (a : Assembly) : a.advance.junctions = a.junctions := by
  unfold advance
  split
  · rfl
  · rfl

/-- Going on leaves the sequences as they are. -/
@[simp] theorem advance_sequences (a : Assembly) : a.advance.sequences = a.sequences := by
  unfold advance
  split
  · rfl
  · rfl

/-- An assembly along a route that has begun some of its junctions. -/
structure Along (direction : Direction) (route : List Stopover) (begun : Nat)
    (a : Assembly) : Prop where
  /-- It grows in the direction. -/
  direction_eq : a.direction = direction
  /-- Its junctions are those of the route. -/
  junctions_eq : a.junctions = direction.inTravelOrder (Junction.along route)
  /-- So many junctions have been begun. -/
  step_eq : a.step = begun

/-- An assembly begins in front of the first junction, without sequences. -/
theorem along_of_start {direction : Direction} {route : List Stopover} {time : Instant}
    {windowLength : Option Int} {modes : ModeChoice} {a : Assembly}
    (hstart : start direction route time windowLength modes = .ok a) :
    a.Along direction route 0 ∧ a.sequences = [] := by
  unfold start at hstart
  split at hstart
  · cases hstart
  · cases hstart
    exact ⟨⟨rfl, rfl, rfl⟩, rfl⟩

namespace Along

variable {direction : Direction} {route : List Stopover} {begun : Nat} {a : Assembly}

/-- There are as many junctions as the route has. -/
theorem length_junctions (h : a.Along direction route begun) :
    a.junctions.length = route.length - 1 := by
  rw [h.junctions_eq]
  cases direction
  · exact Junction.length_along route
  · exact (List.length_reverse).trans (Junction.length_along route)

/-- A junction is next while not all have been begun. -/
theorem hasNext_iff (h : a.Along direction route begun) :
    a.hasNext = true ↔ begun < a.junctions.length := by
  unfold hasNext
  rw [h.step_eq, decide_eq_true_iff]

/-- An assembly that goes on has begun one more junction, while there are any. -/
theorem advance (h : a.Along direction route begun) (hmore : begun < a.junctions.length) :
    a.advance.Along direction route (begun + 1) := by
  unfold Assembly.advance
  rw [if_pos (h.hasNext_iff.2 hmore), h.step_eq]
  exact ⟨h.direction_eq, h.junctions_eq, rfl⟩

/-- The junction that is being bridged leads from where sequences join, behind the junctions
that were bridged before, to the next stopover. -/
theorem exists_junction (h : a.Along direction route (begun + 1))
    (hbegun : begun < a.junctions.length) :
    ∃ junction, a.junction? = some junction ∧
      (direction.inTravelOrder route)[begun]? = some (junction.mergeEnd direction) ∧
      (direction.inTravelOrder route)[begun + 1]? = some (junction.reachedEnd direction) := by
  obtain ⟨junction, hjunction⟩ : ∃ junction, a.junctions[begun]? = some junction :=
    ⟨a.junctions[begun], List.getElem?_eq_getElem hbegun⟩
  have hbridged : a.junction? = some junction := by
    unfold junction?
    rw [h.step_eq]
    exact hjunction
  rw [h.junctions_eq] at hjunction
  exact ⟨junction, hbridged, Junction.getElem?_junctions hjunction⟩

/-- What is found joins at the stopover behind the junctions that were bridged before. -/
theorem mergeEnd?_eq (h : a.Along direction route (begun + 1))
    (hbegun : begun < a.junctions.length) :
    a.mergeEnd? = (direction.inTravelOrder route)[begun]? := by
  obtain ⟨junction, hjunction, hmergeEnd, -⟩ := h.exists_junction hbegun
  unfold mergeEnd?
  rw [hjunction, hmergeEnd, h.direction_eq]
  rfl

/-- What is found first begins one sequence each. -/
theorem merge_first (h : a.Along direction route 1) (hbegun : 0 < a.junctions.length)
    (found : List Candidate) :
    a.merge found = .ok { a with sequences := found.map (Sequence.single direction) } := by
  obtain ⟨junction, hjunction, -⟩ := h.exists_junction hbegun
  unfold merge mergeEnd? isFirstStep
  rw [hjunction, h.step_eq, h.direction_eq]
  rfl

/-- What is found later extends the sequences, within the waits of the stopover at which it
joins them. -/
theorem merge_later (h : a.Along direction route (begun + 2))
    (hbegun : begun + 1 < a.junctions.length) {stop : Stopover}
    (hstop : (direction.inTravelOrder route)[begun + 1]? = some stop) (found : List Candidate) :
    a.merge found =
      (extendAll found stop.minWait stop.maxWait a.sequences).map fun sequences =>
        { a with sequences := sequences } := by
  have hlater : a.isFirstStep = false := by
    unfold isFirstStep
    rw [h.step_eq]
    simp
  unfold merge
  rw [h.mergeEnd?_eq hbegun, hstop, hlater]
  rfl

/-- Taking in what is found does not begin a junction. -/
theorem of_merge {b : Assembly} {found : List Candidate} (h : a.Along direction route begun)
    (hok : a.merge found = .ok b) : b.Along direction route begun := by
  unfold merge at hok
  split at hok
  · cases hok
    exact h
  · split at hok
    · cases hok
      exact ⟨h.direction_eq, h.junctions_eq, h.step_eq⟩
    · obtain ⟨sequences, -, rfl⟩ := map_eq_ok_iff.1 hok
      exact ⟨h.direction_eq, h.junctions_eq, h.step_eq⟩

end Along

/-- An extension of a sequence by one of some itineraries. -/
theorem mem_extensions {s t : Sequence} {minWait maxWait : Int} {found : List Candidate}
    {extended : List Sequence} (hok : extensions s minWait maxWait found = .ok extended)
    (ht : t ∈ extended) : ∃ next ∈ found, s.extend next minWait maxWait = .ok (some t) := by
  induction found generalizing extended with
  | nil =>
    cases hok
    cases ht
  | cons next rest ih =>
    obtain ⟨first, hfirst, hmore⟩ := bind_eq_ok_iff.1 hok
    obtain ⟨others, hothers, hall⟩ := bind_eq_ok_iff.1 hmore
    cases hall
    rw [List.mem_append, Option.mem_toList] at ht
    rcases ht with rfl | ht
    · exact ⟨next, by simp, hfirst⟩
    · obtain ⟨c, hc, hextend⟩ := ih hothers ht
      exact ⟨c, List.mem_cons_of_mem next hc, hextend⟩

/-- Every extended sequence is an extension of one of the sequences by one of the itineraries
found. -/
theorem mem_extendAll {t : Sequence} {minWait maxWait : Int} {found : List Candidate}
    {sequences extended : List Sequence}
    (hok : extendAll found minWait maxWait sequences = .ok extended) (ht : t ∈ extended) :
    ∃ s ∈ sequences, ∃ next ∈ found, s.extend next minWait maxWait = .ok (some t) := by
  induction sequences generalizing extended with
  | nil =>
    cases hok
    cases ht
  | cons s rest ih =>
    obtain ⟨first, hfirst, hmore⟩ := bind_eq_ok_iff.1 hok
    obtain ⟨others, hothers, hall⟩ := bind_eq_ok_iff.1 hmore
    cases hall
    rcases List.mem_append.1 ht with ht | ht
    · obtain ⟨next, hnext, hextend⟩ := mem_extensions hfirst ht
      exact ⟨s, by simp, next, hnext, hextend⟩
    · obtain ⟨s', hs', hextend⟩ := ih hothers ht
      exact ⟨s', List.mem_cons_of_mem s hs', hextend⟩

end Assembly

end JourneyPlanner.Composition
