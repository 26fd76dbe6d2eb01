import JourneyPlanner.Proofs.Bridging
import JourneyPlanner.Proofs.Windows
import JourneyPlanner.Search.Replay

/-!
# What a replay finds

A replay asks four questions in order, and the first that fails decides what it reports. Read
from its answer, an itinerary is found exactly if it is known, runs between the two locations
and lies on the right side of the time, and if anything between them runs on the day.
-/

namespace JourneyPlanner.Search

instance (query : Query) (it : Itinerary) : Decidable (query.Answers it) :=
  inferInstanceAs (Decidable (_ ∧ _))

/-- Some itinerary known between the two locations runs on the day asked for. -/
def HasService (known : List Candidate) (query : Query) : Prop :=
  ∃ c ∈ known, query.Answers c.toItinerary ∧ runsOnDay query c = true

instance (known : List Candidate) (query : Query) : Decidable (HasService known query) :=
  inferInstanceAs (Decidable (∃ c ∈ known, _ ∧ _))

variable {known : List Candidate} {query : Query} {c : Candidate}

/-- An itinerary lies on the right side of the time exactly if its near end follows it. -/
theorem fitsAnchor_iff_follows {direction : Composition.Direction}
    (hdirection : query.arriveBy = direction.isArriveBy) : fitsAnchor query c = true ↔
      direction.Follows (query.window.anchor query.arriveBy)
        (direction.nearTime c.toItinerary) := by
  unfold fitsAnchor
  rw [hdirection]
  cases direction
  · exact decide_eq_true_iff
  · exact decide_eq_true_iff

/-- The known itineraries that run between the two locations. -/
theorem mem_between_iff :
    c ∈ (known.filter fun c => query.origin.isAt c.origin).filter
        (fun c => query.destination.isAt c.destination) ↔
      c ∈ known ∧ query.Answers c.toItinerary := by
  rw [List.mem_filter, List.mem_filter, and_assoc]
  rfl

/-- A replay finds what runs between the two locations on the right side of the time, if there
is service on the day. -/
theorem mem_replay_iff :
    c ∈ (replay known query).itineraries ↔
      c ∈ known ∧ query.Answers c.toItinerary ∧ fitsAnchor query c = true ∧
        HasService known query := by
  constructor
  · intro hc
    unfold replay at hc
    dsimp only at hc
    split_ifs at hc with _ _ hday
    · cases hc
    · cases hc
    · cases hc
    · cases hc
    · obtain ⟨hbetween, hfits⟩ := List.mem_filter.1 hc
      obtain ⟨hknown, hanswers⟩ := mem_between_iff.1 hbetween
      rw [Bool.not_eq_true, Bool.not_eq_false', List.any_eq_true] at hday
      obtain ⟨d, hd, hday⟩ := hday
      obtain ⟨hdknown, hdanswers⟩ := mem_between_iff.1 hd
      exact ⟨hknown, hanswers, hfits, d, hdknown, hdanswers, hday⟩
  · rintro ⟨hknown, hanswers, hfits, d, hdknown, hdanswers, hday⟩
    have hbetween := mem_between_iff.2 ⟨hknown, hanswers⟩
    have hfrom := List.mem_of_mem_filter hbetween
    have hfound := List.mem_filter.2 ⟨hbetween, hfits⟩
    have hservice := List.any_eq_true.2 ⟨d, mem_between_iff.2 ⟨hdknown, hdanswers⟩, hday⟩
    unfold replay
    dsimp only
    rw [if_neg (by simpa using List.ne_nil_of_mem hfrom),
      if_neg (by simpa using List.ne_nil_of_mem hbetween), if_neg (by rw [hservice]; simp),
      if_neg (by simpa using List.ne_nil_of_mem hfound)]
    exact hfound

/-- A replay that finds anything reports the length of the window. -/
theorem windowUsed_replay (hc : c ∈ (replay known query).itineraries) :
    (replay known query).windowUsed = windowUsed? query.window := by
  unfold replay at hc ⊢
  dsimp only at hc ⊢
  split_ifs at hc ⊢
  · cases hc
  · cases hc
  · cases hc
  · cases hc
  · rfl

end JourneyPlanner.Search
