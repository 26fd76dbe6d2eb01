import JourneyPlanner.Proofs.LinearTime
import JourneyPlanner.Proofs.Replaying

/-!
# What a replay answers

The answer of a replay as a whole: which of the known itineraries it consists of, in which
order, and what is reported when there is none. Of the four questions, the one about the day
is the only one that is not about a single itinerary: an itinerary can be found because of
another one that runs on the day, and a departure shortly after midnight is missed by a query
of the evening before.
-/

namespace JourneyPlanner.Search

/-- An itinerary lies on the right side of the time asked for: it departs no earlier, or
arrives no later. -/
def Query.InTime (query : Query) (c : Candidate) : Prop :=
  if query.arriveBy then c.finish ≤ query.window.anchor true
  else query.window.anchor false ≤ c.start

instance (query : Query) (c : Candidate) : Decidable (query.InTime c) :=
  inferInstanceAs (Decidable (if query.arriveBy then _ else _))

/-- The first of the four questions that no known itinerary answers, and what is reported
because of it. -/
inductive Stumbles (known : List Candidate) (query : Query) : RoutingError → Prop
  /-- Nothing starts at the origin. -/
  | origin (hnone : ∀ c ∈ known, query.origin.isAt c.origin = false) :
      Stumbles known query ⟨.noStopsInRange, some .origin⟩
  /-- Something starts there, but none of that ends at the destination. -/
  | destination (hsome : ∃ c ∈ known, query.origin.isAt c.origin = true)
      (hnone : ∀ c ∈ known, ¬query.Answers c.toItinerary) :
      Stumbles known query ⟨.noStopsInRange, some .destination⟩
  /-- Something runs between the two, but not on the day. -/
  | service (hsome : ∃ c ∈ known, query.Answers c.toItinerary)
      (hnone : ¬HasService known query) :
      Stumbles known query ⟨.outsideServicePeriod, some .time⟩
  /-- Something runs between the two on the day, but nothing on the right side of the time. -/
  | connection (hsome : HasService known query)
      (hnone : ∀ c ∈ known, query.Answers c.toItinerary → ¬query.InTime c) :
      Stumbles known query ⟨.noTransitConnection, none⟩

variable {known : List Candidate} {query : Query} {c : Candidate} {error : RoutingError}

/-- The time is asked about as it is meant. -/
theorem fitsAnchor_iff : fitsAnchor query c = true ↔ query.InTime c := by
  unfold fitsAnchor Query.InTime
  cases query.arriveBy <;> simp

/-- Something between the two locations on the day runs between the two locations. -/
theorem HasService.exists_answers (h : HasService known query) :
    ∃ c ∈ known, query.Answers c.toItinerary := by
  obtain ⟨c, hc, hanswers, -⟩ := h
  exact ⟨c, hc, hanswers⟩

/-- Both questions about the locations and the one about the time, asked one after the other,
come to a single filter. -/
theorem filter_found (known : List Candidate) (query : Query) :
    ((known.filter fun c => query.origin.isAt c.origin).filter
        (fun c => query.destination.isAt c.destination)).filter (fitsAnchor query) =
      known.filter fun c => query.Answers c.toItinerary ∧ query.InTime c := by
  rw [List.filter_filter, List.filter_filter]
  refine List.filter_congr fun c _ => ?_
  have hfits : (fitsAnchor query c && query.destination.isAt c.destination &&
      query.origin.isAt c.origin) = true ↔ query.Answers c.toItinerary ∧ query.InTime c := by
    rw [Bool.and_eq_true, Bool.and_eq_true, fitsAnchor_iff]
    exact ⟨fun ⟨⟨htime, hdestination⟩, horigin⟩ => ⟨⟨horigin, hdestination⟩, htime⟩,
      fun ⟨⟨horigin, hdestination⟩, htime⟩ => ⟨⟨htime, hdestination⟩, horigin⟩⟩
  rw [Bool.eq_iff_iff, hfits, decide_eq_true_iff]

/-- A replay either stumbles on one of the questions or answers with what it finds, of which
there is something. -/
theorem replay_cases (known : List Candidate) (query : Query) :
    (∃ error, Stumbles known query error ∧
      replay known query = .failed error.code error.field) ∨
    (HasService known query ∧ (∃ c ∈ known, query.Answers c.toItinerary ∧ query.InTime c) ∧
      replay known query =
        ⟨known.filter fun c => query.Answers c.toItinerary ∧ query.InTime c, [],
          windowUsed? query.window, []⟩) := by
  unfold replay
  dsimp only
  rw [filter_found]
  split_ifs with horigin hbetween hday hfound
  · rw [List.isEmpty_iff, List.filter_eq_nil_iff] at horigin
    exact .inl ⟨_, .origin fun c hc => Bool.not_eq_true _ ▸ horigin c hc, rfl⟩
  · obtain ⟨c, hc⟩ := List.exists_mem_of_ne_nil _ (mt List.isEmpty_iff.2 horigin)
    rw [List.mem_filter] at hc
    rw [List.isEmpty_iff] at hbetween
    refine .inl ⟨_, .destination ⟨c, hc⟩ fun d hd hanswers => ?_, rfl⟩
    exact List.ne_nil_of_mem (mem_between_iff.2 ⟨hd, hanswers⟩) hbetween
  · obtain ⟨c, hc⟩ := List.exists_mem_of_ne_nil _ (mt List.isEmpty_iff.2 hbetween)
    rw [Bool.not_eq_true', List.any_eq_false] at hday
    refine .inl ⟨_, .service ⟨c, mem_between_iff.1 hc⟩ fun ⟨d, hd, hanswers, hruns⟩ => ?_, rfl⟩
    exact hday d (mem_between_iff.2 ⟨hd, hanswers⟩) hruns
  all_goals
    rw [Bool.not_eq_true, Bool.not_eq_false', List.any_eq_true] at hday
    have hservice : HasService known query := by
      obtain ⟨d, hd, hruns⟩ := hday
      obtain ⟨hdknown, hanswers⟩ := mem_between_iff.1 hd
      exact ⟨d, hdknown, hanswers, hruns⟩
  · rw [List.isEmpty_iff, List.filter_eq_nil_iff] at hfound
    refine .inl ⟨_, .connection hservice fun c hc hanswers htime => ?_, rfl⟩
    exact hfound c hc (decide_eq_true ⟨hanswers, htime⟩)
  · obtain ⟨c, hc⟩ := List.exists_mem_of_ne_nil _ (mt List.isEmpty_iff.2 hfound)
    rw [List.mem_filter, decide_eq_true_iff] at hc
    exact .inr ⟨hservice, ⟨c, hc⟩, rfl⟩

/-- What is reported is determined by the known itineraries and the query. -/
theorem Stumbles.unique {other : RoutingError} (h : Stumbles known query error)
    (hother : Stumbles known query other) : error = other := by
  have hfrom : (∃ c ∈ known, query.Answers c.toItinerary) →
      ∃ c ∈ known, query.origin.isAt c.origin = true :=
    fun ⟨c, hc, hanswers⟩ => ⟨c, hc, hanswers.1⟩
  -- Each question after another one presupposes that the other one was answered.
  cases h <;> cases hother <;> first | rfl | (exfalso; grind [HasService.exists_answers])

/-- What is wanted is not found if a question has failed. -/
theorem Stumbles.not_found (h : Stumbles known query error) :
    ¬(HasService known query ∧
      ∃ c ∈ known, query.Answers c.toItinerary ∧ query.InTime c) := by
  rintro ⟨hservice, c, hc, hanswers, htime⟩
  cases h with
  | origin hnone => exact absurd hanswers.1 (by rw [hnone c hc]; decide)
  | destination _ hnone => exact hnone c hc hanswers
  | service _ hnone => exact hnone hservice
  | connection _ hnone => exact hnone c hc hanswers htime

/-- If there is service on the day, a replay answers with the known itineraries between the two
locations on the right side of the time, in their order, and otherwise with none. It reports
nothing beside itineraries, and without any exactly one error: the first question that failed. -/
theorem replay_itineraries_and_errors (known : List Candidate) (query : Query) :
    (replay known query).itineraries =
        (if HasService known query then
          known.filter fun c => query.Answers c.toItinerary ∧ query.InTime c
        else []) ∧
      ((replay known query).itineraries ≠ [] → (replay known query).routingErrors = []) ∧
      ((replay known query).itineraries = [] →
        ∃ error, (replay known query).routingErrors = [error]) ∧
      ∀ error, (replay known query).routingErrors = [error] ↔ Stumbles known query error := by
  rcases replay_cases known query with ⟨error, hstumbles, heq⟩ | ⟨hservice, ⟨c, hc, hwanted⟩, heq⟩
  · have hreport : (replay known query).routingErrors = [error] := by rw [heq]; rfl
    have hnone : (replay known query).itineraries = [] := by rw [heq]; rfl
    refine ⟨?_, fun hsome => absurd hnone hsome, fun _ => ⟨error, hreport⟩, fun other => ?_⟩
    · rw [hnone]
      split_ifs with hservice
      · refine (List.filter_eq_nil_iff.2 fun c hc hwanted => ?_).symm
        exact hstumbles.not_found ⟨hservice, c, hc, of_decide_eq_true hwanted⟩
      · rfl
    · rw [hreport, List.cons.injEq, and_iff_left rfl]
      exact ⟨fun hsame => hsame ▸ hstumbles, hstumbles.unique⟩
  · have hmem : c ∈ (replay known query).itineraries := by
      rw [heq]
      exact List.mem_filter.2 ⟨hc, decide_eq_true hwanted⟩
    have hreport : (replay known query).routingErrors = [] := by rw [heq]
    refine ⟨by rw [heq, if_pos hservice], fun _ => hreport,
      fun hnone => absurd hnone (List.ne_nil_of_mem hmem), fun other => ?_⟩
    constructor
    · intro hsome
      rw [hreport] at hsome
      cases hsome
    · intro hother
      exact absurd ⟨hservice, c, hc, hwanted⟩ hother.not_found

/-- A bus that leaves five minutes after midnight. -/
private def firstBus : Candidate :=
  .ofLeg 0 { Leg.onDay .bus (.inRow 0) (.inRow 1) 0 0 with
    start := .atStartOf 1445 (by decide), finish := .atStartOf 1460 (by decide) }

/-- A bus that has left in the morning before. -/
private def goneBus : Candidate :=
  .ofLeg 1 (.onDay .bus (.inRow 0) (.inRow 1) 480 510)

/-- A query for departures from ten minutes before midnight. -/
private def lateEvening : Query where
  origin := .ofPlace (.inRow 0)
  destination := .ofPlace (.inRow 1)
  arriveBy := false
  window := .unbounded (.ofMinute 1430) none
  modes := .default

/-- A departure a quarter of an hour after the time asked for is not found across midnight,
unless another one between the two locations, itself too early, runs on the day asked for. -/
theorem replay_misses_next_day :
    lateEvening.Answers firstBus.toItinerary ∧ lateEvening.InTime firstBus ∧
      firstBus ∉ (replay [firstBus] lateEvening).itineraries ∧
      ¬lateEvening.InTime goneBus ∧
      firstBus ∈ (replay [firstBus, goneBus] lateEvening).itineraries := by
  refine ⟨by decide, by decide, fun hfound => ?_, by decide, ?_⟩
  · exact absurd (mem_replay_iff.1 hfound).2.2.2 (by decide +kernel)
  · exact mem_replay_iff.2 ⟨by simp, by decide, by decide, by decide +kernel⟩

end JourneyPlanner.Search
