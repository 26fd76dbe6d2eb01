import JourneyPlanner.Proofs.Choices
import JourneyPlanner.Proofs.Feasibility
import JourneyPlanner.Proofs.Stepping

/-!
# What an assembly keeps

An assembly that is given what each search has found keeps the feasible combinations
and no others, each once, in the order in which choices are listed. One step is shown
to filter the continuations of the combinations before it, and the run follows by
induction on the searches. Nothing but an instant off the calendar can stop it.
-/

namespace JourneyPlanner

/-- A computation on a clock only fails off the calendar. -/
theorem Instant.shift_eq_error {a : Instant} {span : Int} {cause : Fault}
    (h : a.shift span = .error cause) : cause = .offCalendar := by
  unfold shift at h
  cases hmoved : a.shift? span with
  | none =>
    rw [hmoved] at h
    cases h
    rfl
  | some b =>
    rw [hmoved] at h
    cases h

/-- Images are filtered list by list. -/
theorem filter_flatMap_eq {α β : Type} {items : List α} {f g : α → List β} {p : α → Bool}
    {q : β → Bool} (h : ∀ a ∈ items, (f a).filter q = if p a then g a else []) :
    (items.flatMap f).filter q = (items.filter p).flatMap g := by
  induction items with
  | nil => rfl
  | cons a rest ih =>
    obtain ⟨ha, hrest⟩ := List.forall_mem_cons.1 h
    rw [List.flatMap_cons, List.filter_append, ha, ih hrest]
    by_cases hp : p a
    · simp [hp]
    · simp [hp]

namespace Composition

open Journey (RequestError Stopover)

/-- An extension only fails off the calendar. -/
theorem Sequence.extend_eq_error {s : Sequence} {next : Candidate} {minWait maxWait : Int}
    {cause : Fault} (h : s.extend next minWait maxWait = .error cause) :
    cause = .offCalendar := by
  rw [extend_eq] at h
  split at h
  · cases h
  · split at h
    · rcases bind_eq_error_iff.1 h with hshift | ⟨frontier, -, hpush⟩
      · exact Instant.shift_eq_error hshift
      · cases hpush
    · split at h
      · rcases bind_eq_error_iff.1 h with hshift | ⟨origin, -, hpush⟩
        · exact Instant.shift_eq_error hshift
        · cases hpush
      · split at h <;> cases h

namespace Assembly

/-- Extending a sequence by all that is found only fails off the calendar. -/
theorem extensions_eq_error {s : Sequence} {minWait maxWait : Int} {found : List Candidate}
    {cause : Fault} (h : extensions s minWait maxWait found = .error cause) :
    cause = .offCalendar := by
  induction found with
  | nil => cases h
  | cons next rest ih =>
    rcases bind_eq_error_iff.1 h with hfirst | ⟨first, -, hmore⟩
    · exact Sequence.extend_eq_error hfirst
    · rcases bind_eq_error_iff.1 hmore with hothers | ⟨others, -, hall⟩
      · exact ih hothers
      · cases hall

/-- Extending all sequences by all that is found only fails off the calendar. -/
theorem extendAll_eq_error {found : List Candidate} {minWait maxWait : Int}
    {sequences : List Sequence} {cause : Fault}
    (h : extendAll found minWait maxWait sequences = .error cause) : cause = .offCalendar := by
  induction sequences with
  | nil => cases h
  | cons s rest ih =>
    rcases bind_eq_error_iff.1 h with hfirst | ⟨first, -, hmore⟩
    · exact extensions_eq_error hfirst
    · rcases bind_eq_error_iff.1 hmore with hothers | ⟨others, -, hall⟩
      · exact ih hothers
      · cases hall

/-- Taking in what is found only fails off the calendar. -/
theorem merge_eq_error {a : Assembly} {found : List Candidate} {cause : Fault}
    (h : a.merge found = .error cause) : cause = .offCalendar := by
  unfold merge at h
  split at h
  · cases h
  · rename_i stop hstop
    split at h
    · cases h
    · exact extendAll_eq_error (map_eq_error_iff.1 h)

/-- An assembly that goes on and takes in what is found, one search after the other. -/
def play : Assembly → List (List Candidate) → Except Fault Assembly
  | a, [] => .ok a
  | a, found :: rest => a.advance.merge found >>= fun b => play b rest

/-- A run of an assembly only fails off the calendar. -/
theorem play_eq_error {a : Assembly} {founds : List (List Candidate)} {cause : Fault}
    (h : a.play founds = .error cause) : cause = .offCalendar := by
  induction founds generalizing a with
  | nil => cases h
  | cons found rest ih =>
    rcases bind_eq_error_iff.1 h with hmerge | ⟨b, -, hrest⟩
    · exact merge_eq_error hmerge
    · exact ih hrest

/-- A run of an assembly succeeds on the calendar. -/
theorem exists_play {a : Assembly} {founds : List (List Candidate)}
    (hcalendar : a.play founds ≠ .error .offCalendar) : ∃ b, a.play founds = .ok b := by
  cases hplay : a.play founds with
  | ok b => exact ⟨b, rfl⟩
  | error cause =>
    rw [play_eq_error hplay] at hplay
    exact absurd hplay hcalendar

section Merging

open scoped Classical

variable {direction : Direction} {stops : List Stopover} {stop : Stopover}
  {found : List Candidate}

/-- The choices from what has been found that are feasible, in order. -/
noncomputable def feasibleChoices (direction : Direction) (stops : List Stopover)
    (founds : List (List Candidate)) : List (List Candidate) :=
  (choices founds).filter fun grown => decide (Feasible direction (parts stops grown))

/-- The combinations that go on from one by an itinerary that continues it, in the order
found. -/
noncomputable def continuations (direction : Direction) (stops : List Stopover)
    (stop : Stopover) (found : List Candidate) (grown : List Candidate) : List (List Candidate) :=
  (found.filter fun c => decide (Continues direction (parts stops grown) ⟨stop, c⟩)).map
    fun c => grown ++ [c]

/-- A sequence is extended by exactly what continues its combination, in the order found. -/
theorem grown_of_extensions {s : Sequence} {extended : List Sequence}
    (hs : s.Tracks direction stops) (hstop : stops[s.grown.length]? = some stop)
    (hlinear : ∀ c ∈ found, c.Linear)
    (hok : extensions s stop.minWait stop.maxWait found = .ok extended) :
    extended.map Sequence.grown = continuations direction stops stop found s.grown := by
  unfold continuations
  induction found generalizing extended with
  | nil =>
    cases hok
    rfl
  | cons next rest ih =>
    obtain ⟨hnext, hrest⟩ := List.forall_mem_cons.1 hlinear
    obtain ⟨first, hfirst, hmore⟩ := bind_eq_ok_iff.1 hok
    obtain ⟨others, hothers, hall⟩ := bind_eq_ok_iff.1 hmore
    cases hall
    rw [List.map_append, ih hrest hothers]
    cases first with
    | none =>
      have hnot := hs.not_continues_of_extend hnext hfirst
      rw [List.filter_cons_of_neg (by simpa using hnot)]
      rfl
    | some t =>
      have hcontinues := hs.continues_of_extend hnext hfirst
      rw [List.filter_cons_of_pos (by simpa using hcontinues), List.map_cons,
        ← (hs.extend hstop hnext hfirst).1]
      rfl

/-- Sequences are extended by exactly what continues their combinations, each one in turn. -/
theorem grown_of_extendAll {sequences extended : List Sequence} {begun : Nat}
    (hs : ∀ s ∈ sequences, s.Tracks direction stops ∧ s.grown.length = begun)
    (hstop : stops[begun]? = some stop) (hlinear : ∀ c ∈ found, c.Linear)
    (hok : extendAll found stop.minWait stop.maxWait sequences = .ok extended) :
    extended.map Sequence.grown =
      (sequences.map Sequence.grown).flatMap (continuations direction stops stop found) := by
  induction sequences generalizing extended with
  | nil =>
    cases hok
    rfl
  | cons s rest ih =>
    obtain ⟨⟨htracks, hlength⟩, hrest⟩ := List.forall_mem_cons.1 hs
    obtain ⟨first, hfirst, hmore⟩ := bind_eq_ok_iff.1 hok
    obtain ⟨others, hothers, hall⟩ := bind_eq_ok_iff.1 hmore
    cases hall
    rw [List.map_append, ih hrest hothers,
      grown_of_extensions htracks (hlength ▸ hstop) hlinear hfirst]
    rfl

/-- The feasible choices from one more list are the continuations of the feasible choices
before. -/
theorem feasibleChoices_concat {founds : List (List Candidate)} (hne : founds ≠ [])
    (hstop : stops[founds.length]? = some stop) :
    feasibleChoices direction stops (founds ++ [found]) =
      (feasibleChoices direction stops founds).flatMap
        (continuations direction stops stop found) := by
  unfold feasibleChoices
  rw [choices_concat]
  apply filter_flatMap_eq
  intro grown hgrown
  have hlength := length_of_mem_choices hgrown
  have hstops : stops ≠ [] := by
    rintro rfl
    cases hstop
  have hgrownNe : grown ≠ [] := by
    rintro rfl
    exact hne (List.length_eq_zero_iff.1 hlength.symm)
  have hparts := parts_ne_nil hstops hgrownNe
  rw [← hlength] at hstop
  have hiff : ∀ c, Feasible direction (parts stops (grown ++ [c])) ↔
      Feasible direction (parts stops grown) ∧
        Continues direction (parts stops grown) ⟨stop, c⟩ := by
    intro c
    rw [parts_concat c hstop]
    exact feasible_concat_iff hparts
  rw [List.filter_map]
  by_cases hfeasible : Feasible direction (parts stops grown)
  · simp [continuations, hfeasible, hiff, Function.comp_def]
  · simp [hfeasible, hiff, Function.comp_def]

/-- An assembly holds the feasible choices from what has been found so far. -/
structure Holds (direction : Direction) (route : List Stopover) (founds : List (List Candidate))
    (a : Assembly) : Prop where
  /-- It has begun one junction for each search. -/
  along : a.Along direction route founds.length
  /-- Its sequences track their combinations. -/
  tracks : ∀ s ∈ a.sequences, s.Tracks direction (direction.inTravelOrder route)
  /-- Their combinations are the feasible choices, in order. -/
  grown_eq : a.sequences.map Sequence.grown =
    feasibleChoices direction (direction.inTravelOrder route) founds

namespace Holds

variable {route : List Stopover} {founds : List (List Candidate)} {a b : Assembly}

/-- Before the first search there are neither sequences nor feasible choices. -/
theorem of_start {time : Instant} {windowLength : Option Int} {modes : ModeChoice}
    (hstart : start direction route time windowLength modes = .ok a) :
    a.Holds direction route [] := by
  obtain ⟨halong, hempty⟩ := along_of_start hstart
  refine ⟨halong, by simp [hempty], ?_⟩
  rw [hempty, feasibleChoices]
  refine (List.filter_eq_nil_iff.2 ?_).symm
  intro grown hgrown
  obtain rfl : grown = [] := by simpa [choices] using hgrown
  have hnone : ¬Feasible direction (parts (direction.inTravelOrder route) []) :=
    fun h => h.ne_nil List.zipWith_nil_right
  simpa using hnone

/-- Each sequence has an itinerary of each search. -/
theorem length_grown (h : a.Holds direction route founds) {s : Sequence} (hs : s ∈ a.sequences) :
    s.grown.length = founds.length := by
  have hmem := List.mem_map_of_mem (f := Sequence.grown) hs
  rw [h.grown_eq, feasibleChoices] at hmem
  exact length_of_mem_choices (List.mem_of_mem_filter hmem)

/-- At the first junction each itinerary found is a feasible choice. -/
theorem merge_first (h : a.Holds direction route []) (hmore : 0 < a.junctions.length)
    (hlinear : ∀ c ∈ found, c.Linear) (hok : a.advance.merge found = .ok b) :
    b.Holds direction route [found] := by
  have halong := h.along.advance hmore
  have hbegun : 0 < a.advance.junctions.length := by rwa [advance_junctions]
  obtain ⟨junction, -, hstop, -⟩ := halong.exists_junction hbegun
  have hb := halong.of_merge hok
  rw [halong.merge_first hbegun] at hok
  cases hok
  refine ⟨hb, ?_, ?_⟩
  · intro s hs
    obtain ⟨c, hc, rfl⟩ := List.mem_map.1 hs
    exact Sequence.Tracks.single direction hstop (hlinear c hc)
  · have hall : ∀ grown ∈ found.map fun c => [c],
        decide (Feasible direction (parts (direction.inTravelOrder route) grown)) = true := by
      intro grown hgrown
      obtain ⟨c, -, rfl⟩ := List.mem_map.1 hgrown
      rw [parts_singleton c hstop]
      exact decide_eq_true (feasible_singleton direction _)
    rw [feasibleChoices, choices_singleton, List.filter_eq_self.2 hall, List.map_map]
    rfl

/-- At a later junction the feasible choices are those that continue the ones before. -/
theorem merge_later (h : a.Holds direction route founds) (hne : founds ≠ [])
    (hmore : founds.length < a.junctions.length) (hlinear : ∀ c ∈ found, c.Linear)
    (hok : a.advance.merge found = .ok b) : b.Holds direction route (founds ++ [found]) := by
  have halong := h.along.advance hmore
  have hbegun : founds.length < a.advance.junctions.length := by rwa [advance_junctions]
  obtain ⟨junction, -, hstop, -⟩ := halong.exists_junction hbegun
  have hb := halong.of_merge hok
  obtain ⟨before, hlength⟩ : ∃ before, founds.length = before + 1 :=
    Nat.exists_eq_add_one.2 (List.length_pos_iff.2 hne)
  rw [hlength] at halong hbegun
  rw [halong.merge_later hbegun (hlength ▸ hstop)] at hok
  obtain ⟨extended, hextended, rfl⟩ := map_eq_ok_iff.1 hok
  rw [advance_sequences] at hextended
  refine ⟨by simpa using hb, ?_, ?_⟩
  · intro t ht
    obtain ⟨s, hs, next, hnext, hextend⟩ := mem_extendAll hextended ht
    exact ((h.tracks s hs).extend (h.length_grown hs ▸ hstop) (hlinear next hnext) hextend).2
  · rw [feasibleChoices_concat hne hstop, ← h.grown_eq]
    exact grown_of_extendAll (fun s hs => ⟨h.tracks s hs, h.length_grown hs⟩) hstop hlinear
      hextended

/-- After each junction an assembly holds the feasible choices. -/
theorem merge (h : a.Holds direction route founds) (hmore : founds.length < a.junctions.length)
    (hlinear : ∀ c ∈ found, c.Linear) (hok : a.advance.merge found = .ok b) :
    b.Holds direction route (founds ++ [found]) := by
  cases founds with
  | nil => exact h.merge_first hmore hlinear hok
  | cons first rest => exact h.merge_later (List.cons_ne_nil first rest) hmore hlinear hok

/-- After a run an assembly holds the feasible choices from all that has been found. -/
theorem play {rest : List (List Candidate)} (h : a.Holds direction route founds)
    (hmore : founds.length + rest.length ≤ a.junctions.length)
    (hlinear : ∀ found ∈ rest, ∀ c ∈ found, c.Linear) (hok : a.play rest = .ok b) :
    b.Holds direction route (founds ++ rest) := by
  induction rest generalizing a founds with
  | nil =>
    cases hok
    simpa using h
  | cons found rest ih =>
    obtain ⟨hfound, hrest⟩ := List.forall_mem_cons.1 hlinear
    obtain ⟨c, hmerge, hplay⟩ := bind_eq_ok_iff.1 hok
    rw [List.length_cons] at hmore
    have hc := h.merge (by omega) hfound hmerge
    have hjunctions : c.junctions.length = a.junctions.length := by
      rw [hc.along.length_junctions, h.along.length_junctions]
    have hend := ih hc (by simp [hjunctions]; omega) hrest hplay
    simpa using hend

end Holds

end Merging

/-- An assembly along a route that takes in what each search has found keeps the feasible
combinations, each once, in the lexicographic order of the positions at which the itineraries
were found. -/
theorem play_keeps_feasible {direction : Direction} {route : List Stopover} {time : Instant}
    {windowLength : Option Int} {modes : ModeChoice} {first : Assembly}
    (hstart : start direction route time windowLength modes = .ok first)
    {founds : List (List Candidate)} (hsteps : founds.length ≤ first.junctions.length)
    (hlinear : ∀ found ∈ founds, ∀ c ∈ found, c.Linear)
    (hcalendar : first.play founds ≠ .error .offCalendar) :
    ∃ last, first.play founds = .ok last ∧ ∃ chosen : List (List (Candidate × Nat)),
      (chosen.Pairwise fun x y => x.map Prod.snd < y.map Prod.snd) ∧
      (∀ choice, choice ∈ chosen ↔
        List.Forall₂ (fun found entry => found[entry.2]? = some entry.1) founds choice ∧
          Feasible direction (parts (direction.inTravelOrder route) (choice.map Prod.fst))) ∧
      last.sequences.map Sequence.grown = chosen.map (List.map Prod.fst) := by
  classical
  obtain ⟨last, hlast⟩ := exists_play hcalendar
  have hend := (Holds.of_start hstart).play (by simpa using hsteps) hlinear hlast
  rw [List.nil_append] at hend
  refine ⟨last, hlast, (choices (founds.map fun found => found.zipIdx)).filter fun choice =>
    decide (Feasible direction (parts (direction.inTravelOrder route) (choice.map Prod.fst))),
    ?_, ?_, ?_⟩
  · exact (pairwise_positions founds).filter _
  · intro choice
    rw [List.mem_filter, mem_positions_iff, decide_eq_true_eq]
  · rw [hend.grown_eq, feasibleChoices, ← map_positions founds, List.filter_map]
    rfl

/-- A route over three stops, with a wait of ten minutes to an hour at the second one. -/
private def routeOverStops : List Stopover :=
  [.atEnd (.ofPlace (.inRow 0)),
    ⟨.ofPlace (.inRow 1), Span.minutes 10, Span.minutes 60, by decide, by decide⟩,
    .atEnd (.ofPlace (.inRow 2))]

/-- An early and a late bus to the second stop, and a bus and a walk from there. -/
private def busesThenBusOrWalk : List (List Candidate) :=
  [[.ofLeg 0 (.onDay .bus (.inRow 0) (.inRow 1) 600 620),
      .ofLeg 1 (.onDay .bus (.inRow 0) (.inRow 1) 600 710)],
    [.ofLeg 2 (.onDay .bus (.inRow 1) (.inRow 2) 640 660),
      .ofLeg 3 (.onDay .walk (.inRow 1) (.inRow 2) 630 642)]]

/-- The assembly along the route. -/
private def overStops : Assembly where
  direction := .departAt
  junctions := Junction.along routeOverStops
  step := 0
  sequences := []
  time := .ofMinute 590
  windowLength := none
  modes := .default

/-- A run over three stops, in which the late bus misses the other one, keeps the feasible
combinations. -/
theorem run_over_stops_keeps_feasible :
    start .departAt routeOverStops (.ofMinute 590) none .default = .ok overStops ∧
    busesThenBusOrWalk.length ≤ overStops.junctions.length ∧
    (∀ found ∈ busesThenBusOrWalk, ∀ c ∈ found, c.Linear) ∧
    overStops.play busesThenBusOrWalk ≠ .error .offCalendar ∧
    ∃ last, overStops.play busesThenBusOrWalk = .ok last ∧
      ∃ chosen : List (List (Candidate × Nat)),
        (chosen.Pairwise fun x y => x.map Prod.snd < y.map Prod.snd) ∧
        (∀ choice, choice ∈ chosen ↔
          List.Forall₂ (fun found entry => found[entry.2]? = some entry.1)
              busesThenBusOrWalk choice ∧
            Feasible .departAt (parts routeOverStops (choice.map Prod.fst))) ∧
        last.sequences.map Sequence.grown = chosen.map (List.map Prod.fst) := by
  have hstart : start .departAt routeOverStops (.ofMinute 590) none .default = .ok overStops :=
    rfl
  have hsteps : busesThenBusOrWalk.length ≤ overStops.junctions.length := by decide
  have hlinear : ∀ found ∈ busesThenBusOrWalk, ∀ c ∈ found, c.Linear := by decide
  have hcalendar : overStops.play busesThenBusOrWalk ≠ .error .offCalendar := by
    intro h
    have hok : (overStops.play busesThenBusOrWalk).toBool = true := by decide
    rw [h] at hok
    cases hok
  exact ⟨hstart, hsteps, hlinear, hcalendar,
    play_keeps_feasible hstart hsteps hlinear hcalendar⟩

end Assembly

end Composition

end JourneyPlanner
