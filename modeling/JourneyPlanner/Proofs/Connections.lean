import JourneyPlanner.Journey.Router
import JourneyPlanner.Proofs.Replaying
import JourneyPlanner.Proofs.Windows

/-!
# Connections within the limits of a search

Behind the first junction a search begins at its window, and what it finds is cut off where
the window ends. A ride that two schedules join to a sequence departs no sooner than the
shortest wait allows, so it lies behind the beginning of every window that does not begin behind
the sequence, as that does not to which the sequence was counted. If there is service on the day,
the ride is found, and whether it is kept depends on the end of the window.
-/

namespace JourneyPlanner

namespace Composition

open Journey (Stopover)
open Search (Coverage Query HasService replay)

/-- A ride that two schedules join to a sequence departs, in the direction of growth, no sooner
than the sequence ends with the shortest wait. -/
theorem Sequence.follows_of_extend {s t : Sequence} {next : Candidate} {minWait maxWait : Int}
    {instant : Instant} (hscheduled : s.streetOnly = false) (hride : next.isStreetOnly = false)
    (hfrontier : s.frontierTime.Linear) (hnear : (s.direction.nearTime next.toItinerary).Linear)
    (hok : s.extend next minWait maxWait = .ok (some t))
    (hshift : s.frontierTime.shift (minWait * s.direction.sign) = .ok instant) :
    s.direction.Follows instant (s.direction.nearTime next.toItinerary) := by
  obtain ⟨hnanos, hinstant⟩ := hfrontier.shift_eq_ok_iff.1 hshift
  cases (extend_cases hok).2 with
  | follows hstreet =>
    rw [hride] at hstreet
    cases hstreet
  | meets _ hstreet =>
    rw [hscheduled] at hstreet
    cases hstreet
  | connects _ _ hmin =>
    rw [scheduledWait, Instant.since_eq hnear hfrontier] at hmin
    rw [Direction.follows_iff hinstant hnear, hnanos]
    cases hdirection : s.direction <;> simp only [hdirection, Direction.sign] at hmin ⊢ <;> omega

namespace Assembly

/-- An assembly that can come up, whatever the searches find. -/
inductive Reached : Assembly → Prop
  | start {direction : Direction} {route : List Stopover} {time : Instant}
      {windowLength : Option Int} {modes : ModeChoice} {a : Assembly}
      (hstart : Assembly.start direction route time windowLength modes = .ok a) : Reached a
  | advance {a : Assembly} (h : Reached a) : Reached a.advance
  | merge {a b : Assembly} {found : List Candidate} (h : Reached a)
      (hok : a.merge found = .ok b) : Reached b

/-- All sequences of an assembly grow in its direction. -/
theorem Reached.direction_eq {a : Assembly} (h : a.Reached) :
    ∀ s ∈ a.sequences, s.direction = a.direction := by
  induction h with
  | start hstart =>
    unfold Assembly.start at hstart
    split at hstart
    · cases hstart
    · cases hstart
      simp
  | advance h ih =>
    unfold Assembly.advance
    split
    · exact ih
    · exact ih
  | merge h hok ih =>
    unfold Assembly.merge at hok
    split at hok
    · cases hok
      exact ih
    · split at hok
      · cases hok
        simp [Sequence.single]
      · obtain ⟨extended, hextended, rfl⟩ := map_eq_ok_iff.1 hok
        intro t ht
        obtain ⟨s, hs, next, -, hextend⟩ := mem_extendAll hextended ht
        obtain ⟨wait, origin, frontier, rfl, -⟩ := (Sequence.extend_cases hextend).2.eq_push
        exact ih s hs

/-- Behind the first junction a known ride could be joined to a sequence that rides as well,
and runs between the two ends of a search. -/
structure Connects (a : Assembly) (known : List Candidate) (coverages : List Coverage)
    (coverage : Coverage) (stop : Stopover) (query : Query) (s : Sequence) (next : Candidate) :
    Prop where
  /-- The assembly can come up. -/
  reached : a.Reached
  /-- The first junction has been bridged. -/
  later : 1 < a.step
  /-- What is found joins at the stopover. -/
  joinsAt : a.mergeEnd? = some stop
  /-- These have to be covered. -/
  coverages_eq : a.coverages = .ok coverages
  /-- The search is for one of them. -/
  covered : coverage ∈ coverages
  /-- It is asked so. -/
  asked : a.query? coverage = some query
  /-- The sequence is held. -/
  held : s ∈ a.sequences
  /-- It rides transit. -/
  scheduled : s.streetOnly = false
  /-- The ride is known. -/
  known : next ∈ known
  /-- It is one. -/
  rides : next.isStreetOnly = false
  /-- It runs between the two ends of the search. -/
  between : query.Answers next.toItinerary
  /-- It could be joined to the sequence. -/
  joins : ∃ t, s.extend next stop.minWait stop.maxWait = .ok (some t)

/-- A search for a window begins, in the direction of growth, no later than anything the window
contains. -/
theorem follows_of_contains {a : Assembly} {coverage : Coverage} {query : Query} {instant : Instant}
    (hasked : a.query? coverage = some query) (h : coverage.Contains instant) :
    a.direction.Follows (query.window.anchor query.arriveBy) instant := by
  obtain ⟨earliest, latest, hbounds, hearliest, hlatest⟩ := h
  obtain ⟨-, harriveBy, hwindow⟩ := of_query hasked
  rw [hwindow, Coverage.toWindow, hbounds, harriveBy]
  cases a.direction with
  | departAt => exact hearliest
  | arriveBy => exact hlatest

namespace Connects

variable {a : Assembly} {known : List Candidate} {coverages : List Coverage}
  {coverage : Coverage} {stop : Stopover} {query : Query} {s : Sequence} {next : Candidate}
  {instant : Instant}

/-- The first junction is not the one that is being bridged. -/
theorem isFirstStep_eq (h : a.Connects known coverages coverage stop query s next) :
    a.isFirstStep = false := by
  have hlater := h.later
  simp only [isFirstStep, beq_eq_false_iff_ne]
  omega

/-- The ride is found if there is service on the day and the search does not begin behind the
sequence with the shortest wait. -/
theorem mem_replay (h : a.Connects known coverages coverage stop query s next)
    (hfrontier : s.frontierTime.Linear) (hnear : (a.direction.nearTime next.toItinerary).Linear)
    (hmoved : s.frontierTime.shift (stop.minWait * a.direction.sign) = .ok instant)
    (hbegins : a.direction.Follows (query.window.anchor query.arriveBy) instant)
    (hservice : HasService known query) : next ∈ (replay known query).itineraries := by
  obtain ⟨-, harriveBy, -⟩ := of_query h.asked
  obtain ⟨t, hextend⟩ := h.joins
  have hdirection := h.reached.direction_eq s h.held
  rw [← hdirection] at hnear hmoved
  have hfollows := Sequence.follows_of_extend h.scheduled h.rides hfrontier hnear hextend hmoved
  rw [hdirection] at hfollows
  have hfits := (Search.fitsAnchor_iff_follows harriveBy).2 (hbegins.trans hfollows)
  exact Search.mem_replay_iff.2 ⟨h.known, h.between, hfits, hservice⟩

end Connects

end Assembly

end Composition

namespace Journey

open JourneyPlanner.Composition
open Search (Answer Coverage Query Window HasService replay windowUsed?)

/-- What the limit on departures leaves of an answer. -/
def keptByDeparture (query : Query) (answer : Answer) : List Candidate :=
  match latestDeparture? query answer with
  | none => answer.itineraries
  | some limit => (Selection.Rule.departsBy limit).apply answer.itineraries

/-- A window that begins before it ends has a length. -/
theorem since_pos_iff {earliest latest : Instant} (hearliest : earliest.Linear)
    (hlatest : latest.Linear) : 0 < latest.since earliest ↔ earliest < latest := by
  have hle := Instant.le_iff_nanos_le hlatest hearliest
  rw [Instant.since_eq hlatest hearliest]
  constructor
  · exact fun hpos => Int.not_le.1 fun hge => absurd (hle.1 hge) (by omega)
  · exact fun hlt => Int.not_le.1 fun hge => Int.not_le.2 hlt (hle.2 (by omega))

/-- The limit on departures is the end of the window, if that comes after its beginning. -/
theorem latestDeparture?_eq {query : Query} {answer : Answer} {earliest latest : Instant}
    (hdepart : query.arriveBy = false) (hwindow : query.window = .bounded earliest latest)
    (hused : answer.windowUsed = windowUsed? query.window) (hearliest : earliest.Linear)
    (hlatest : latest.Linear) :
    latestDeparture? query answer = if earliest < latest then some latest else none := by
  have hlength := since_pos_iff hearliest hlatest
  unfold latestDeparture?
  rw [hdepart, hused, hwindow]
  by_cases hlt : earliest < latest
  · have hpos := hlength.2 hlt
    have hused : windowUsed? (.bounded earliest latest) = some (latest.since earliest) := by
      simpa [windowUsed?, Window.length?] using hpos
    have hshift : earliest.shift (latest.since earliest) = .ok latest :=
      hearliest.shift_eq_ok_iff.2
        ⟨by rw [Instant.since_eq hlatest hearliest]; omega, hlatest⟩
    rw [if_pos hlt, hused, Window.anchor, ← Instant.shift_eq_ok_iff.1 hshift]
    exact if_neg (Int.not_le.2 hpos)
  · have hused : windowUsed? (.bounded earliest latest) = none := by
      have hzero : ¬0 < latest.since earliest := fun hpos => hlt (hlength.1 hpos)
      simpa [windowUsed?, Window.length?] using Int.not_lt.1 hzero
    rw [if_neg hlt, hused]
    rfl

/-- What the limit on departures leaves is what departs by it. -/
theorem mem_keptByDeparture_iff {query : Query} {answer : Answer} {c : Candidate} :
    c ∈ keptByDeparture query answer ↔
      c ∈ answer.itineraries ∧ ∀ limit ∈ latestDeparture? query answer, c.start ≤ limit := by
  unfold keptByDeparture
  cases latestDeparture? query answer with
  | none => simp
  | some limit => simp [Selection.Rule.apply]

/-- A ride that schedules join to a sequence is found, if there is service on the day and the
search does not begin behind the sequence with the shortest wait. It is kept exactly if it does
not depart after the window, where this ends after it begins. -/
theorem connection_kept_iff {a : Assembly} {known : List Candidate} {coverages : List Coverage}
    {coverage : Coverage} {stop : Stopover} {query : Query} {s : Sequence} {next : Candidate}
    {instant : Instant} (h : a.Connects known coverages coverage stop query s next)
    (hfrontier : s.frontierTime.Linear) (hnear : (a.direction.nearTime next.toItinerary).Linear)
    (hends : ∀ bounds ∈ coverage.bounds, bounds.1.Linear ∧ bounds.2.Linear)
    (hmoved : s.frontierTime.shift (stop.minWait * a.direction.sign) = .ok instant)
    (hbegins : a.direction.Follows (query.window.anchor query.arriveBy) instant)
    (hservice : HasService known query) :
    ∃ earliest latest, coverage.bounds = some (earliest, latest) ∧
      next ∈ (replay known query).itineraries ∧
      (next ∈ keptByDeparture query (replay known query) ↔
        (a.direction = .departAt → earliest < latest → next.start ≤ latest)) := by
  have hfound := h.mem_replay hfrontier hnear hmoved hbegins hservice
  obtain ⟨earliest, latest, hbounds, -⟩ :=
    Assembly.bounds_of_mem_coverages h.joinsAt h.isFirstStep_eq h.coverages_eq h.covered
  refine ⟨earliest, latest, hbounds, hfound, ?_⟩
  obtain ⟨hearliest, hlatest⟩ := hends _ hbounds
  obtain ⟨-, harriveBy, hwindow⟩ := Assembly.of_query h.asked
  rw [Coverage.toWindow, hbounds] at hwindow
  rw [mem_keptByDeparture_iff, and_iff_right hfound]
  have hused := Search.windowUsed_replay hfound
  cases hdirection : a.direction with
  | departAt =>
    rw [hdirection] at harriveBy
    rw [latestDeparture?_eq harriveBy hwindow hused hearliest hlatest]
    -- A window that is a single instant, as that of one sequence, cuts nothing off.
    by_cases hlt : earliest < latest
    · simp [hlt]
    · simp [hlt]
  | arriveBy =>
    rw [hdirection] at harriveBy
    have hnone : latestDeparture? query (replay known query) = none := by
      rw [latestDeparture?, harriveBy]
      rfl
    simp [hnone]

/-! ### Changing at the second of three stops -/

/-- The second stop, where changing takes between five minutes and an hour. -/
private def changeStop : Stopover :=
  ⟨.ofPlace (.inRow 1), Span.minutes 5, Span.minutes 60, by decide, by decide⟩

/-- A route over three stops. -/
private def routeOverChange : List Stopover :=
  [.atEnd (.ofPlace (.inRow 0)), changeStop, .atEnd (.ofPlace (.inRow 2))]

/-- An assembly along it, before the first junction. -/
private def beforeChange : Assembly where
  direction := .departAt
  junctions := Junction.along routeOverChange
  step := 0
  sequences := []
  time := .ofMinute 480
  windowLength := none
  modes := .default

/-- The assembly when it goes on from the second stop, behind what was found first. -/
private def beyondChange (found : List Candidate) : Assembly :=
  { beforeChange with step := 2, sequences := found.map (Sequence.single .departAt) }

/-- A search from what has to be covered to the third stop. -/
private def onward (coverage : Coverage) : Query where
  origin := coverage.location
  destination := .ofPlace (.inRow 2)
  arriveBy := false
  window := coverage.toWindow (.ofMinute 480) none
  modes := .default

/-- Whatever was found for the first junction, this assembly can come up. -/
private theorem reached_beyondChange (found : List Candidate) : (beyondChange found).Reached := by
  have hstart : Assembly.start .departAt routeOverChange (.ofMinute 480) none .default =
      .ok beforeChange := rfl
  have hmerge : beforeChange.advance.merge found =
      .ok { beforeChange with step := 1, sequences := found.map (Sequence.single .departAt) } := rfl
  exact (Assembly.Reached.start hstart).advance.merge hmerge |>.advance

/-- A ride from where a first one has come to is joined to it, if the wait is long enough and
not too long. -/
private def ChangesTo (c next : Candidate) : Prop :=
  (Sequence.single .departAt c).streetOnly = false ∧ next.isStreetOnly = false ∧
    next.origin.sameLocation (Sequence.single .departAt c).frontierPlace = true ∧
    changeStop.minWait ≤ (Sequence.single .departAt c).scheduledWait next ∧
    (Sequence.single .departAt c).scheduledWait next ≤ changeStop.maxWait

private instance (c next : Candidate) : Decidable (ChangesTo c next) :=
  inferInstanceAs (Decidable (_ ∧ _))

/-- A ride on from where a search begins connects to one of the rides found first. -/
private theorem connects_beyondChange {found known : List Candidate} {coverages : List Coverage}
    {coverage : Coverage} {c next : Candidate}
    (hcoverages : (beyondChange found).coverages = .ok coverages) (hcovered : coverage ∈ coverages)
    (hheld : c ∈ found) (hknown : next ∈ known) (hbetween : (onward coverage).Answers next.toItinerary)
    (hchanges : ChangesTo c next) :
    (beyondChange found).Connects known coverages coverage changeStop (onward coverage)
      (.single .departAt c) next where
  reached := reached_beyondChange found
  later := Nat.lt_succ_self 1
  joinsAt := rfl
  coverages_eq := hcoverages
  covered := hcovered
  asked := rfl
  held := List.mem_map_of_mem hheld
  scheduled := hchanges.1
  known := hknown
  rides := hchanges.2.1
  between := hbetween
  joins := by
    obtain ⟨hscheduled, hride, htouches, hmin, hmax⟩ := hchanges
    have hfits := not_or.2 ⟨Int.not_lt.2 hmin, Int.not_lt.2 hmax⟩
    have hnear : (Sequence.single .departAt c).direction.nearPlace next.toItinerary =
      next.origin := rfl
    rw [Sequence.extend_eq, hnear, htouches, hride, hscheduled, if_neg hfits]
    exact ⟨_, rfl⟩

/-- A bus to the second stop. -/
private def earlyBus : Candidate :=
  .ofLeg 0 (.onDay .bus (.inRow 0) (.inRow 1) 480 490)

/-- A bus ten minutes behind it. -/
private def lateBus : Candidate :=
  .ofLeg 1 (.onDay .bus (.inRow 0) (.inRow 1) 490 500)

/-- What has to be covered when both have arrived. -/
private def afterBuses : Coverage :=
  ⟨.ofPlace (.inRow 1), some (.ofMinute 495, .ofMinute 505)⟩

/-- A bus on from the second stop within that window. -/
private def promptBus : Candidate :=
  .ofLeg 2 (.onDay .bus (.inRow 1) (.inRow 2) 500 520)

/-- A bus on from there that leaves after the window. -/
private def laterBus : Candidate :=
  .ofLeg 3 (.onDay .bus (.inRow 1) (.inRow 2) 510 530)

/-- The bus within the window is found and kept. -/
theorem prompt_bus_kept :
    (beyondChange [earlyBus, lateBus]).Connects [promptBus, laterBus] [afterBuses] afterBuses
      changeStop (onward afterBuses) (.single .departAt earlyBus) promptBus ∧
    (Sequence.single .departAt earlyBus).frontierTime.Linear ∧
    (Direction.departAt.nearTime promptBus.toItinerary).Linear ∧
    (∀ bounds ∈ afterBuses.bounds, bounds.1.Linear ∧ bounds.2.Linear) ∧
    (Sequence.single .departAt earlyBus).frontierTime.shift
      (changeStop.minWait * Direction.departAt.sign) = .ok (.ofMinute 495) ∧
    afterBuses.Contains (.ofMinute 495) ∧ HasService [promptBus, laterBus] (onward afterBuses) ∧
    ∃ earliest latest, afterBuses.bounds = some (earliest, latest) ∧
      promptBus ∈ (replay [promptBus, laterBus] (onward afterBuses)).itineraries ∧
      (promptBus ∈ keptByDeparture (onward afterBuses)
          (replay [promptBus, laterBus] (onward afterBuses)) ↔
        (Direction.departAt = .departAt → earliest < latest → promptBus.start ≤ latest)) ∧
      promptBus ∈ keptByDeparture (onward afterBuses)
        (replay [promptBus, laterBus] (onward afterBuses)) := by
  have hconnects : (beyondChange [earlyBus, lateBus]).Connects [promptBus, laterBus] [afterBuses]
      afterBuses changeStop (onward afterBuses) (.single .departAt earlyBus) promptBus :=
    connects_beyondChange (by decide +kernel) (by decide) (by simp) (by simp) (by decide)
      (by decide +kernel)
  have hends : ∀ bounds ∈ afterBuses.bounds, bounds.1.Linear ∧ bounds.2.Linear := by
    rintro _ ⟨⟩
    decide
  have hmoved : (Sequence.single .departAt earlyBus).frontierTime.shift
      (changeStop.minWait * Direction.departAt.sign) = .ok (.ofMinute 495) := by decide
  have hcontains : afterBuses.Contains (.ofMinute 495) :=
    ⟨_, _, rfl, by decide, by decide⟩
  have hservice : HasService [promptBus, laterBus] (onward afterBuses) := by decide +kernel
  obtain ⟨earliest, latest, hbounds, hfound, hkept⟩ :=
    connection_kept_iff hconnects (by decide) (by decide) hends hmoved
      (Assembly.follows_of_contains hconnects.asked hcontains) hservice
  refine ⟨hconnects, by decide, by decide, hends, hmoved, hcontains, hservice, earliest, latest,
    hbounds, hfound, hkept, hkept.2 fun _ _ => ?_⟩
  cases hbounds
  decide

/-- A bus to the second stop that arrives before midnight. -/
private def nightBus : Candidate :=
  .ofLeg 0 (.onDay .bus (.inRow 0) (.inRow 1) 1410 1430)

/-- What has to be covered when it has arrived. -/
private def beforeMidnight : Coverage :=
  ⟨.ofPlace (.inRow 1), some (.ofMinute 1435, .ofMinute 1435)⟩

/-- Five minutes after midnight are on the calendar. -/
private theorem fiveAfterMidnight : onCalendar 1445 := by
  decide

/-- So are twenty minutes. -/
private theorem twentyAfterMidnight : onCalendar 1460 := by
  decide

/-- A bus on from the second stop that leaves after midnight. -/
private def morningBus : Candidate :=
  .ofLeg 1 { Leg.onDay .bus (.inRow 1) (.inRow 2) 0 0 with
    start := .atStartOf 1445 fiveAfterMidnight, finish := .atStartOf 1460 twentyAfterMidnight }

/-- A bus that arrives shortly after a minute has begun. -/
private def unevenBus : Candidate :=
  .ofLeg 0 { Leg.onDay .bus (.inRow 0) (.inRow 1) 480 490 with
    finish := ⟨490, 300000000, by decide, by decide⟩ }

/-- What has to be covered when it has arrived. -/
private def afterUnevenBus : Coverage :=
  ⟨.ofPlace (.inRow 1), some (⟨495, 300000000, by decide, by decide⟩,
    ⟨495, 300000000, by decide, by decide⟩)⟩

/-- A bus on from the second stop that leaves in a second inserted before that. -/
private def insertedBus : Candidate :=
  .ofLeg 1 { Leg.onDay .bus (.inRow 1) (.inRow 2) 494 520 with
    start := ⟨494, 60500000000, by decide, by decide⟩ }

/-- Where there are two stops. -/
private def square : Coordinate :=
  ⟨59.9, 10.7, by decide +kernel⟩

/-- One of the stops there. -/
private def northSide : Place :=
  { Place.ofStop "N" (by decide) with coordinate := some square }

/-- The other one. -/
private def southSide : Place :=
  { Place.ofStop "S" (by decide) with coordinate := some square }

/-- That stop again, when its position is not known. -/
private def southStop : Place :=
  .ofStop "S" (by decide)

/-- A bus to the north side. -/
private def northBus : Candidate :=
  .ofLeg 0 (.onDay .bus (.inRow 0) northSide 480 490)

/-- A late bus to the stop on the south side. -/
private def lateSouthBus : Candidate :=
  .ofLeg 1 (.onDay .bus (.inRow 0) southStop 480 540)

/-- An early bus to the south side, which is counted to the north side. -/
private def southBus : Candidate :=
  .ofLeg 2 (.onDay .bus (.inRow 0) southSide 480 490)

/-- A bus on from the stop on the south side. -/
private def squareBus : Candidate :=
  .ofLeg 3 (.onDay .bus southStop (.inRow 2) 500 520)

/-- What has to be covered on the north side. -/
private def onNorthSide : Coverage :=
  ⟨.ofPlace northSide, some (.ofMinute 495, .ofMinute 495)⟩

/-- What has to be covered at the stop on the south side. -/
private def atSouthStop : Coverage :=
  ⟨.ofPlace southStop, some (.ofMinute 545, .ofMinute 545)⟩

/-- Where the buses to the square have arrived is searched from in the order of stops. -/
private theorem coverages_of_square :
    (beyondChange [northBus, lateSouthBus, southBus]).coverages =
      .ok [onNorthSide, atSouthStop] := by
  have hcovered : Assembly.coverSequences (changeStop.minWait * Direction.departAt.sign) []
      (beyondChange [northBus, lateSouthBus, southBus]).sequences =
        .ok [(northSide, onNorthSide), (southStop, atSouthStop)] := by decide +kernel
  exact Assembly.coverages_of_pairwise (a := beyondChange _) rfl rfl hcovered (by decide +kernel)

/-- A ride that schedules join to a sequence which has come to where a search begins is lost if it
departs after the window, if there is no service on the day, if the sequence was counted to
another place, and in some inserted seconds. -/
theorem connections_lost :
    ((beyondChange [earlyBus, lateBus]).Connects [promptBus, laterBus] [afterBuses] afterBuses
        changeStop (onward afterBuses) (.single .departAt earlyBus) laterBus ∧
      afterBuses.location.isAt (Sequence.single .departAt earlyBus).frontierPlace = true ∧
      laterBus ∈ (replay [promptBus, laterBus] (onward afterBuses)).itineraries ∧
      laterBus ∉ keptByDeparture (onward afterBuses)
        (replay [promptBus, laterBus] (onward afterBuses))) ∧
    ((beyondChange [nightBus]).Connects [morningBus] [beforeMidnight] beforeMidnight changeStop
        (onward beforeMidnight) (.single .departAt nightBus) morningBus ∧
      beforeMidnight.location.isAt (Sequence.single .departAt nightBus).frontierPlace = true ∧
      morningBus ∉ (replay [morningBus] (onward beforeMidnight)).itineraries) ∧
    ((beyondChange [northBus, lateSouthBus, southBus]).Connects [squareBus]
        [onNorthSide, atSouthStop] atSouthStop changeStop (onward atSouthStop)
        (.single .departAt southBus) squareBus ∧
      atSouthStop.location.isAt (Sequence.single .departAt southBus).frontierPlace = true ∧
      squareBus ∉ (replay [squareBus] (onward atSouthStop)).itineraries) ∧
    ((beyondChange [unevenBus]).Connects [insertedBus] [afterUnevenBus] afterUnevenBus changeStop
        (onward afterUnevenBus) (.single .departAt unevenBus) insertedBus ∧
      afterUnevenBus.location.isAt (Sequence.single .departAt unevenBus).frontierPlace = true ∧
      insertedBus ∉ (replay [insertedBus] (onward afterUnevenBus)).itineraries) := by
  refine ⟨⟨?_, by decide, ?_, ?_⟩, ⟨?_, by decide, ?_⟩, ⟨?_, by decide +kernel, ?_⟩, ?_,
    by decide, ?_⟩
  · exact connects_beyondChange (by decide +kernel) (by simp) (by simp) (by simp) (by decide)
      (by decide +kernel)
  · rw [Search.mem_replay_iff]
    exact ⟨by simp, by decide, by decide, by decide +kernel⟩
  · have hlimit : latestDeparture? (onward afterBuses)
        (replay [promptBus, laterBus] (onward afterBuses)) = some (.ofMinute 505) := by
      decide +kernel
    exact fun hkept => absurd ((mem_keptByDeparture_iff.1 hkept).2 _ hlimit) (by decide)
  · exact connects_beyondChange (by decide +kernel) (by simp) (by simp) (by simp) (by decide)
      (by decide +kernel)
  · exact fun hfound => absurd (Search.mem_replay_iff.1 hfound).2.2.2 (by decide +kernel)
  · exact connects_beyondChange coverages_of_square (by simp) (by simp) (by simp)
      (by decide +kernel) (by decide +kernel)
  · exact fun hfound => absurd (Search.mem_replay_iff.1 hfound).2.2.1 (by decide)
  · exact connects_beyondChange (by decide +kernel) (by simp) (by simp) (by simp) (by decide)
      (by decide +kernel)
  · exact fun hfound => absurd (Search.mem_replay_iff.1 hfound).2.2.1 (by decide)

end Journey

end JourneyPlanner
