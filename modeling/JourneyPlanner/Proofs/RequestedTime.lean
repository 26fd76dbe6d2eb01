import JourneyPlanner.Proofs.Idempotence
import JourneyPlanner.Proofs.Replaying
import JourneyPlanner.Proofs.Waypoints
import JourneyPlanner.Proofs.Windows

/-!
# The time a request asks for

Journeys are replayed from known itineraries. What is found for the first junction starts
no earlier than asked for, and so does what is found later, for its windows begin where
sequences have come to. Rides are never moved, so no ride departs too early. A first part
on the street is moved to meet the first ride, however, and a slow one that shares a
window with a fast one is moved back in front of the time asked for. The same holds for
arrivals in the other direction.
-/

namespace JourneyPlanner

/-! ### Itineraries in the direction of growth -/

namespace Itinerary.Forward

variable {it : Itinerary} {leg : Leg}

/-- No leg starts before the itinerary does. -/
theorem start_le (h : it.Forward) (hleg : leg ∈ it.legs) : it.start ≤ leg.start := by
  have hpairwise := pairwise_of_chained it.chained h
  obtain ⟨rest, hlegs⟩ := List.head?_eq_some_iff.1 (List.head?_eq_some_head it.legs_ne_nil)
  have hfirst : it.firstLeg.start ≤ it.firstLeg.finish := h _ (List.head_mem it.legs_ne_nil)
  rw [hlegs] at hleg hpairwise
  rcases List.mem_cons.1 hleg with rfl | hleg
  · exact Int.le_refl _
  · exact Int.le_trans hfirst ((List.pairwise_cons.1 hpairwise).1 leg hleg)

/-- No leg ends after the itinerary does. -/
theorem le_finish (h : it.Forward) (hleg : leg ∈ it.legs) : leg.finish ≤ it.finish := by
  have hpairwise := pairwise_of_chained it.chained h
  obtain ⟨front, hlegs⟩ := List.getLast?_eq_some_iff.1
    (List.getLast?_eq_some_getLast it.legs_ne_nil)
  have hlast : it.lastLeg.start ≤ it.lastLeg.finish := h _ (List.getLast_mem it.legs_ne_nil)
  rw [hlegs] at hleg hpairwise
  rcases List.mem_append.1 hleg with hleg | hleg
  · have hbefore := (List.pairwise_append.1 hpairwise).2.2 leg hleg it.lastLeg
      (List.mem_singleton.2 rfl)
    exact Int.le_trans hbefore hlast
  · obtain rfl := List.mem_singleton.1 hleg
    exact Int.le_refl _

/-- The far end of an itinerary follows the near one. -/
theorem follows (h : it.Forward) (direction : Composition.Direction) :
    direction.Follows (direction.nearTime it) (direction.farTime it) := by
  have hends : it.start ≤ it.finish :=
    Int.le_trans (h.start_le (List.getLast_mem it.legs_ne_nil))
      (h _ (List.getLast_mem it.legs_ne_nil))
  cases direction
  · exact hends
  · exact hends

end Itinerary.Forward

/-! ### What is found -/

namespace Search

/-- What a replay finds is passed, at its near end, no sooner than the query asks for. -/
theorem follows_of_mem_replay {known : List Candidate} {query : Query} {c : Candidate}
    (hc : c ∈ (replay known query).itineraries) {direction : Composition.Direction}
    (hdirection : query.arriveBy = direction.isArriveBy) :
    direction.Follows (query.window.anchor query.arriveBy) (direction.nearTime c.toItinerary) :=
  (fitsAnchor_iff_follows hdirection).1 (mem_replay_iff.1 hc).2.2.1

end Search

namespace Composition

open Journey (Stopover)
open Search (Coverage Query)

/-- An itinerary is, but for notices, a known one, and is passed at its near end no sooner than
at a time. -/
structure KnownAfter (direction : Direction) (known : List Candidate) (time : Instant)
    (c : Candidate) : Prop where
  /-- It is one of those known. -/
  known : ∃ d ∈ known, d.toItinerary = c.toItinerary
  /-- Its near end follows the time. -/
  near : direction.Follows time (direction.nearTime c.toItinerary)

section Known

variable {direction : Direction} {known : List Candidate} {time : Instant}

/-- A known itinerary is linear, if all of them are. -/
theorem KnownAfter.linear {c : Candidate} (h : KnownAfter direction known time c)
    (hlinear : ∀ d ∈ known, d.Linear) : c.Linear := by
  obtain ⟨d, hd, heq⟩ := h.known
  exact heq ▸ hlinear d hd

/-- A known itinerary does not run backward, if none of them does. -/
theorem KnownAfter.forward {c : Candidate} (h : KnownAfter direction known time c)
    (hforward : ∀ d ∈ known, d.Forward) : c.Forward := by
  obtain ⟨d, hd, heq⟩ := h.known
  exact heq ▸ hforward d hd

/-- A sequence of known itineraries none of which is passed too soon. -/
structure Sequence.Timely (direction : Direction) (known : List Candidate) (time : Instant)
    (s : Sequence) : Prop where
  /-- It grows in the direction. -/
  direction_eq : s.direction = direction
  /-- It has grown by extensions. -/
  grown : s.Grown
  /-- Its itineraries are known, and where they were found none is passed too soon. -/
  members : ∀ c ∈ s.grown, KnownAfter direction known time c
  /-- Its growing end follows the time. -/
  frontier : direction.Follows time s.frontierTime

namespace Sequence.Timely

/-- A single itinerary that is not passed too soon makes a sequence that is not. -/
theorem single {c : Candidate} (hc : KnownAfter direction known time c) (hlinear : c.Linear)
    (hforward : c.Forward) : (Sequence.single direction c).Timely direction known time where
  direction_eq := rfl
  grown := .single hlinear
  members := by simpa [Sequence.grown, Sequence.single] using hc
  frontier := hc.near.trans (hforward.follows direction)

/-- Nor is a sequence passed too soon that is extended by what is not. -/
theorem extend {s t : Sequence} (h : s.Timely direction known time) {next : Candidate}
    (hnext : KnownAfter direction known time next) (hlinear : next.Linear)
    (hforward : next.Forward) {minWait maxWait : Int} (hmin : 0 ≤ minWait)
    (hok : s.extend next minWait maxWait = .ok (some t)) : t.Timely direction known time := by
  have hext := (extend_cases hok).2
  have hfar := hnext.near.trans (hforward.follows direction)
  have hfrontier : direction.Follows time t.frontierTime := by
    cases hext with
    | follows _ hshift =>
      have hduration : 0 ≤ minWait + next.duration := by
        have hends : next.start.nanos ≤ next.finish.nanos :=
          (Instant.le_iff_nanos_le hlinear.start hlinear.finish).1 (hforward.follows .departAt)
        rw [hlinear.duration_eq]
        omega
      have hshift' := Direction.follows_of_shift h.grown.linear.2 hduration hshift
      rw [h.direction_eq] at hshift'
      exact h.frontier.trans hshift'
    | meets | connects => exact h.direction_eq ▸ hfar
  obtain ⟨wait, origin, frontier, rfl, -, -⟩ := hext.eq_push
  refine ⟨h.direction_eq, h.grown.extend hlinear hmin hok, ?_, hfrontier⟩
  intro c hc
  rw [push_grown, List.mem_append, List.mem_singleton] at hc
  rcases hc with hc | rfl
  · exact h.members c hc
  · exact hnext

end Sequence.Timely

/-! ### Assembling -/

/-- An assembly for a time none of whose sequences is passed too soon. -/
structure Assembly.Timely (direction : Direction) (known : List Candidate) (time : Instant)
    (a : Assembly) : Prop where
  /-- Its sequences grow in the direction. -/
  direction_eq : a.direction = direction
  /-- It is for the time. -/
  time_eq : a.time = time
  /-- None of its sequences is passed too soon. -/
  sequences : ∀ s ∈ a.sequences, s.Timely direction known time

namespace Assembly.Timely

variable {a b : Assembly}

/-- Before the first junction there is no sequence. -/
theorem of_start {route : List Stopover} {windowLength : Option Int} {modes : ModeChoice}
    (hstart : start direction route time windowLength modes = .ok a) :
    a.Timely direction known time := by
  unfold Assembly.start at hstart
  split at hstart
  · cases hstart
  · cases hstart
    exact ⟨rfl, rfl, by simp⟩

/-- Going on changes no sequence. -/
theorem advance (h : a.Timely direction known time) : a.advance.Timely direction known time := by
  unfold Assembly.advance
  split
  · exact ⟨h.direction_eq, h.time_eq, h.sequences⟩
  · exact h

/-- No search starts in front of the time. -/
theorem follows_of_query (h : a.Timely direction known time) {coverages : List Coverage}
    (hcoverages : a.coverages = .ok coverages) {query : Query}
    (hquery : query ∈ coverages.filterMap a.query?) :
    query.arriveBy = direction.isArriveBy ∧
      direction.Follows time (query.window.anchor query.arriveBy) := by
  obtain ⟨coverage, hcoverage, hasked⟩ := List.mem_filterMap.1 hquery
  obtain ⟨⟨stop, hend⟩, harriveBy, hwindow⟩ := of_query hasked
  rw [h.direction_eq] at harriveBy
  refine ⟨harriveBy, ?_⟩
  cases hfirst : a.isFirstStep with
  | true =>
    unfold Assembly.coverages at hcoverages
    rw [hend, hfirst] at hcoverages
    cases hcoverages
    obtain rfl := List.mem_singleton.1 hcoverage
    rw [hwindow]
    exact h.time_eq ▸ Direction.Follows.refl direction a.time
  | false =>
    obtain ⟨earliest, latest, hbounds, ⟨s, hs, hearliest⟩, ⟨t, ht, hlatest⟩⟩ :=
      bounds_of_mem_coverages hend hfirst hcoverages hcoverage
    have hmoved : ∀ {s instant}, s ∈ a.sequences →
        s.frontierTime.shift (stop.minWait * a.direction.sign) = .ok instant →
          direction.Follows time instant := by
      intro s instant hs hshift
      rw [h.direction_eq] at hshift
      have hs := h.sequences s hs
      exact hs.frontier.trans (Direction.follows_of_shift hs.grown.linear.2
        stop.minWait_nonneg hshift)
    rw [hwindow, Coverage.toWindow, hbounds]
    change direction.Follows time (if query.arriveBy then latest else earliest)
    split
    · exact hmoved ht hlatest
    · exact hmoved hs hearliest

/-- Taking in what is not passed too soon makes no sequence that is. -/
theorem merge (h : a.Timely direction known time) (hlinear : ∀ d ∈ known, d.Linear)
    (hforward : ∀ d ∈ known, d.Forward) {found : List Candidate}
    (hfound : ∀ c ∈ found, KnownAfter direction known time c) (hok : a.merge found = .ok b) :
    b.Timely direction known time := by
  unfold Assembly.merge at hok
  split at hok
  · cases hok
    exact h
  · rename_i stop hend
    split at hok
    · cases hok
      refine ⟨h.direction_eq, h.time_eq, fun s hs => ?_⟩
      obtain ⟨c, hc, rfl⟩ := List.mem_map.1 hs
      rw [h.direction_eq]
      have hc := hfound c hc
      exact .single hc (hc.linear hlinear) (hc.forward hforward)
    · obtain ⟨extended, hextended, rfl⟩ := map_eq_ok_iff.1 hok
      refine ⟨h.direction_eq, h.time_eq, fun t ht => ?_⟩
      obtain ⟨s, hs, next, hnext, hextend⟩ := mem_extendAll hextended ht
      have hnext := hfound next hnext
      exact (h.sequences s hs).extend hnext (hnext.linear hlinear) (hnext.forward hforward)
        stop.minWait_nonneg hextend

end Assembly.Timely

end Known

/-! ### Flattening -/

/-- A sequence starts where its first itinerary does, if this one rides transit or no one
does. -/
theorem Sequence.Grown.originTime_eq {s : Sequence} (h : s.Grown)
    (hfixed : s.streetOnly = true ∨ s.first.isStreetOnly = false) :
    s.originTime = s.direction.nearTime s.first.toItinerary := by
  induction h with
  | single => rfl
  | @extend s t next _ _ hs _ _ hok ih =>
    have hext := (extend_cases hok).2
    cases hext with
    | follows =>
      refine ih (hfixed.imp_left fun hstreet => ?_)
      rw [push_streetOnly, Bool.and_eq_true] at hstreet
      exact hstreet.1
    | meets hride hstreet =>
      rw [hs.streetOnly_eq, Sequence.grown, List.all_cons, Bool.and_eq_true] at hstreet
      simp [hride, hstreet.1] at hfixed
    | connects hride =>
      refine ih (hfixed.imp_left fun hstreet => ?_)
      simp [hride] at hstreet

/-- Attached legs ride transit if some of either part do. -/
theorem Placed.any_attach (direction : Direction) (placed added : List Leg) (p : Leg → Bool) :
    (attach direction placed added).any p = (placed.any p || added.any p) := by
  cases direction
  · exact List.any_append
  · exact List.any_append.trans (Bool.or_comm _ _)

/-- The legs of a layout are the run of the first itinerary and those of the others. -/
theorem Layout.exists_first {s : Sequence} {runs : List (List Leg)} {placed : Placed}
    (h : Layout s runs placed) : ∃ moved rest, MovedAs s.first moved ∧
      placed.legs = Placed.attach s.direction moved rest := by
  obtain ⟨legs_eq, hmoved⟩ := And.intro h.legs_eq h.moved
  unfold Sequence.grown at hmoved
  cases hmoved with
  | @cons _ first _ others hfirst _ =>
    refine ⟨first, (s.direction.inTravelOrder others).flatten, hfirst, legs_eq.trans ?_⟩
    cases s.direction
    · simp [Direction.inTravelOrder, Placed.attach]
    · simp [Direction.inTravelOrder, Placed.attach]

end Composition

namespace Journey

open JourneyPlanner.Composition
open Search (Answer Coverage Query RoutingError)
open Selection (Plan)

/-- From a start to an end a request is kept to: by departing no sooner than it asks for, or by
arriving no later. -/
def Request.Allows (request : Request) (start finish : Instant) : Prop :=
  if request.arriveBy then finish ≤ request.time else request.time ≤ start

instance (request : Request) (start finish : Instant) :
    Decidable (request.Allows start finish) :=
  inferInstanceAs (Decidable (if request.arriveBy then _ ≤ _ else _ ≤ _))

/-- A request is kept to by what is passed, at its near end, no sooner than the time. -/
theorem Request.allows_iff {request : Request} {it : Itinerary} :
    request.Allows it.start it.finish ↔
      request.direction.Follows request.time (request.direction.nearTime it) := by
  unfold Allows direction Direction.ofArriveBy
  split <;> rfl

/-- The legs of an itinerary that is passed no sooner than the time keep to the request. -/
theorem Request.allows_of_mem (request : Request) {it : Itinerary} (hforward : it.Forward)
    (hnear : request.direction.Follows request.time (request.direction.nearTime it))
    {leg : Leg} (hleg : leg ∈ it.legs) : request.Allows leg.start leg.finish := by
  have hwhole := allows_iff.2 hnear
  unfold Allows at hwhole ⊢
  split
  · rename_i harrive
    rw [if_pos harrive] at hwhole
    exact Int.le_trans (hforward.le_finish hleg) hwhole
  · rename_i hdepart
    rw [if_neg hdepart] at hwhole
    exact Int.le_trans hwhole (hforward.start_le hleg)

/-- How far a journey keeps to the time of a request. -/
structure KeepsTime (request : Request) (known : List Candidate) (it : Itinerary) : Prop where
  /-- Each ride does. -/
  rides : ∀ leg ∈ it.legs, leg.isTransit = true → request.Allows leg.start leg.finish
  /-- The whole journey does, unless its first part, in the direction of growth, stays on the
  street and has been moved to meet a ride behind it. That part itself did, where it was
  found. -/
  whole : request.Allows it.start it.finish ∨
    ∃ part ∈ known, ∃ moved rest, part.isStreetOnly = true ∧
      request.Allows part.start part.finish ∧ MovedAs part moved ∧
      it.legs = Placed.attach request.direction moved rest ∧ rest.any Leg.isTransit = true

/-- A journey that is itself known to be passed no sooner keeps to the time with all its legs. -/
theorem KeepsTime.of_known {request : Request} {known : List Candidate} {it : Itinerary}
    (hforward : it.Forward)
    (hnear : request.direction.Follows request.time (request.direction.nearTime it)) :
    KeepsTime request known it where
  rides := fun _ hleg _ => request.allows_of_mem hforward hnear hleg
  whole := Or.inl (Request.allows_iff.2 hnear)

/-- The itinerary of a sequence none of whose members is passed too soon keeps to the time, but
for a first part on the street. -/
theorem KeepsTime.of_timely {request : Request} {known : List Candidate} {s : Sequence}
    (hs : s.Timely request.direction known request.time) (hforward : ∀ d ∈ known, d.Forward)
    {identity : Identity} {flat : Candidate} (hflat : s.flatten identity = .ok flat) :
    KeepsTime request known flat.toItinerary := by
  obtain ⟨placed, hplaced, hlegs⟩ := Sequence.legs_of_flatten hflat
  obtain ⟨runs, hlayout⟩ := hs.grown.exists_layout hplaced
  constructor
  · intro leg hleg hride
    rw [hlegs, hlayout.legs_eq, List.mem_flatten] at hleg
    obtain ⟨run, hrun, hleg⟩ := hleg
    obtain ⟨c, hc, hmoved⟩ := hlayout.exists_moved hrun
    have hc := hs.members c hc
    have hrides : c.isStreetOnly = false := by
      have hany : run.any Leg.isTransit = true := List.any_eq_true.2 ⟨leg, hleg, hride⟩
      rw [hmoved.any_isTransit] at hany
      simpa using hany
    rw [hmoved.eq_legs hrides] at hleg
    exact request.allows_of_mem (hc.forward hforward) hc.near hleg
  · have hfirst := hs.members s.first (by simp [Sequence.grown])
    by_cases hfixed : s.streetOnly = true ∨ s.first.isStreetOnly = false
    · left
      have hnear := s.direction.nearInstant?_legs flat.toItinerary
      rw [hlegs, hlayout.near, hs.grown.originTime_eq hfixed, hs.direction_eq] at hnear
      rw [Request.allows_iff, ← Option.some.inj hnear]
      exact hfirst.near
    · right
      obtain ⟨hscheduled, hstreet⟩ := not_or.1 hfixed
      obtain ⟨part, hpart, heq⟩ := hfirst.known
      obtain ⟨moved, rest, hmoved, hattach⟩ := hlayout.exists_first
      have hrest : rest.any Leg.isTransit = true := by
        have hany := hlayout.any_isTransit hs.grown
        rw [hattach, Placed.any_attach, hmoved.any_isTransit] at hany
        simpa [hscheduled, hstreet] using hany
      refine ⟨part, hpart, moved, rest, ?_, ?_, ?_, ?_, hrest⟩
      · rw [heq]
        simpa using hstreet
      · rw [heq]
        exact Request.allows_iff.2 hfirst.near
      · unfold MovedAs at hmoved ⊢
        rwa [heq]
      · rw [hlegs, hattach, hs.direction_eq]

namespace Router

variable {router : Router}

/-- A plan that drops leaves candidates alone that are as each of its rules ensures. -/
theorem exists_chain_of_meets {plan : Plan} {candidates : List Candidate}
    (hcheck : plan.check = .ok ()) (hdrops : plan.debug = false)
    (hmeets : ∀ rule ∈ plan.rules, rule.Meets candidates) :
    ∃ chain, chainOf plan = .ok chain ∧ (chain.run candidates).candidates = candidates := by
  refine ⟨plan.chain, ?_, Plan.run_chain_eq_self hdrops hmeets⟩
  rw [chainOf, Plan.build_eq_ok hcheck]
  rfl

/-- An answer that is as each rule ensures is gathered as it is. -/
theorem gather_of_meets {asked : Nat} {query : Query} {answer : Answer}
    (hengine : router.engine asked query = .ok answer)
    (hcheck : (router.stepPlan query answer).check = .ok ())
    (hdrops : (router.stepPlan query answer).debug = false)
    (hmeets : ∀ rule ∈ (router.stepPlan query answer).rules, rule.Meets answer.itineraries) :
    router.gather (router.ask asked [query]) = .ok (answer.itineraries, answer.routingErrors) := by
  obtain ⟨chain, hchain, hrun⟩ := exists_chain_of_meets hcheck hdrops hmeets
  simp [ask, gather, hengine, hchain, hrun, bind, Except.bind, pure, Except.pure]

/-- An assembly is bridged step by step, while sequences are left. -/
theorem bridge_of_gather {a b : Assembly} {coverages : List Coverage}
    {found : List Candidate} {queries : List Query} {errors more : List RoutingError}
    {left : Nat} (hcoverages : a.advance.coverages = .ok coverages)
    (hgather : router.gather (router.ask queries.length
      (coverages.filterMap a.advance.query?)) = .ok (found, more))
    (hmerge : a.advance.merge found = .ok b) (hheld : b.sequences.isEmpty = false) :
    router.bridge a queries errors (left + 1) =
      router.bridge b (queries ++ coverages.filterMap a.advance.query?) (errors ++ more) left := by
  rw [bridge, hcoverages]
  simp [hgather, hmerge, hheld, bind, Except.bind]

/-- Every search is answered from some known itineraries. -/
def Replays (router : Router) (known : List Candidate) : Prop :=
  ∀ asked query, router.engine asked query = .ok (Search.replay known query)

variable {known : List Candidate}

/-- What is gathered from known itineraries is passed no sooner than the searches ask for. -/
theorem Replays.knownAfter_of_gather (hreplays : router.Replays known) {direction : Direction}
    {time : Instant} {asked : Nat} {queries : List Query}
    (hqueries : ∀ query ∈ queries, query.arriveBy = direction.isArriveBy ∧
      direction.Follows time (query.window.anchor query.arriveBy))
    {found : List Candidate} {errors : List RoutingError}
    (hok : router.gather (router.ask asked queries) = .ok (found, errors)) {c : Candidate}
    (hc : c ∈ found) : KnownAfter direction known time c := by
  obtain ⟨query, answer, hreply, d, hd, heq⟩ := exists_of_mem_gather hok hc
  obtain ⟨hquery, n, hengine⟩ := exists_of_mem_ask hreply
  rw [hreplays] at hengine
  cases hengine
  obtain ⟨hdirection, hanchor⟩ := hqueries query hquery
  refine ⟨⟨d, (Search.replay_answers hd).1, heq⟩, ?_⟩
  rw [← heq]
  exact hanchor.trans (Search.follows_of_mem_replay hd hdirection)

/-- However an assembly is bridged from known itineraries, no sequence is passed too soon. -/
theorem Replays.timely_of_bridge (hreplays : router.Replays known)
    (hlinear : ∀ d ∈ known, d.Linear) (hforward : ∀ d ∈ known, d.Forward) {direction : Direction}
    {time : Instant} {left : Nat} {a : Assembly} {queries queries' : List Query}
    {errors : List RoutingError} {assembled : Assembled}
    (h : a.Timely direction known time)
    (hok : router.bridge a queries errors left = .ok (queries', .ok assembled)) :
    ∀ s ∈ assembled.assembly.sequences, s.Timely direction known time := by
  induction left generalizing a queries errors with
  | zero =>
    cases hok
    exact h.sequences
  | succ left ih =>
    obtain ⟨coverages, found, more, b, hcoverages, hgather, hmerge, hrest⟩ := bridge_cases hok
    have hb := h.advance.merge hlinear hforward (fun c hc => hreplays.knownAfter_of_gather
      (fun query hquery => h.advance.follows_of_query hcoverages hquery) hgather hc) hmerge
    rcases hrest with hempty | ⟨asked, reported, hbridge⟩
    · simp [hempty]
    · exact ih hb hbridge

/-- A journey found without waypoints keeps to the time. -/
theorem Replays.keepsTime_of_routeDirect (hreplays : router.Replays known)
    (hforward : ∀ d ∈ known, d.Forward) {request : Request} {windowLength : Option Int}
    {response : Response} (hresponse : (router.routeDirect request windowLength).outcome =
      .ok response) {c : Candidate} (hc : c ∈ response.itineraries) :
    KeepsTime request known c.toItinerary := by
  unfold routeDirect at hresponse
  obtain ⟨answer, hanswer, hresponse⟩ := bind_eq_ok_iff.1 hresponse
  obtain ⟨chain, -, hresponse⟩ := bind_eq_ok_iff.1 hresponse
  cases hresponse
  rw [hreplays] at hanswer
  cases hanswer
  obtain ⟨d, hd, heq⟩ := Selection.Chain.exists_of_mem_run hc
  rw [← heq]
  have hdirection : (directQuery request windowLength).arriveBy =
      request.direction.isArriveBy := by
    change request.arriveBy = (Direction.ofArriveBy request.arriveBy).isArriveBy
    cases request.arriveBy <;> rfl
  exact .of_known (hforward d (Search.replay_answers hd).1)
    (Search.follows_of_mem_replay hd hdirection)

/-- A journey found through stopovers keeps to the time, but for a first part on the street. -/
theorem Replays.keepsTime_of_routeVia (hreplays : router.Replays known)
    (hlinear : ∀ d ∈ known, d.Linear) (hforward : ∀ d ∈ known, d.Forward) {request : Request}
    {route : List Stopover} {windowLength : Option Int} {run : Run} {response : Response}
    (hok : router.routeVia request route windowLength = .ok run)
    (hresponse : run.outcome = .ok response) {c : Candidate} (hc : c ∈ response.itineraries) :
    KeepsTime request known c.toItinerary := by
  unfold routeVia at hok
  split at hok
  · cases hok
    cases hresponse
  · rename_i a hstart
    have hbegin : a.Timely request.direction known request.time := .of_start hstart
    obtain ⟨⟨queries, bridged⟩, hbridge, hok⟩ := bind_eq_ok_iff.1 hok
    cases bridged with
    | error reason =>
      cases hok
      cases hresponse
    | ok assembled =>
      obtain ⟨outcome, hconclude, hrun⟩ := bind_eq_ok_iff.1 hok
      cases hrun
      dsimp only at hresponse
      rw [hresponse] at hconclude
      obtain ⟨s, hs, identity, flat, hflat, heq⟩ := exists_of_conclude hconclude hc
      rw [← heq]
      exact .of_timely (hreplays.timely_of_bridge hlinear hforward hbegin hbridge s hs) hforward
        hflat

/-- Every journey that is routed from known itineraries keeps to the time of its request: no
ride departs before it, or arrives after it, and nor does the whole journey, unless it begins,
or ends, on the street with a part that has been moved to meet a ride. -/
theorem route_keeps_time (hreplays : router.Replays known) (hlinear : ∀ d ∈ known, d.Linear)
    (hforward : ∀ d ∈ known, d.Forward) {request : Request} {run : Run} {response : Response}
    (hroute : router.route request = .ok run) (hresponse : run.outcome = .ok response)
    {c : Candidate} (hc : c ∈ response.itineraries) : KeepsTime request known c.toItinerary := by
  unfold route at hroute
  split at hroute
  · cases hroute
    cases hresponse
  · split at hroute
    · cases hroute
      exact hreplays.keepsTime_of_routeDirect hforward hresponse hc
    · exact hreplays.keepsTime_of_routeVia hlinear hforward hroute hresponse hc

/-- A fast and a slow walk to the second stop, both at eight. -/
private def walksAtEight : List Candidate :=
  [.ofLeg 0 (.onDay .walk (.inRow 0) (.inRow 1) 480 490),
    .ofLeg 1 (.onDay .walk (.inRow 0) (.inRow 1) 480 540)]

/-- A bus from there that leaves before the slow walk arrives. -/
private def busBetween : List Candidate :=
  [.ofLeg 2 (.onDay .bus (.inRow 1) (.inRow 2) 500 520)]

/-- A journey from the first by way of the second to the third stop, from eight on. -/
private def fromEightOn : Request where
  origin := .ofPlace (.inRow 0)
  destination := .ofPlace (.inRow 2)
  waypoints := [⟨.ofPlace (.inRow 1), none, none⟩]
  time := .ofMinute 480
  arriveBy := false
  window := none
  wanted := -1
  modes := .default

/-- A router that replays the walks and the bus, and drops none of them for another. -/
private def walksRouter : Router where
  engine := fun _ query => .ok (Search.replay (walksAtEight ++ busBetween) query)
  settings := .default
  options := { Selection.Options.default with
    keepOneShare := 0.0, keepFewShare := 0.0, maxStreetOnly := -1 }

/-- The route of the journey. -/
private def routeByWalk : List Stopover :=
  [.atEnd (.ofPlace (.inRow 0)),
    { Stopover.atEnd (.ofPlace (.inRow 1)) with
      maxWait := Span.minutes 180, minWait_le_maxWait := by decide },
    .atEnd (.ofPlace (.inRow 2))]

/-- The assembly before its first junction. -/
private def beforeWalks : Assembly where
  direction := .departAt
  junctions := Junction.along routeByWalk
  step := 0
  sequences := []
  time := .ofMinute 480
  windowLength := none
  modes := .default

/-- The search for the walks. -/
private def walksQuery : Query :=
  ⟨.ofPlace (.inRow 0), .ofPlace (.inRow 1), false, .unbounded (.ofMinute 480) none, .default⟩

/-- The assembly with the walks. -/
private def behindWalks : Assembly :=
  { beforeWalks with step := 1, sequences := walksAtEight.map (Sequence.single .departAt) }

/-- What has to be covered behind the walks: from the arrival of the fast one on. -/
private def afterWalks : Coverage :=
  ⟨.ofPlace (.inRow 1), some (.ofMinute 490, .ofMinute 540)⟩

/-- The search for the bus. -/
private def busQuery : Query :=
  ⟨.ofPlace (.inRow 1), .ofPlace (.inRow 2), false,
    .bounded (.ofMinute 490) (.ofMinute 540), .default⟩

/-- The assembly in the end, in which both walks have been moved to meet the bus. -/
private def behindBus : Assembly :=
  { beforeWalks with
    step := 2
    sequences :=
      [(Sequence.single .departAt walksAtEight[0]).push 0 busBetween[0] (.ofMinute 490)
          (.ofMinute 520),
        (Sequence.single .departAt walksAtEight[1]).push 0 busBetween[0] (.ofMinute 440)
          (.ofMinute 520)] }

/-- The two journeys. -/
private def journeysByWalk : List Candidate :=
  match behindBus.itineraries with
  | .ok composed => composed
  | .error _ => []

/-- Both searches find what they look for, and both walks are joined to the bus. -/
private theorem bridge_walks : walksRouter.bridge beforeWalks [] [] 2 =
    .ok ([walksQuery, busQuery], .ok ⟨behindBus, []⟩) := by
  have hwalks : walksRouter.gather (walksRouter.ask 0 [walksQuery]) = .ok (walksAtEight, []) :=
    @gather_of_meets walksRouter 0 walksQuery ⟨walksAtEight, [], none, []⟩ rfl
      (by decide +kernel) rfl (by decide +kernel)
  have hbus : walksRouter.gather (walksRouter.ask 1 [busQuery]) = .ok (busBetween, []) :=
    @gather_of_meets walksRouter 1 busQuery ⟨busBetween, [], some (Span.minutes 50), []⟩ rfl
      (by decide +kernel) rfl (by decide +kernel)
  have hcoverages : beforeWalks.advance.coverages = .ok [.empty (.ofPlace (.inRow 0))] := rfl
  have hcoverages' : behindWalks.advance.coverages = .ok [afterWalks] := by decide +kernel
  have hmerge : beforeWalks.advance.merge walksAtEight = .ok behindWalks := rfl
  have hmerge' : behindWalks.advance.merge busBetween = .ok behindBus := rfl
  rw [bridge_of_gather hcoverages hwalks hmerge rfl, bridge_of_gather hcoverages' hbus hmerge' rfl]
  rfl

/-- Both journeys are shown. -/
private theorem route_walks : ∃ response, walksRouter.route fromEightOn =
    .ok ⟨.ok response, [walksQuery, busQuery]⟩ ∧ response.itineraries = journeysByWalk := by
  have hcomposed : behindBus.itineraries = .ok journeysByWalk := rfl
  obtain ⟨chain, hchain, hrun⟩ := @exists_chain_of_meets (walksRouter.finalPlan fromEightOn)
    journeysByWalk (by decide +kernel) rfl (by decide +kernel)
  have hconclude : walksRouter.conclude fromEightOn ⟨behindBus, []⟩ 2 =
      .ok (.ok (respond chain journeysByWalk [] 2)) := by
    rw [conclude, hchain]
    simp [hcomposed]
  have hstart : Assembly.start fromEightOn.direction routeByWalk fromEightOn.time none
      fromEightOn.modes = .ok beforeWalks := rfl
  have hbridge : walksRouter.bridge beforeWalks [] [] beforeWalks.junctions.length =
      .ok ([walksQuery, busQuery], .ok ⟨behindBus, []⟩) := bridge_walks
  have hvia : walksRouter.routeVia fromEightOn routeByWalk none =
      .ok ⟨.ok (respond chain journeysByWalk [] 2), [walksQuery, busQuery]⟩ := by
    simp [routeVia, hstart, hbridge, hconclude, bind, Except.bind, pure, Except.pure]
  have hprepare : walksRouter.prepare fromEightOn = .ok (routeByWalk, none) := rfl
  have hroute : walksRouter.route fromEightOn = walksRouter.routeVia fromEightOn routeByWalk
      none := by
    rw [route, hprepare]
    rfl
  exact ⟨_, hroute.trans hvia, hrun⟩

/-- The rides of both journeys keep to the time, and so do the walks where they were found. -/
theorem walks_then_bus_keep_time : walksRouter.Replays (walksAtEight ++ busBetween) ∧
    (∀ d ∈ walksAtEight ++ busBetween, d.Linear) ∧
    (∀ d ∈ walksAtEight ++ busBetween, d.Forward) ∧
    ∃ run response, walksRouter.route fromEightOn = .ok run ∧ run.outcome = .ok response ∧
      response.itineraries.length = 2 ∧ ∀ c ∈ response.itineraries,
        KeepsTime fromEightOn (walksAtEight ++ busBetween) c.toItinerary := by
  have hreplays : walksRouter.Replays (walksAtEight ++ busBetween) := fun _ _ => rfl
  have hlinear : ∀ d ∈ walksAtEight ++ busBetween, d.Linear := by decide
  have hforward : ∀ d ∈ walksAtEight ++ busBetween, d.Forward := by decide
  obtain ⟨response, hroute, hshown⟩ := route_walks
  exact ⟨hreplays, hlinear, hforward, _, response, hroute, rfl, by rw [hshown]; decide +kernel,
    fun _ hc => route_keeps_time hreplays hlinear hforward hroute rfl hc⟩

/-- The slow walk, moved to meet the bus, leaves before the time asked for. -/
theorem slow_walk_leaves_early : walksRouter.Replays (walksAtEight ++ busBetween) ∧
    ∃ run response, walksRouter.route fromEightOn = .ok run ∧ run.outcome = .ok response ∧
      fromEightOn.arriveBy = false ∧
      ∃ c ∈ response.itineraries, c.start < fromEightOn.time := by
  obtain ⟨response, hroute, hshown⟩ := route_walks
  have hearly : ∃ c ∈ journeysByWalk, c.start < fromEightOn.time := by decide +kernel
  exact ⟨fun _ _ => rfl, _, response, hroute, rfl, rfl, by rwa [hshown]⟩

end Router

end Journey

end JourneyPlanner
