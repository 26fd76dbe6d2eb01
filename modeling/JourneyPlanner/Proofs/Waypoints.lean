import JourneyPlanner.Journey.Router
import JourneyPlanner.Proofs.Bridging
import JourneyPlanner.Proofs.RuleEffects
import JourneyPlanner.Search.Replay

/-!
# Journeys through waypoints

Whatever is searched, selected and joined on the way, each itinerary of a response can
be cut at the waypoints of its request: the runs of legs between the cuts meet there,
and the waits are those that were allowed. All that is needed of the search engine is
that it answers what it is asked.
-/

namespace JourneyPlanner

open JourneyPlanner.Composition
open Search (Answer Query RoutingError)

/-- What a replay finds runs between the two locations asked for. -/
theorem Search.replay_answers {known : List Candidate} {query : Query} {c : Candidate}
    (hc : c ∈ (replay known query).itineraries) : c ∈ known ∧ query.Answers c.toItinerary := by
  unfold replay at hc
  dsimp only at hc
  split_ifs at hc
  · cases hc
  · cases hc
  · cases hc
  · cases hc
  · obtain ⟨hbetween, -⟩ := List.mem_filter.1 hc
    obtain ⟨hfrom, hdestination⟩ := List.mem_filter.1 hbetween
    obtain ⟨hknown, horigin⟩ := List.mem_filter.1 hfrom
    exact ⟨hknown, horigin, hdestination⟩

namespace Journey

/-- A search engine only finds itineraries that run between the two locations asked for. -/
def Engine.Faithful (engine : Engine) : Prop :=
  ∀ {asked query answer}, engine asked query = .ok answer → ∀ c ∈ answer.itineraries,
    query.Answers c.toItinerary

/-- A search engine only finds itineraries without inserted seconds. -/
def Engine.Linear (engine : Engine) : Prop :=
  ∀ {asked query answer}, engine asked query = .ok answer → ∀ c ∈ answer.itineraries, c.Linear

/-! ### The stopovers of a request -/

/-- A stopover is made at the location asked for. -/
theorem Stopover.location_of {location : Location} {minWait maxWait limit : Int}
    {stop : Stopover} (hok : Stopover.of location minWait maxWait limit = .ok stop) :
    stop.location = location := by
  unfold Stopover.of at hok
  split at hok
  · cases hok
  · cases hok
  · split at hok
    · cases hok
      rfl
    · cases hok

/-- A stopover is the one that a waypoint resolves to. -/
def Waypoint.ResolvesTo (settings : Settings) (waypoint : Waypoint) (stop : Stopover) : Prop :=
  waypoint.resolve settings.transferSlackSpan settings.maxWaitSpan = .ok stop ∧
    stop.location = waypoint.location

/-- Waypoints are resolved one by one, in their order. -/
theorem Request.resolvesTo_of_resolveAll {settings : Settings} {waypoints : List Waypoint}
    {stops : List Stopover}
    (hok : resolveAll settings.transferSlackSpan settings.maxWaitSpan waypoints = .ok stops) :
    List.Forall₂ (Waypoint.ResolvesTo settings) waypoints stops := by
  induction waypoints generalizing stops with
  | nil =>
    cases hok
    exact .nil
  | cons waypoint rest ih =>
    obtain ⟨stop, hstop, hmore⟩ := bind_eq_ok_iff.1 hok
    obtain ⟨others, hothers, hall⟩ := bind_eq_ok_iff.1 hmore
    cases hall
    obtain ⟨minWait, -, hmax⟩ := bind_eq_ok_iff.1 hstop
    obtain ⟨maxWait, -, hof⟩ := bind_eq_ok_iff.1 hmax
    exact .cons ⟨hstop, Stopover.location_of hof⟩ (ih hothers)

/-- The route of a request leads from its origin by way of its waypoints to its destination. -/
theorem Request.exists_stopovers {request : Request} {settings : Settings}
    {route : List Stopover} (hok : request.stopovers settings = .ok route) :
    ∃ stops, route = Stopover.atEnd request.origin ::
        (stops ++ [Stopover.atEnd request.destination]) ∧
      List.Forall₂ (Waypoint.ResolvesTo settings) request.waypoints stops := by
  obtain ⟨stops, hstops, rfl⟩ := map_eq_ok_iff.1 hok
  exact ⟨stops, rfl, resolvesTo_of_resolveAll (ok_of_mapError hstops)⟩

namespace Router

variable {router : Router}

/-- What is gathered comes from the answer to one of the queries. -/
theorem exists_of_mem_gather {replies : List (Query × Except SearchError Answer)}
    {found : List Candidate} {errors : List RoutingError}
    (hok : router.gather replies = .ok (found, errors)) {c : Candidate} (hc : c ∈ found) :
    ∃ query answer, (query, .ok answer) ∈ replies ∧
      ∃ d ∈ answer.itineraries, d.toItinerary = c.toItinerary := by
  induction replies generalizing found errors with
  | nil =>
    cases hok
    cases hc
  | cons reply rest ih =>
    obtain ⟨query, reply⟩ := reply
    obtain ⟨answer, hanswer, hmore⟩ := bind_eq_ok_iff.1 hok
    obtain ⟨chain, -, hmore⟩ := bind_eq_ok_iff.1 hmore
    obtain ⟨⟨others, otherErrors⟩, hothers, hall⟩ := bind_eq_ok_iff.1 hmore
    cases hall
    rcases List.mem_append.1 hc with hc | hc
    · exact ⟨query, answer, by simp [hanswer], Selection.Chain.exists_of_mem_run hc⟩
    · obtain ⟨query', answer', hreply, hd⟩ := ih hothers hc
      exact ⟨query', answer', List.mem_cons_of_mem _ hreply, hd⟩

/-- Each reply is what the engine answers to a query. -/
theorem exists_of_mem_ask {asked : Nat} {queries : List Query} {query : Query}
    {reply : Except SearchError Answer} (h : (query, reply) ∈ router.ask asked queries) :
    query ∈ queries ∧ ∃ n, router.engine n query = reply := by
  obtain ⟨⟨query', index⟩, hmem, heq⟩ := List.mem_map.1 h
  cases heq
  exact ⟨List.fst_mem_of_mem_zipIdx hmem, asked + index, rfl⟩

/-- What is gathered from a faithful engine answers one of the queries. -/
theorem answers_of_mem_gather (hfaithful : router.engine.Faithful)
    (hlinear : router.engine.Linear) {asked : Nat} {queries : List Query}
    {found : List Candidate} {errors : List RoutingError}
    (hok : router.gather (router.ask asked queries) = .ok (found, errors)) {c : Candidate}
    (hc : c ∈ found) : ∃ query ∈ queries, query.Answers c.toItinerary ∧ c.Linear := by
  obtain ⟨query, answer, hreply, d, hd, heq⟩ := exists_of_mem_gather hok hc
  obtain ⟨hquery, n, hengine⟩ := exists_of_mem_ask hreply
  rw [← heq]
  exact ⟨query, hquery, hfaithful hengine d hd, hlinear hengine d hd⟩

/-- One more junction is bridged by merging what has been gathered for it. That ends the
bridging, if no sequence is left, and else it goes on with the junctions behind it. -/
theorem bridge_succ_cases {a : Assembly} {queries queries' : List Query}
    {errors : List RoutingError} {left : Nat} {assembled : Assembled}
    (hok : router.bridge a queries errors (left + 1) = .ok (queries', .ok assembled)) :
    ∃ coverages found more b, a.advance.coverages = .ok coverages ∧
      router.gather (router.ask queries.length (coverages.filterMap a.advance.query?)) =
        .ok (found, more) ∧
      a.advance.merge found = .ok b ∧
      (b.sequences = [] ∧ queries' = queries ++ coverages.filterMap a.advance.query? ∧
          assembled.assembly = b ∨
        router.bridge b (queries ++ coverages.filterMap a.advance.query?) (errors ++ more) left =
          .ok (queries', .ok assembled)) := by
  unfold bridge at hok
  obtain ⟨coverages, hcoverages, hok⟩ := bind_eq_ok_iff.1 hok
  dsimp only at hok
  split at hok
  · cases hok
  · rename_i found more hgather
    obtain ⟨b, hmerge, hok⟩ := bind_eq_ok_iff.1 hok
    refine ⟨coverages, found, more, b, hcoverages, hgather, hmerge, ?_⟩
    split at hok
    · rename_i hempty
      cases hok
      exact Or.inl ⟨List.isEmpty_iff.1 hempty, rfl, rfl⟩
    · exact Or.inr hok

/-- The same, where it does not matter what was asked. -/
theorem bridge_cases {a : Assembly} {queries queries' : List Query} {errors : List RoutingError}
    {left : Nat} {assembled : Assembled}
    (hok : router.bridge a queries errors (left + 1) = .ok (queries', .ok assembled)) :
    ∃ coverages found more b, a.advance.coverages = .ok coverages ∧
      router.gather (router.ask queries.length (coverages.filterMap a.advance.query?)) =
        .ok (found, more) ∧
      a.advance.merge found = .ok b ∧
      (assembled.assembly.sequences = [] ∨
        ∃ asked reported, router.bridge b asked reported left = .ok (queries', .ok assembled)) := by
  obtain ⟨coverages, found, more, b, hcoverages, hgather, hmerge, hrest⟩ := bridge_succ_cases hok
  refine ⟨coverages, found, more, b, hcoverages, hgather, hmerge, ?_⟩
  rcases hrest with ⟨hempty, -, rfl⟩ | hbridge
  · exact Or.inl hempty
  · exact Or.inr ⟨_, _, hbridge⟩

/-- However an assembly is bridged, its sequences bridge the whole route in the end; if none is
left earlier, there is nothing to show. -/
theorem bridges_of_bridge (hfaithful : router.engine.Faithful) (hlinear : router.engine.Linear)
    {direction : Direction} {route : List Stopover} {begun left : Nat} {a : Assembly}
    {queries queries' : List Query} {errors : List RoutingError} {assembled : Assembled}
    (h : a.Bridged direction route begun) (hleft : begun + left = a.junctions.length)
    (hok : router.bridge a queries errors left = .ok (queries', .ok assembled))
    {s : Sequence} (hs : s ∈ assembled.assembly.sequences) :
    ∃ first via last, direction.inTravelOrder route = first :: (via ++ [last]) ∧
      s.Bridges direction first via last := by
  induction left generalizing a begun queries errors with
  | zero =>
    cases hok
    exact h.whole hleft hs
  | succ left ih =>
    obtain ⟨coverages, found, more, b, hcoverages, hgather, hmerge, hrest⟩ := bridge_cases hok
    have hmore : begun < a.junctions.length := by omega
    have halong := h.along.advance hmore
    have hbegun : begun < a.advance.junctions.length := by rwa [Assembly.advance_junctions]
    have hspans : ∀ c ∈ found, Spans direction (direction.inTravelOrder route) begun c := by
      intro c hc
      obtain ⟨query, hquery, hanswers, hc⟩ := answers_of_mem_gather hfaithful hlinear hgather hc
      exact halong.spans_of_query hbegun hcoverages hquery hc hanswers
    have hb := h.merge hmore hspans hmerge
    rcases hrest with hempty | ⟨asked, reported, hbridge⟩
    · rw [hempty] at hs
      cases hs
    · have hlength : b.junctions.length = a.junctions.length := by
        rw [hb.along.length_junctions, h.along.length_junctions]
      exact ih hb (by omega) hbridge

/-- Each itinerary of a response is what a sequence of the assembled route comes to. -/
theorem exists_of_conclude {request : Request} {assembled : Assembled} {searches : Nat}
    {response : Response} (hok : router.conclude request assembled searches = .ok (.ok response))
    {c : Candidate} (hc : c ∈ response.itineraries) :
    ∃ s ∈ assembled.assembly.sequences, ∃ identity flat, s.flatten identity = .ok flat ∧
      flat.toItinerary = c.toItinerary := by
  unfold conclude at hok
  split at hok
  · cases hok
  · split at hok
    · cases hok
    · cases hok
    · rename_i candidates hcandidates
      cases hok
      obtain ⟨flat, hflat, heq⟩ := Selection.Chain.exists_of_mem_run hc
      obtain ⟨s, hs, identity, hidentity⟩ := Sequence.mem_flattenAll hcandidates hflat
      exact ⟨s, hs, identity, flat, hidentity, heq⟩

/-- Each itinerary of a route through stopovers is what a sequence that bridges the route comes
to. -/
theorem exists_of_routeVia (hfaithful : router.engine.Faithful) (hlinear : router.engine.Linear)
    {request : Request} {route : List Stopover} {windowLength : Option Int} {run : Run}
    {response : Response} (hok : router.routeVia request route windowLength = .ok run)
    (hresponse : run.outcome = .ok response) {c : Candidate} (hc : c ∈ response.itineraries) :
    ∃ s first via last, request.direction.inTravelOrder route = first :: (via ++ [last]) ∧
      Sequence.Bridges request.direction first via last s ∧
      ∃ identity flat, s.flatten identity = .ok flat ∧ flat.toItinerary = c.toItinerary := by
  unfold routeVia at hok
  split at hok
  · cases hok
    cases hresponse
  · rename_i a hstart
    obtain ⟨halong, hempty⟩ := Assembly.along_of_start hstart
    have hbegin : a.Bridged request.direction route 0 := ⟨halong, by simp [hempty]⟩
    obtain ⟨⟨queries, bridged⟩, hbridge, hok⟩ := bind_eq_ok_iff.1 hok
    cases bridged with
    | error reason =>
      cases hok
      cases hresponse
    | ok assembled =>
      obtain ⟨outcome, hconclude, hrun⟩ := bind_eq_ok_iff.1 hok
      cases hrun
      dsimp only at hresponse
      rw [hresponse] at hconclude
      obtain ⟨s, hs, identity, flat, hflat, heq⟩ := exists_of_conclude hconclude hc
      obtain ⟨first, via, last, hstops, hbridges⟩ :=
        bridges_of_bridge hfaithful hlinear hbegin (Nat.zero_add _) hbridge hs
      exact ⟨s, first, via, last, hstops, hbridges, identity, flat, hflat, heq⟩

end Router

/-! ### The itineraries of a response -/

/-- An itinerary passes the waypoints of a request in runs of legs, with a cut at each. -/
structure Passes (request : Request) (stops : List Stopover) (it : Itinerary)
    (runs : List (List Leg)) : Prop where
  /-- The runs are all its legs, in order. -/
  legs_eq : runs.flatten = it.legs
  /-- There is one run more than there are waypoints. -/
  length_eq : runs.length = request.waypoints.length + 1
  /-- Each run has a leg. -/
  ne_nil : ∀ run ∈ runs, run ≠ []
  /-- The first run starts at the origin asked for. -/
  starts : request.origin.isAt it.origin = true
  /-- The last run ends at the destination asked for. -/
  ends : request.destination.isAt it.destination = true
  /-- Neighbouring runs are cut at the waypoints, in their order. -/
  cuts : Linked (CutAt request.direction) stops runs

/-- An itinerary of a sequence that bridges the route of a request passes its waypoints. -/
theorem exists_passes {request : Request} {settings : Settings} {stops : List Stopover}
    (hstops : List.Forall₂ (Waypoint.ResolvesTo settings) request.waypoints stops)
    {first last : Stopover} {via : List Stopover} {s : Sequence}
    (hroute : request.direction.inTravelOrder (Stopover.atEnd request.origin ::
      (stops ++ [Stopover.atEnd request.destination])) = first :: (via ++ [last]))
    (hbridges : Sequence.Bridges request.direction first via last s) {identity : Identity}
    {flat : Candidate} (hflat : s.flatten identity = .ok flat) :
    ∃ runs, Passes request stops flat.toItinerary runs := by
  obtain ⟨runs, hlegs, hne, hcuts, hnear, hfar⟩ := hbridges.exists_cuts hflat
  obtain ⟨hvia, hdirections⟩ := Direction.between_of_inTravelOrder hroute
  have hends : request.origin.isAt flat.origin = true ∧
      request.destination.isAt flat.destination = true := by
    rcases hdirections with ⟨hdirection, rfl, rfl⟩ | ⟨hdirection, rfl, rfl⟩
    · rw [hdirection] at hnear hfar
      exact ⟨hnear, hfar⟩
    · rw [hdirection] at hnear hfar
      exact ⟨hfar, hnear⟩
  rw [hvia] at hcuts
  exact ⟨runs, hlegs, by rw [← hcuts.length_eq, hstops.length_eq], hne, hends.1, hends.2, hcuts⟩

/-- Every itinerary of a response to a request with waypoints passes them in order: it is cut
there into runs of legs that meet at the waypoint after a wait that was allowed. -/
theorem Router.route_passes_waypoints {router : Router} (hfaithful : router.engine.Faithful)
    (hlinear : router.engine.Linear) {request : Request} (hvia : request.waypoints ≠ [])
    {run : Run} (hroute : router.route request = .ok run) {response : Response}
    (hresponse : run.outcome = .ok response) :
    ∃ stops, List.Forall₂ (Waypoint.ResolvesTo router.settings) request.waypoints stops ∧
      ∀ c ∈ response.itineraries, ∃ runs, Passes request stops c.toItinerary runs := by
  unfold route at hroute
  split at hroute
  · cases hroute
    cases hresponse
  · rename_i route windowLength hprepare
    rw [if_neg (by simpa using hvia)] at hroute
    obtain ⟨_, -, hprepare⟩ := bind_eq_ok_iff.1 hprepare
    obtain ⟨_, -, hprepare⟩ := bind_eq_ok_iff.1 hprepare
    obtain ⟨_, -, hprepare⟩ := bind_eq_ok_iff.1 hprepare
    obtain ⟨found, hstopovers, hprepare⟩ := bind_eq_ok_iff.1 hprepare
    obtain ⟨_, -, hprepare⟩ := bind_eq_ok_iff.1 hprepare
    cases hprepare
    obtain ⟨stops, rfl, hstops⟩ := Request.exists_stopovers (ok_of_mapError hstopovers)
    refine ⟨stops, hstops, fun c hc => ?_⟩
    obtain ⟨s, first, via, last, hgrowth, hbridges, identity, flat, hflat, heq⟩ :=
      exists_of_routeVia hfaithful hlinear hroute hresponse hc
    rw [← heq]
    exact exists_passes hstops hgrowth hbridges hflat

/-- A bus to the second stop and a bus from there. -/
private def cornerBuses : List Candidate :=
  [.ofLeg 0 (.onDay .bus (.inRow 0) (.inRow 1) 600 620),
    .ofLeg 1 (.onDay .bus (.inRow 1) (.inRow 2) 640 660)]

/-- A journey from the first to the third stop with ten minutes or more at the second. -/
private def viaCorner : Request where
  origin := .ofPlace (.inRow 0)
  destination := .ofPlace (.inRow 2)
  waypoints := [⟨.ofPlace (.inRow 1), some 10, none⟩]
  time := .ofMinute 590
  arriveBy := false
  window := none
  wanted := -1
  modes := .default

/-- A router that replays the two buses. -/
private def cornerRouter : Router where
  engine := fun _ query => .ok (Search.replay cornerBuses query)
  settings := .default
  options := { Selection.Options.default with keepFewShare := 0.0 }

/-- The itineraries of a response; none, if there is no response. -/
private def itinerariesOf : Except Fault Run → List Candidate
  | .ok ⟨.ok response, _⟩ => response.itineraries
  | _ => []

/-- The journey with a change between the buses passes the second stop. -/
theorem Router.buses_pass_corner : cornerRouter.engine.Faithful ∧ cornerRouter.engine.Linear ∧
    viaCorner.waypoints ≠ [] ∧ ∃ run, cornerRouter.route viaCorner = .ok run ∧
      ∃ response, run.outcome = .ok response ∧ response.itineraries ≠ [] ∧
        ∃ stops,
          List.Forall₂ (Waypoint.ResolvesTo cornerRouter.settings) viaCorner.waypoints stops ∧
          ∀ c ∈ response.itineraries, ∃ runs, Passes viaCorner stops c.toItinerary runs := by
  have hfaithful : cornerRouter.engine.Faithful := by
    intro asked query answer hok
    cases hok
    exact fun c hc => (Search.replay_answers hc).2
  have hknown : ∀ c ∈ cornerBuses, c.Linear := by decide
  have hlinear : cornerRouter.engine.Linear := by
    intro asked query answer hok
    cases hok
    exact fun c hc => hknown c (Search.replay_answers hc).1
  have hvia : viaCorner.waypoints ≠ [] := List.cons_ne_nil _ _
  have hfound : itinerariesOf (cornerRouter.route viaCorner) ≠ [] := by decide +kernel
  refine ⟨hfaithful, hlinear, hvia, ?_⟩
  cases hroute : cornerRouter.route viaCorner with
  | error cause =>
    rw [hroute] at hfound
    exact absurd rfl hfound
  | ok run =>
    obtain ⟨outcome, queries⟩ := run
    cases outcome with
    | error reason =>
      rw [hroute] at hfound
      exact absurd rfl hfound
    | ok response =>
      rw [hroute] at hfound
      exact ⟨_, rfl, response, rfl, hfound,
        route_passes_waypoints hfaithful hlinear hvia hroute rfl⟩

end Journey

end JourneyPlanner
