import JourneyPlanner.Proofs.Multiplicity
import JourneyPlanner.Proofs.RequestedTime
import JourneyPlanner.Proofs.Responses
import JourneyPlanner.Proofs.Windows

/-!
# Combinations that are held more than once

Each search of a step begins at a place of its own, but an itinerary may begin at what is the
same location as two of these places, and be found by both searches. All that is kept is pooled,
so that such an itinerary continues a sequence twice. In no other way is a combination held more
than once: how often it is follows from how many searches each of its itineraries was kept for.
-/

namespace JourneyPlanner

/-- Images of some of the items are some of the images, also where different items have the
same image. -/
theorem subperm_map {α β : Type} {xs ys : List α} (h : xs.Subperm ys) (f : α → β) :
    (xs.map f).Subperm (ys.map f) := by
  obtain ⟨zs, hperm, hsub⟩ := h
  exact ⟨zs.map f, hperm.map f, hsub.map f⟩

open JourneyPlanner.Composition
open Search (Answer Coverage Query RoutingError replay)

/-- What a replay finds are some of the known itineraries, in their order. -/
theorem Search.replay_sublist (known : List Candidate) (query : Query) :
    (replay known query).itineraries.Sublist known := by
  unfold replay
  dsimp only
  split_ifs
  any_goals exact List.nil_sublist known
  exact List.filter_sublist.trans (List.filter_sublist.trans List.filter_sublist)

/-- What a chain leaves is, but for notices, some of the candidates. -/
theorem Selection.Chain.withoutNotices_run_subperm (tags : Bool) (rules : List Selection.Rule)
    (candidates : List Candidate) :
    (((ofRules tags rules).run candidates).candidates.map Candidate.withoutNotices).Subperm
      (candidates.map Candidate.withoutNotices) := by
  cases tags with
  | false => exact subperm_map (run_subperm rules candidates) _
  | true => exact (withoutNotices_run_perm rules candidates).subperm

namespace Composition

/-- Where a search begins, in the direction of growth. -/
def Direction.nearEnd (direction : Direction) (query : Query) : Location :=
  match direction with
  | .departAt => query.origin
  | .arriveBy => query.destination

/-- A search for a coverage begins at its location. -/
theorem Assembly.nearEnd_of_query {a : Assembly} {coverage : Coverage} {query : Query}
    (hquery : a.query? coverage = some query) : a.direction.nearEnd query = coverage.location := by
  obtain ⟨junction, -, rfl⟩ := Option.map_eq_some_iff.1 hquery
  unfold Direction.nearEnd
  cases a.direction <;> rfl

/-- No two searches for what has to be covered begin at the same location. -/
theorem Assembly.queries_apart {a : Assembly} {coverages : List Coverage}
    (hok : a.coverages = .ok coverages) : (coverages.filterMap a.query?).Pairwise fun x y =>
      (a.direction.nearEnd x).toPlace.sameLocation (a.direction.nearEnd y).toPlace = false := by
  refine List.pairwise_filterMap.2 ((coverages_apart hok).imp fun hxy x hx y hy => ?_)
  rwa [nearEnd_of_query hx, nearEnd_of_query hy]

end Composition

namespace Journey.Router

variable {router : Router} {known : List Candidate}

/-! ### What a search leaves -/

/-- What is kept of the known itineraries for one of several searches. -/
def keeps (router : Router) (known : List Candidate) (query : Query) : List Candidate :=
  ((router.stepPlan query (replay known query)).chain.run
    (replay known query).itineraries).candidates

/-- What is kept for a search is, but for notices, some of what is known. -/
theorem keeps_subperm (router : Router) (known : List Candidate) (query : Query) :
    ((router.keeps known query).map Candidate.withoutNotices).Subperm
      (known.map Candidate.withoutNotices) :=
  (Selection.Chain.withoutNotices_run_subperm _ _ _).trans
    ((Search.replay_sublist known query).map _).subperm

/-- How many of the searches of a step an itinerary was kept for. -/
def timesKept (router : Router) (known : List Candidate) (queries : List Query)
    (identity : Identity) : Nat :=
  queries.countP fun query => identity ∈ (router.keeps known query).map Candidate.identity

section Kept

variable (hdistinct : (known.map Candidate.identity).Nodup)
include hdistinct

/-- No itinerary is kept twice for one search. -/
theorem nodup_keeps (query : Query) :
    ((router.keeps known query).map Candidate.identity).Nodup := by
  have hids : ∀ candidates : List Candidate,
      (candidates.map Candidate.withoutNotices).map Candidate.identity =
        candidates.map Candidate.identity := fun candidates => by
    rw [List.map_map]
    rfl
  obtain ⟨kept, hperm, hpart⟩ := subperm_map (keeps_subperm router known query) Candidate.identity
  rw [hids] at hperm hpart
  exact hperm.nodup_iff.1 (hpart.nodup hdistinct)

/-- In what is found in a step an itinerary comes once for each search it was kept for. -/
theorem count_flatMap_keeps (queries : List Query) (identity : Identity) :
    ((queries.flatMap (router.keeps known)).map Candidate.identity).count identity =
      router.timesKept known queries identity := by
  induction queries with
  | nil => rfl
  | cons query rest ih =>
    have honce : ((router.keeps known query).map Candidate.identity).Nodup :=
      nodup_keeps hdistinct query
    rw [List.flatMap_cons, List.map_append, List.count_append, ih, honce.count, timesKept,
      timesKept, List.countP_cons, Nat.add_comm]
    simp

/-- Itineraries that are found are recognised. -/
theorem recognised_flatMap_keeps (queries : List Query) :
    Sequence.Recognised (queries.flatMap (router.keeps known)) := by
  have hknown : ∀ c ∈ queries.flatMap (router.keeps known),
      ∃ k ∈ known, k.identity = c.identity ∧ k.toItinerary = c.toItinerary := by
    intro c hc
    obtain ⟨query, -, hc⟩ := List.mem_flatMap.1 hc
    obtain ⟨k, hk, heq⟩ := List.mem_map.1
      ((keeps_subperm router known query).subset (List.mem_map_of_mem hc))
    have hidentity : k.withoutNotices.identity = c.withoutNotices.identity := by rw [heq]
    have hsame : k.withoutNotices.toItinerary = c.withoutNotices.toItinerary := by rw [heq]
    exact ⟨k, hk, hidentity, hsame⟩
  intro c hc d hd heq
  obtain ⟨k, hk, hkc, hsame⟩ := hknown c hc
  obtain ⟨k', hk', hkd, hsame'⟩ := hknown d hd
  obtain rfl := List.inj_on_of_nodup_map hdistinct hk hk' (hkc.trans (heq.trans hkd.symm))
  exact hsame.symm.trans hsame'

end Kept

/-! ### What the steps ask -/

/-- What is gathered from known itineraries is what is kept for the queries, one after the
other. -/
theorem found_of_gather {replies : List (Query × Except SearchError Answer)}
    (hreplies : ∀ reply ∈ replies, reply.2 = .ok (replay known reply.1))
    {found : List Candidate} {errors : List RoutingError}
    (hok : router.gather replies = .ok (found, errors)) :
    found = (replies.map Prod.fst).flatMap (router.keeps known) := by
  induction replies generalizing found errors with
  | nil =>
    cases hok
    rfl
  | cons reply rest ih =>
    obtain ⟨query, reply⟩ := reply
    obtain ⟨hreply, hrest⟩ := List.forall_mem_cons.1 hreplies
    obtain ⟨answer, hanswer, hmore⟩ := bind_eq_ok_iff.1 hok
    obtain ⟨chain, hchain, hmore⟩ := bind_eq_ok_iff.1 hmore
    obtain ⟨⟨others, otherErrors⟩, hothers, hall⟩ := bind_eq_ok_iff.1 hmore
    cases hall
    cases hreply.symm.trans hanswer
    rw [Selection.Plan.eq_ofRules_of_build (of_chainOf hchain), ih hrest hothers]
    rfl

/-- So it is for the queries of a step. -/
theorem Replays.found_of_ask (hreplays : router.Replays known) {before : Nat}
    {queries : List Query} {found : List Candidate} {errors : List RoutingError}
    (hok : router.gather (router.ask before queries) = .ok (found, errors)) :
    found = queries.flatMap (router.keeps known) := by
  have hqueries : (router.ask before queries).map Prod.fst = queries := by
    unfold ask
    rw [List.map_map]
    exact List.zipIdx_map_fst 0 queries
  rw [found_of_gather (fun reply hreply => ?_) hok, hqueries]
  obtain ⟨⟨query, index⟩, -, rfl⟩ := List.mem_map.1 hreply
  exact hreplays _ query

/-- An assembly that has been bridged from known itineraries, beginning with the first one, and
the queries of each step. -/
inductive Asks (router : Router) (known : List Candidate) (first : Assembly) :
    List (List Query) → Assembly → Prop
  /-- At first nothing has been asked. -/
  | start : Asks router known first [] first
  /-- A step asks for everything that has to be covered, and merges all that is kept. -/
  | step {asked : List (List Query)} {a b : Assembly} {coverages : List Coverage}
      (h : Asks router known first asked a) (hnext : a.hasNext = true)
      (hcoverages : a.advance.coverages = .ok coverages)
      (hmerge : a.advance.merge ((coverages.filterMap a.advance.query?).flatMap
        (router.keeps known)) = .ok b) :
      Asks router known first (asked ++ [coverages.filterMap a.advance.query?]) b

variable {direction : Direction} {stopovers : List Stopover} {first a : Assembly}
  {asked : List (List Query)}

/-- Each step asks for one junction. -/
theorem Asks.along (hfirst : first.Along direction stopovers 0)
    (h : router.Asks known first asked a) : a.Along direction stopovers asked.length := by
  induction h with
  | start => exact hfirst
  | @step asked a b coverages _ hnext _ hmerge ih =>
    simpa using (ih.advance (ih.hasNext_iff.1 hnext)).of_merge hmerge

/-- However an assembly is bridged from known itineraries, each step asks and merges so. -/
theorem Replays.asks_of_bridge (hreplays : router.Replays known)
    (hfirst : first.Along direction stopovers 0) (h : router.Asks known first asked a)
    {queries queries' : List Query} (hqueries : asked.flatten = queries) {left : Nat}
    (hleft : asked.length + left ≤ a.junctions.length) {errors : List RoutingError}
    {assembled : Assembled}
    (hok : router.bridge a queries errors left = .ok (queries', .ok assembled)) :
    ∃ asked', router.Asks known first asked' assembled.assembly ∧ asked'.flatten = queries' := by
  induction left generalizing a asked queries errors with
  | zero =>
    cases hok
    exact ⟨asked, h, hqueries⟩
  | succ left ih =>
    obtain ⟨coverages, found, more, b, hcoverages, hgather, hmerge, hrest⟩ := bridge_succ_cases hok
    rw [hreplays.found_of_ask hgather] at hmerge
    have halong := h.along hfirst
    have hnext : a.hasNext = true := halong.hasNext_iff.2 (by omega)
    have hb := h.step hnext hcoverages hmerge
    have hflatten : (asked ++ [coverages.filterMap a.advance.query?]).flatten =
        queries ++ coverages.filterMap a.advance.query? := by simp [hqueries]
    rcases hrest with ⟨-, rfl, rfl⟩ | hbridge
    · exact ⟨_, hb, hflatten⟩
    · have hlength : b.junctions.length = a.junctions.length := by
        rw [(hb.along hfirst).length_junctions, halong.length_junctions]
      exact ih hb hflatten (by simp; omega) hbridge

/-! ### How often a combination is found -/

/-- In how many ways the itineraries of a combination were found: each for one of the searches
of its step. -/
def timesFound (router : Router) (known : List Candidate) :
    List (List Query) → List Identity → Nat
  | queries :: asked, identity :: rest =>
    router.timesKept known queries identity * timesFound router known asked rest
  | _, _ => 1

/-- One more itinerary may have been found in several ways. -/
theorem timesFound_concat {identities : List Identity} (hlength : identities.length = asked.length)
    (queries : List Query) (identity : Identity) :
    router.timesFound known (asked ++ [queries]) (identities ++ [identity]) =
      router.timesFound known asked identities * router.timesKept known queries identity := by
  induction asked generalizing identities with
  | nil =>
    obtain rfl := List.length_eq_zero_iff.1 hlength
    simp [timesFound]
  | cons first asked ih =>
    cases identities with
    | nil => cases hlength
    | cons other rest =>
      simp only [List.cons_append, timesFound]
      rw [ih (Nat.succ_inj.1 hlength), Nat.mul_assoc]

/-- A combination was found in one way exactly if each of its itineraries was. -/
theorem timesFound_eq_one_iff {identities : List Identity}
    (hlength : identities.length = asked.length) :
    router.timesFound known asked identities = 1 ↔
      List.Forall₂ (fun queries identity => router.timesKept known queries identity = 1) asked
        identities := by
  induction asked generalizing identities with
  | nil =>
    obtain rfl := List.length_eq_zero_iff.1 hlength
    simp [timesFound]
  | cons first asked ih =>
    cases identities with
    | nil => cases hlength
    | cons identity rest =>
      rw [timesFound, List.forall₂_cons, ← ih (Nat.succ_inj.1 hlength)]
      constructor
      · exact fun h => ⟨Nat.eq_one_of_mul_eq_one_right h, Nat.eq_one_of_mul_eq_one_left h⟩
      · rintro ⟨hone, hrest⟩
        rw [hone, hrest]

/-- Each combination is held as often as it was found. -/
structure Counted (router : Router) (known : List Candidate) (asked : List (List Query))
    (a : Assembly) : Prop where
  /-- It has an itinerary of each step. -/
  length_eq : ∀ s ∈ a.sequences, s.combination.length = asked.length
  /-- Sequences of the same combination do not differ. -/
  alike : Sequence.AlikeByCombination a.sequences
  /-- This is how often it is held. -/
  count_eq : ∀ s ∈ a.sequences, (a.sequences.map Sequence.combination).count s.combination =
    router.timesFound known asked s.combination

namespace Counted

variable {b : Assembly} {queries : List Query}

/-- What is found first is held as often as it was found. -/
theorem merge_first (hdistinct : (known.map Candidate.identity).Nodup)
    (halong : a.Along direction stopovers 1) (hbegun : 0 < a.junctions.length)
    (hok : a.merge (queries.flatMap (router.keeps known)) = .ok b) :
    Counted router known [queries] b := by
  rw [halong.merge_first hbegun] at hok
  cases hok
  refine ⟨?_, Sequence.alikeByCombination_single direction
    (recognised_flatMap_keeps hdistinct queries), ?_⟩
  · intro s hs
    obtain ⟨c, -, rfl⟩ := List.mem_map.1 hs
    rfl
  · intro s hs
    obtain ⟨c, -, rfl⟩ := List.mem_map.1 hs
    have hsingle : ∀ found : List Candidate,
        (found.map (Sequence.single direction)).map Sequence.combination =
          (found.map Candidate.identity).map fun identity => [identity] := fun found => by
      rw [List.map_map, List.map_map]
      rfl
    have hinjective : Function.Injective fun identity : Identity => [identity] :=
      fun _ _ heq => List.singleton_inj.1 heq
    rw [hsingle, Sequence.combination_single, List.count_map_of_injective _ _ hinjective,
      count_flatMap_keeps hdistinct]
    simp [timesFound]

/-- What is found later makes each combination so many times more. -/
theorem merge_later (h : Counted router known asked a)
    (hdistinct : (known.map Candidate.identity).Nodup) {begun : Nat}
    (halong : a.Along direction stopovers (begun + 2)) (hbegun : begun + 1 < a.junctions.length)
    (hok : a.merge (queries.flatMap (router.keeps known)) = .ok b) :
    Counted router known (asked ++ [queries]) b := by
  have hfound : Sequence.Recognised (queries.flatMap (router.keeps known)) :=
    recognised_flatMap_keeps hdistinct queries
  obtain ⟨junction, -, hstop, -⟩ := halong.exists_junction hbegun
  rw [halong.merge_later hbegun hstop] at hok
  obtain ⟨extended, hextended, rfl⟩ := map_eq_ok_iff.1 hok
  refine ⟨?_, h.alike.extendAll hfound hextended, ?_⟩
  · intro t ht
    obtain ⟨s, hs, next, -, hextend⟩ := Assembly.mem_extendAll hextended ht
    rw [Sequence.combination_of_extend hextend]
    simp [h.length_eq s hs]
  · intro t ht
    obtain ⟨s, hs, next, hnext, hextend⟩ := Assembly.mem_extendAll hextended ht
    have hcount := Sequence.count_extendAll hextend (h.alike s hs)
      (fun d hd => hfound next hnext d hd) hextended
    rw [h.count_eq s hs, count_flatMap_keeps hdistinct] at hcount
    rw [Sequence.combination_of_extend hextend] at hcount ⊢
    rw [timesFound_concat (h.length_eq s hs)]
    exact hcount

end Counted

/-- However an assembly has been bridged, each combination is held as often as it was found. -/
theorem Asks.counted (hdistinct : (known.map Candidate.identity).Nodup)
    (hfirst : first.Along direction stopovers 0) (hempty : first.sequences = [])
    (h : router.Asks known first asked a) : Counted router known asked a := by
  induction h with
  | start =>
    refine ⟨?_, ?_, ?_⟩
    all_goals simp [Sequence.AlikeByCombination, hempty]
  | @step asked a b coverages h hnext _ hmerge ih =>
    have halong := h.along hfirst
    have hmore := halong.hasNext_iff.1 hnext
    have hadvance := halong.advance hmore
    have hbegun : asked.length < a.advance.junctions.length := by
      rwa [Assembly.advance_junctions]
    cases asked with
    | nil => exact .merge_first hdistinct hadvance hbegun hmerge
    | cons queries asked =>
      have hadvanced : Counted router known (queries :: asked) a.advance := by
        refine ⟨?_, ?_, ?_⟩
        all_goals rw [Assembly.advance_sequences]
        · exact ih.length_eq
        · exact ih.alike
        · exact ih.count_eq
      exact hadvanced.merge_later hdistinct hadvance hbegun hmerge

/-! ### How often a combination is held -/

/-- What is kept for a search begins where the search does, in the direction of growth. -/
theorem isAt_of_mem_keeps (direction : Direction) {query : Query} {c : Candidate}
    (hc : c ∈ router.keeps known query) :
    (direction.nearEnd query).isAt (direction.nearPlace c.toItinerary) = true := by
  obtain ⟨d, hd, heq⟩ := Selection.Chain.exists_of_mem_run hc
  obtain ⟨-, horigin, hdestination⟩ := Search.replay_answers hd
  rw [← heq]
  cases direction
  · exact horigin
  · exact hdestination

/-- No two searches of a step begin at the same location. -/
theorem Asks.apart (hfirst : first.Along direction stopovers 0)
    (h : router.Asks known first asked a) : ∀ queries ∈ asked, queries.Pairwise fun x y =>
      (direction.nearEnd x).toPlace.sameLocation (direction.nearEnd y).toPlace = false := by
  induction h with
  | start => simp
  | @step asked a b coverages h hnext hcoverages _ ih =>
    have halong := h.along hfirst
    have hdirection := (halong.advance (halong.hasNext_iff.1 hnext)).direction_eq
    refine List.forall_mem_append.2 ⟨ih, List.forall_mem_singleton.2 ?_⟩
    rw [← hdirection]
    exact Assembly.queries_apart hcoverages

/-- How often an assembly that is bridged from known itineraries holds a combination of them. -/
structure HeldAsFound (router : Router) (known : List Candidate) (asked : List (List Query))
    (a : Assembly) : Prop where
  /-- A combination is held once for each choice of searches, one of each step, that its
  itineraries were kept for. -/
  count_eq : ∀ s ∈ a.sequences, (a.sequences.map Sequence.combination).count s.combination =
    router.timesFound known asked s.combination
  /-- No combination is held twice exactly if each itinerary of each of them was kept for only
  one search of its step. -/
  nodup_iff : (a.sequences.map Sequence.combination).Nodup ↔ ∀ s ∈ a.sequences,
    List.Forall₂ (fun queries identity => router.timesKept known queries identity = 1) asked
      s.combination
  /-- What is kept for a search begins at the same location as the search. -/
  near : ∀ query, ∀ c ∈ router.keeps known query,
    (a.direction.nearEnd query).isAt (a.direction.nearPlace c.toItinerary) = true
  /-- But no two searches of a step begin at the same location as each other. -/
  apart : ∀ queries ∈ asked, queries.Pairwise fun x y =>
    (a.direction.nearEnd x).toPlace.sameLocation (a.direction.nearEnd y).toPlace = false

/-- Whatever is asked on the way, combinations are held as they were found. -/
theorem Asks.heldAsFound (hdistinct : (known.map Candidate.identity).Nodup)
    (hfirst : first.Along direction stopovers 0) (hempty : first.sequences = [])
    (h : router.Asks known first asked a) : HeldAsFound router known asked a := by
  have hcounted := h.counted hdistinct hfirst hempty
  refine ⟨hcounted.count_eq, ?_, fun query c hc => isAt_of_mem_keeps _ hc, ?_⟩
  · rw [List.nodup_iff_count_eq_one, List.forall_mem_map]
    refine forall₂_congr fun s hs => ?_
    rw [hcounted.count_eq s hs, timesFound_eq_one_iff (hcounted.length_eq s hs)]
  · rw [(h.along hfirst).direction_eq]
    exact h.apart hfirst

/-- Whatever is routed through waypoints from known itineraries, after every step each
combination is held as often as it was found. It can be found more than once only by way of an
itinerary that begins at the same location as two places that are not the same location. -/
theorem route_holds_as_found (hreplays : router.Replays known)
    (hdistinct : (known.map Candidate.identity).Nodup) {request : Request}
    (hvia : request.waypoints ≠ []) {route : List Stopover} {windowLength : Option Int}
    (hprepare : router.prepare request = .ok (route, windowLength)) :
    router.route request = router.routeVia request route windowLength ∧
      ∃ first, Assembly.start request.direction route request.time windowLength request.modes =
          .ok first ∧
        ∀ steps ≤ first.junctions.length, ∀ queries assembled,
          router.bridge first [] [] steps = .ok (queries, .ok assembled) →
            ∃ asked, router.Asks known first asked assembled.assembly ∧
              asked.flatten = queries ∧ router.HeldAsFound known asked assembled.assembly := by
  constructor
  · unfold Router.route
    rw [hprepare]
    exact if_neg (by simpa using hvia)
  · obtain ⟨-, -, hstopovers⟩ := checks_of_prepare hprepare
    obtain ⟨stops, rfl, -⟩ := Request.exists_stopovers hstopovers
    have hends : 2 ≤ (Stopover.atEnd request.origin ::
        (stops ++ [Stopover.atEnd request.destination])).length := by simp
    obtain ⟨first, hstart⟩ := Assembly.exists_start request.direction request.time windowLength
      request.modes hends
    obtain ⟨hfirst, hempty⟩ := Assembly.along_of_start hstart
    refine ⟨first, hstart, fun steps hsteps queries assembled hbridge => ?_⟩
    obtain ⟨asked, hasks, hqueries⟩ :=
      hreplays.asks_of_bridge hfirst .start rfl (by simpa using hsteps) hbridge
    exact ⟨asked, hasks, hqueries, hasks.heldAsFound hdistinct hfirst hempty⟩

/-! ### Two ways onto one bus -/

/-- If the options pass their check, what is kept for the queries of a step is gathered. -/
theorem Replays.exists_gather (hreplays : router.Replays known)
    (hoptions : router.options.check = .ok ()) (before : Nat) (queries : List Query) :
    ∃ errors, router.gather (router.ask before queries) =
      .ok (queries.flatMap (router.keeps known), errors) := by
  have hchains := fun query answer =>
    exists_chain_of_acceptable (router.acceptable_stepPlan hoptions query answer)
  cases hgather : router.gather (router.ask before queries) with
  | error reason =>
    obtain ⟨query, hmem⟩ := mem_of_gather_error hchains hgather
    obtain ⟨-, n, hengine⟩ := exists_of_mem_ask hmem
    rw [hreplays] at hengine
    cases hengine
  | ok gathered =>
    obtain ⟨found, errors⟩ := gathered
    exact ⟨errors, by rw [hreplays.found_of_ask hgather]⟩

/-- If the options pass their check, an assembly is bridged step by step by what is kept, while
sequences are left. -/
theorem Replays.bridge_step (hreplays : router.Replays known)
    (hoptions : router.options.check = .ok ()) {b : Assembly} {coverages : List Coverage}
    (hcoverages : a.advance.coverages = .ok coverages)
    (hmerge : a.advance.merge ((coverages.filterMap a.advance.query?).flatMap
      (router.keeps known)) = .ok b) (hheld : b.sequences ≠ []) (queries : List Query)
    (errors : List RoutingError) (left : Nat) :
    ∃ reported, router.bridge a queries errors (left + 1) =
      router.bridge b (queries ++ coverages.filterMap a.advance.query?) reported left := by
  obtain ⟨more, hgather⟩ := hreplays.exists_gather hoptions queries.length
    (coverages.filterMap a.advance.query?)
  exact ⟨errors ++ more, bridge_of_gather hcoverages hgather hmerge (by simpa using hheld)⟩

/-- Where there are two stops. -/
private def plaza : Coordinate :=
  ⟨59.5, 10.5, by decide +kernel⟩

/-- One of the stops there. -/
private def plazaNorth : Place :=
  { Place.ofStop "NP" (by decide) with coordinate := some plaza }

/-- The other one. -/
private def plazaSouth : Place :=
  { Place.ofStop "SP" (by decide) with coordinate := some plaza }

/-- That stop again, when its position is not known. -/
private def plazaStop : Place :=
  .ofStop "SP" (by decide)

/-- A bus to the north side and one to the stop on the south side. -/
private def busesToPlaza : List Candidate :=
  [.ofLeg 0 (.onDay .bus (.inRow 0) plazaNorth 480 490),
    .ofLeg 1 (.onDay .bus (.inRow 0) plazaStop 480 495)]

/-- A bus on from the south side. -/
private def busFromPlaza : List Candidate :=
  [.ofLeg 2 (.onDay .bus plazaSouth (.inRow 2) 500 520)]

/-- A journey over the south side. -/
private def overPlaza : Request where
  origin := .ofPlace (.inRow 0)
  destination := .ofPlace (.inRow 2)
  waypoints := [⟨.ofPlace plazaSouth, none, none⟩]
  time := .ofMinute 480
  arriveBy := false
  window := none
  wanted := -1
  modes := .default

/-- A router that replays the buses. -/
private def plazaRouter : Router where
  engine := fun _ query => .ok (replay (busesToPlaza ++ busFromPlaza) query)
  settings := .default
  options := { Selection.Options.default with
    keepOneShare := 0.0, keepFewShare := 0.0, maxStreetOnly := -1 }

/-- The route of the journey. -/
private def routeOverPlaza : List Stopover :=
  [.atEnd (.ofPlace (.inRow 0)),
    { Stopover.atEnd (.ofPlace plazaSouth) with
      maxWait := Span.minutes 180, minWait_le_maxWait := by decide },
    .atEnd (.ofPlace (.inRow 2))]

/-- The assembly before its first junction. -/
private def beforePlaza : Assembly where
  direction := .departAt
  junctions := Junction.along routeOverPlaza
  step := 0
  sequences := []
  time := .ofMinute 480
  windowLength := none
  modes := .default

/-- The assembly when both buses have come to the plaza. -/
private def atPlaza : Assembly :=
  { beforePlaza with step := 1, sequences := busesToPlaza.map (Sequence.single .departAt) }

/-- What has to be covered there. -/
private def onPlaza : List Coverage :=
  [⟨.ofPlace plazaNorth, some (.ofMinute 490, .ofMinute 490)⟩,
    ⟨.ofPlace plazaStop, some (.ofMinute 495, .ofMinute 495)⟩]

/-- The search for buses to the plaza. -/
private def toPlaza : Query :=
  ⟨.ofPlace (.inRow 0), .ofPlace plazaSouth, false, .unbounded (.ofMinute 480) none, .default⟩

/-- A search for buses from a place there, from a minute on. -/
private def fromPlaza (place : Place) (minute : Fin 1440) : Query :=
  ⟨.ofPlace place, .ofPlace (.inRow 2), false, .bounded (.ofMinute minute) (.ofMinute minute),
    .default⟩

/-- What is found at the plaza is kept. -/
private theorem keeps_plaza (found : List Candidate) {query : Query}
    (hfound : (replay (busesToPlaza ++ busFromPlaza) query).itineraries = found)
    (hmeets : ∀ rule ∈ (plazaRouter.stepPlan query (replay (busesToPlaza ++ busFromPlaza)
      query)).rules, rule.Meets found) :
    plazaRouter.keeps (busesToPlaza ++ busFromPlaza) query = found := by
  rw [keeps, hfound]
  exact Selection.Plan.run_chain_eq_self rfl hmeets

/-- The bus on from the plaza is found for both places, so that it continues each of the buses
there twice. -/
private theorem bridge_plaza : ∃ queries assembled,
    plazaRouter.bridge beforePlaza [] [] 2 = .ok (queries, .ok assembled) ∧
      assembled.assembly.sequences.map Sequence.combination =
        [[.known 0, .known 2], [.known 0, .known 2], [.known 1, .known 2],
          [.known 1, .known 2]] := by
  have hreplays : plazaRouter.Replays (busesToPlaza ++ busFromPlaza) := fun _ _ => rfl
  have hoptions : plazaRouter.options.check = .ok () := by decide +kernel
  have hcoverages : beforePlaza.advance.coverages = .ok [.empty (.ofPlace (.inRow 0))] := rfl
  have hcovered : Assembly.coverSequences 0 [] atPlaza.sequences =
      .ok [(plazaNorth, ⟨.ofPlace plazaNorth, some (.ofMinute 490, .ofMinute 490)⟩),
        (plazaStop, ⟨.ofPlace plazaStop, some (.ofMinute 495, .ofMinute 495)⟩)] := by
    decide +kernel
  have hcoverages' : atPlaza.advance.coverages = .ok onPlaza :=
    Assembly.coverages_of_pairwise (a := atPlaza.advance) rfl rfl hcovered (by decide +kernel)
  have hfirstKept : [toPlaza].flatMap (plazaRouter.keeps (busesToPlaza ++ busFromPlaza)) =
      busesToPlaza := by
    rw [List.flatMap_singleton]
    exact keeps_plaza busesToPlaza (by decide +kernel) (by decide +kernel)
  have hlaterKept : [fromPlaza plazaNorth 490, fromPlaza plazaStop 495].flatMap
      (plazaRouter.keeps (busesToPlaza ++ busFromPlaza)) = busFromPlaza ++ busFromPlaza := by
    rw [List.flatMap_cons, List.flatMap_singleton,
      keeps_plaza busFromPlaza (by decide +kernel) (by decide +kernel),
      keeps_plaza busFromPlaza (by decide +kernel) (by decide +kernel)]
  have hmerge : beforePlaza.advance.merge ([toPlaza].flatMap
      (plazaRouter.keeps (busesToPlaza ++ busFromPlaza))) = .ok atPlaza := by
    rw [hfirstKept]
    rfl
  have hheld : (atPlaza.advance.merge ([fromPlaza plazaNorth 490, fromPlaza plazaStop 495].flatMap
      (plazaRouter.keeps (busesToPlaza ++ busFromPlaza)))).map
        (fun b => b.sequences.map Sequence.combination) =
          .ok [[.known 0, .known 2], [.known 0, .known 2], [.known 1, .known 2],
            [.known 1, .known 2]] := by
    rw [hlaterKept]
    decide +kernel
  obtain ⟨b, hmerge', hcombinations⟩ := map_eq_ok_iff.1 hheld
  have hkept : b.sequences ≠ [] := by
    intro hempty
    rw [hempty] at hcombinations
    cases hcombinations
  obtain ⟨errors, hfirst⟩ := hreplays.bridge_step hoptions hcoverages hmerge
    (List.cons_ne_nil _ _) [] [] 1
  obtain ⟨errors', hsecond⟩ := hreplays.bridge_step hoptions hcoverages' hmerge' hkept
    ([] ++ [.empty (.ofPlace (.inRow 0))].filterMap beforePlaza.advance.query?) errors 0
  exact ⟨_, _, hfirst.trans hsecond, hcombinations⟩

/-- The journey over the plaza is accepted, and its combinations are held as they were found. -/
theorem plaza_held_as_found : plazaRouter.Replays (busesToPlaza ++ busFromPlaza) ∧
    ((busesToPlaza ++ busFromPlaza).map Candidate.identity).Nodup ∧ overPlaza.waypoints ≠ [] ∧
    plazaRouter.prepare overPlaza = .ok (routeOverPlaza, none) ∧
    plazaRouter.route overPlaza = plazaRouter.routeVia overPlaza routeOverPlaza none ∧
      ∃ first, Assembly.start overPlaza.direction routeOverPlaza overPlaza.time none
          overPlaza.modes = .ok first ∧
        ∀ steps ≤ first.junctions.length, ∀ queries assembled,
          plazaRouter.bridge first [] [] steps = .ok (queries, .ok assembled) →
            ∃ asked, plazaRouter.Asks (busesToPlaza ++ busFromPlaza) first asked
                assembled.assembly ∧
              asked.flatten = queries ∧
              plazaRouter.HeldAsFound (busesToPlaza ++ busFromPlaza) asked
                assembled.assembly := by
  have hreplays : plazaRouter.Replays (busesToPlaza ++ busFromPlaza) := fun _ _ => rfl
  have hdistinct : ((busesToPlaza ++ busFromPlaza).map Candidate.identity).Nodup := by decide
  have hvia : overPlaza.waypoints ≠ [] := List.cons_ne_nil _ _
  have hprepare : plazaRouter.prepare overPlaza = .ok (routeOverPlaza, none) := rfl
  exact ⟨hreplays, hdistinct, hvia, hprepare,
    route_holds_as_found hreplays hdistinct hvia hprepare⟩

/-- Each combination of a bus to the plaza with the one from there is held twice. -/
theorem plaza_combinations_repeated : plazaRouter.Replays (busesToPlaza ++ busFromPlaza) ∧
    ((busesToPlaza ++ busFromPlaza).map Candidate.identity).Nodup ∧ overPlaza.waypoints ≠ [] ∧
    plazaRouter.prepare overPlaza = .ok (routeOverPlaza, none) ∧
    ∃ first, Assembly.start overPlaza.direction routeOverPlaza overPlaza.time none
        overPlaza.modes = .ok first ∧
      ∃ queries assembled,
        plazaRouter.bridge first [] [] first.junctions.length = .ok (queries, .ok assembled) ∧
          ¬(assembled.assembly.sequences.map Sequence.combination).Nodup := by
  obtain ⟨queries, assembled, hbridge, hcombinations⟩ := bridge_plaza
  refine ⟨fun _ _ => rfl, by decide, List.cons_ne_nil _ _, rfl, beforePlaza, rfl, queries,
    assembled, hbridge, ?_⟩
  rw [hcombinations]
  decide

end Journey.Router

end JourneyPlanner
