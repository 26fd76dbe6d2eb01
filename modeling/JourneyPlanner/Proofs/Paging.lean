import JourneyPlanner.Proofs.FirstCut

/-!
# Where the limit on the number cuts

A later search goes on from the first itinerary that was cut off. It is taken from the middle of
the chain, where the candidates stand in the order of presentation; what is shown is dropped from
and sorted once more behind that place, but consists of candidates in front of the cut. With
waypoints, what was found are itineraries that have just been composed: each sequence bridges two
junctions or more, so each has an identity of its own.
-/

namespace JourneyPlanner

section Lists

variable {α : Type} {items : List α}

/-- In a list without repetitions, what stands behind a place does not stand in front of it. -/
theorem mem_drop_iff (hnodup : items.Nodup) {a : α} {place : Nat} :
    a ∈ items.drop place ↔ a ∈ items ∧ a ∉ items.take place := by
  constructor
  · exact fun ha => ⟨List.mem_of_mem_drop ha,
      fun hfront => List.disjoint_take_drop hnodup (Nat.le_refl place) hfront ha⟩
  · rintro ⟨ha, hnot⟩
    rw [← List.take_append_drop place items, List.mem_append] at ha
    exact ha.resolve_left hnot

/-- In an ordered list, what stands in front of a place may precede the first item behind it, and
that item the others. -/
theorem pairwise_take_drop {le : α → α → Prop} (hordered : items.Pairwise le) {place : Nat} {a : α}
    {rest : List α} (hbehind : items.drop place = a :: rest) :
    (∀ b ∈ items.take place, le b a) ∧ ∀ b ∈ rest, le a b := by
  rw [← List.take_append_drop place items, hbehind, List.pairwise_append,
    List.pairwise_cons] at hordered
  obtain ⟨-, ⟨hrest, -⟩, hfront⟩ := hordered
  exact ⟨fun b hb => hfront b hb a List.mem_cons_self, hrest⟩

end Lists

namespace Selection

namespace Chain

variable {candidates : List Candidate} {c : Candidate}

/-- A step that drops something is a step of the chain. -/
theorem Drops.mem {chain : Chain} {step : Step} (h : chain.Drops candidates c step) :
    step ∈ chain := by
  obtain ⟨before, after, rfl, -⟩ := h
  simp

/-- The only step of a chain that reports drops what the steps in front of it leave and it does
not. -/
theorem drops_reporting_iff {before after : Chain} {step other : Step}
    (hbefore : ∀ s ∈ before, s.rule.reports = false)
    (hafter : ∀ s ∈ after, s.rule.reports = false) (hother : other.rule.reports = true) :
    Drops (before ++ step :: after) candidates c other ↔
      other = step ∧ c ∈ (before.run candidates).candidates ∧
        c ∉ step.apply (before.run candidates).candidates := by
  induction before generalizing candidates with
  | nil =>
    rw [List.nil_append, drops_cons_iff]
    refine or_iff_left fun hlater => ?_
    rw [hafter other hlater.mem] at hother
    cases hother
  | cons first before ih =>
    obtain ⟨hfirst, hrest⟩ := List.forall_mem_cons.1 hbefore
    rw [List.cons_append, drops_cons_iff, ih hrest]
    refine or_iff_right fun hearlier => ?_
    rw [hearlier.1, hfirst] at hother
    cases hother

/-- The limit on the number of candidates, which reports what it cuts off first, drops a
candidate. -/
def CutsOff (chain : Chain) (candidates : List Candidate) (c : Candidate) : Prop :=
  ∃ label limit, chain.Drops candidates c ⟨.atMost label limit true, false⟩

end Chain

namespace Plan

variable {plan : Plan} {chain : Chain} {candidates : List Candidate} {c : Candidate}

/-- The candidates as they stand in line for the limit on their number. -/
def ranked (plan : Plan) (candidates : List Candidate) : List Candidate :=
  ((Chain.ofRules false plan.rulesBeforeLimit).run candidates).candidates

/-- The candidates stand in line in the order of presentation. -/
theorem pairwise_ranked (plan : Plan) (candidates : List Candidate) :
    (plan.ranked candidates).Pairwise fun a b => mayPrecede plan.arriveBy a b = true :=
  Chain.meets_run_sort false _ plan.arriveBy candidates

/-- Candidates that are different are so in line. -/
theorem nodup_ranked (plan : Plan) (hdistinct : (candidates.map Candidate.identity).Nodup) :
    ((plan.ranked candidates).map Candidate.identity).Nodup := by
  obtain ⟨part, hperm, hsub⟩ := Chain.run_subperm plan.rulesBeforeLimit candidates
  exact (hperm.map _).nodup_iff.1 (hdistinct.sublist (hsub.map _))

/-- The chain of a plan with a limit that reports, and that drops candidates. -/
theorem chain_eq_of_limited (hbuild : plan.build = .ok chain) (hdrops : plan.debug = false)
    (hreports : plan.reportsCut = true) (hlimited : 0 < plan.maxItineraries) :
    chain = Chain.ofRules false plan.rulesBeforeLimit ++
      ⟨.atMost "number-of-itineraries-filter" plan.maxItineraries.toNat true, false⟩ ::
        Chain.ofRules false (plan.absoluteRules ++ [Rule.sort plan.arriveBy]) := by
  rw [eq_ofRules_of_build hbuild, hdrops, rules_eq hlimited, hreports]
  simp [Chain.ofRules]

/-- What is cut off stands in line behind those that the limit allows, if there is a limit. -/
theorem cutsOff_iff (hbuild : plan.build = .ok chain) (hdrops : plan.debug = false)
    (hreports : plan.reportsCut = true) :
    chain.CutsOff candidates c ↔ 0 < plan.maxItineraries ∧ c ∈ plan.ranked candidates ∧
      c ∉ (plan.ranked candidates).take plan.maxItineraries.toNat := by
  by_cases hlimited : 0 < plan.maxItineraries
  · have hsilent : ∀ rules : List Rule,
        rules ⊆ plan.rulesBeforeLimit ++ (plan.absoluteRules ++ [Rule.sort plan.arriveBy]) →
        ∀ step ∈ Chain.ofRules false rules, step.rule.reports = false := by
      intro rules hrules step hstep
      obtain ⟨rule, hrule, rfl⟩ := List.mem_map.1 hstep
      exact plan.reports_beside_limit (hrules hrule)
    have hbefore := hsilent _ (List.subset_append_left _ _)
    have hafter := hsilent _ (List.subset_append_right _ _)
    rw [chain_eq_of_limited hbuild hdrops hreports hlimited, and_iff_right hlimited]
    constructor
    · rintro ⟨label, limit, hdropped⟩
      exact ((Chain.drops_reporting_iff hbefore hafter rfl).1 hdropped).2
    · intro hbehind
      exact ⟨_, _, (Chain.drops_reporting_iff hbefore hafter rfl).2 ⟨rfl, hbehind⟩⟩
  · refine iff_of_false (fun ⟨label, limit, hdropped⟩ => ?_) fun h => hlimited h.1
    have hstep := hdropped.mem
    rw [eq_ofRules_of_build hbuild, hdrops] at hstep
    obtain ⟨rule, hrule, heq⟩ := List.mem_map.1 hstep
    cases heq
    cases reports_of_mem_rules hlimited hrule

/-- What is left in the end stands in line in front of the cut. -/
theorem mem_take_of_mem_run (hbuild : plan.build = .ok chain) (hdrops : plan.debug = false)
    (hreports : plan.reportsCut = true) (hlimited : 0 < plan.maxItineraries)
    (hc : c ∈ (chain.run candidates).candidates) :
    c ∈ (plan.ranked candidates).take plan.maxItineraries.toNat := by
  rw [chain_eq_of_limited hbuild hdrops hreports hlimited, Chain.run_append] at hc
  exact (Chain.run_subperm (plan.absoluteRules ++ [Rule.sort plan.arriveBy])
    ((plan.ranked candidates).take plan.maxItineraries.toNat)).subset hc

/-- What a chain reports as the first candidate cut off is the one in line behind those that the
limit allows: nothing else is shown if it is missing, what is shown may precede it, and it may
precede whatever else is cut off. -/
theorem of_head?_cuts (hbuild : plan.build = .ok chain) (hdrops : plan.debug = false)
    (hreports : plan.reportsCut = true)
    (hdistinct : (candidates.map Candidate.identity).Nodup) :
    ((chain.run candidates).cuts.head? ≠ none ↔ ∃ c, chain.CutsOff candidates c) ∧
      ∀ removed, (chain.run candidates).cuts.head? = some removed →
        removed.identity ∉ (chain.run candidates).candidates.map Candidate.identity ∧
        (∀ c ∈ (chain.run candidates).candidates,
          mayPrecede plan.arriveBy c removed = true) ∧
        ∀ c, chain.CutsOff candidates c → mayPrecede plan.arriveBy removed c = true := by
  have hcut := head?_cuts_run hbuild hdrops hreports candidates
  change _ = if 0 < plan.maxItineraries then
    (plan.ranked candidates)[plan.maxItineraries.toNat]? else none at hcut
  by_cases hlimited : 0 < plan.maxItineraries
  · have hnodup := plan.nodup_ranked hdistinct
    have hcutsOff : ∀ c, chain.CutsOff candidates c ↔
        c ∈ (plan.ranked candidates).drop plan.maxItineraries.toNat := by
      intro c
      rw [cutsOff_iff hbuild hdrops hreports, and_iff_right hlimited, mem_drop_iff hnodup.of_map]
    simp only [hcutsOff]
    rw [if_pos hlimited, ← List.head?_drop] at hcut
    cases hbehind : (plan.ranked candidates).drop plan.maxItineraries.toNat with
    | nil =>
      rw [hbehind] at hcut
      simp [hcut]
    | cons first rest =>
      rw [hbehind, List.head?_cons] at hcut
      refine ⟨by simp [hcut], fun removed hremoved => ?_⟩
      obtain rfl : first = removed := Option.some.inj (hcut.symm.trans hremoved)
      obtain ⟨hfront, hrest⟩ := pairwise_take_drop (plan.pairwise_ranked candidates) hbehind
      have hshown : (chain.run candidates).candidates ⊆
          (plan.ranked candidates).take plan.maxItineraries.toNat :=
        fun c => mem_take_of_mem_run hbuild hdrops hreports hlimited
      refine ⟨fun hsame => ?_, fun c hc => hfront c (hshown hc), fun c hc => ?_⟩
      · obtain ⟨c, hc, hidentity⟩ := List.mem_map.1 hsame
        have hfirst : first ∈ (plan.ranked candidates).drop plan.maxItineraries.toNat := by
          rw [hbehind]
          exact List.mem_cons_self
        obtain ⟨hlisted, hnot⟩ := (mem_drop_iff hnodup.of_map).1 hfirst
        have hc := hshown hc
        rw [List.inj_on_of_nodup_map hnodup (List.mem_of_mem_take hc) hlisted hidentity] at hc
        exact hnot hc
      · rcases List.mem_cons.1 hc with rfl | hc
        · simpa using mayPrecede_total plan.arriveBy c c
        · exact hrest c hc
  · rw [if_neg hlimited] at hcut
    simp [hcut, cutsOff_iff hbuild hdrops hreports, hlimited]

end Plan

end Selection

/-! ### What was found has distinct identities -/

namespace Composition

open Journey (Stopover)

/-- Every sequence of an assembly that has begun two junctions joins itineraries. -/
def Assembly.Joins (a : Assembly) : Prop :=
  2 ≤ a.step → ∀ s ∈ a.sequences, s.links ≠ []

/-- An extended sequence joins itineraries. -/
theorem Sequence.Extends.links_ne_nil {s t : Sequence} {next : Candidate} {minWait maxWait : Int}
    (h : s.Extends next minWait maxWait t) : t.links ≠ [] := by
  cases h <;> simp

/-- Sequences that join itineraries come to itineraries of their own identities. -/
theorem Sequence.identities_flattenAll {sequences : List Sequence} {flattened : List Candidate}
    (hlinks : ∀ s ∈ sequences, s.links ≠ []) {index : Nat}
    (hok : flattenAll index sequences = .ok flattened) :
    flattened.map Candidate.identity =
      (List.range' index sequences.length).map Identity.composed := by
  induction sequences generalizing index flattened with
  | nil =>
    cases hok
    rfl
  | cons s rest ih =>
    obtain ⟨hs, hrest⟩ := List.forall_mem_cons.1 hlinks
    obtain ⟨flat, hflat, hmore⟩ := bind_eq_ok_iff.1 hok
    obtain ⟨others, hothers, hall⟩ := bind_eq_ok_iff.1 hmore
    cases hall
    have hidentity : flat.identity = .composed index := by
      unfold flatten at hflat
      rw [if_neg (by simpa using hs)] at hflat
      obtain ⟨placed, -, hflat⟩ := bind_eq_ok_iff.1 hflat
      obtain ⟨it, -, hflat⟩ := bind_eq_ok_iff.1 hflat
      obtain ⟨cost, -, hflat⟩ := bind_eq_ok_iff.1 hflat
      cases hflat
      rfl
    rw [List.map_cons, ih hrest hothers, hidentity, List.length_cons, List.range'_succ,
      List.map_cons]

namespace Assembly

/-- One more junction that is bridged joins itineraries, if it is not the first. -/
theorem Along.joins_merge {direction : Direction} {route : List Stopover} {begun : Nat}
    {a b : Assembly} (h : a.Along direction route begun) (hmore : begun < a.junctions.length)
    {found : List Candidate} (hok : a.advance.merge found = .ok b) : b.Joins := by
  have halong := h.advance hmore
  have hb := halong.of_merge hok
  intro hbegun s hs
  rw [hb.step_eq] at hbegun
  obtain ⟨earlier, rfl⟩ : ∃ earlier, begun = earlier + 1 := ⟨begun - 1, by omega⟩
  rw [← a.advance_junctions] at hmore
  obtain ⟨junction, -, hstop, -⟩ := halong.exists_junction hmore
  rw [halong.merge_later hmore hstop] at hok
  obtain ⟨extended, hextended, rfl⟩ := map_eq_ok_iff.1 hok
  obtain ⟨t, -, next, -, hextend⟩ := mem_extendAll hextended hs
  exact (Sequence.extend_cases hextend).2.links_ne_nil

end Assembly

end Composition

namespace Journey

open JourneyPlanner.Composition
open Search (Answer Query RoutingError)
open Selection (Chain Plan mayPrecede sortForShow sortForShow_pair)

/-- A search engine finds no two itineraries with one identity in an answer. -/
def Engine.Distinct (engine : Engine) : Prop :=
  ∀ {asked query answer}, engine asked query = .ok answer →
    (answer.itineraries.map Candidate.identity).Nodup

namespace Router

variable {router : Router} {request : Request}

/-- However an assembly is bridged, its sequences join itineraries in the end, if there are two
junctions or more. -/
theorem links_ne_nil_of_bridge {direction : Direction} {route : List Stopover} {begun left : Nat}
    {a : Assembly} {queries queries' : List Query} {errors : List RoutingError}
    {assembled : Assembled} (h : a.Along direction route begun) (hjoins : a.Joins)
    (hleft : begun + left = a.junctions.length) (htwo : 2 ≤ a.junctions.length)
    (hok : router.bridge a queries errors left = .ok (queries', .ok assembled)) :
    ∀ s ∈ assembled.assembly.sequences, s.links ≠ [] := by
  induction left generalizing a begun queries errors with
  | zero =>
    cases hok
    refine hjoins ?_
    rw [h.step_eq]
    omega
  | succ left ih =>
    obtain ⟨coverages, found, more, b, -, -, hmerge, hrest⟩ := bridge_cases hok
    have hmore : begun < a.junctions.length := by omega
    have hb := (h.advance hmore).of_merge hmerge
    rcases hrest with hempty | ⟨asked, reported, hbridge⟩
    · simp [hempty]
    · have hlength : b.junctions.length = a.junctions.length := by
        rw [hb.length_junctions, h.length_junctions]
      exact ih hb (h.joins_merge hmore hmerge) (by omega) (by omega) hbridge

/-- What a request with waypoints comes to has distinct identities, whatever was found. -/
theorem nodup_of_bridge {route : List Stopover} {windowLength : Option Int} {a : Assembly}
    {queries : List Query} {assembled : Assembled} {candidates : List Candidate}
    (hprepare : router.prepare request = .ok (route, windowLength)) (hvia : request.waypoints ≠ [])
    (hstart : Assembly.start request.direction route request.time windowLength request.modes =
      .ok a)
    (hbridge : router.bridge a [] [] a.junctions.length = .ok (queries, .ok assembled))
    (hcandidates : assembled.assembly.itineraries = .ok candidates) :
    (candidates.map Candidate.identity).Nodup := by
  obtain ⟨-, -, hstopovers⟩ := checks_of_prepare hprepare
  obtain ⟨stops, rfl, hstops⟩ := Request.exists_stopovers hstopovers
  obtain ⟨halong, -⟩ := Assembly.along_of_start hstart
  have hsome := List.length_pos_of_ne_nil hvia
  have htwo : 2 ≤ a.junctions.length := by
    rw [halong.length_junctions, List.length_cons, List.length_append, List.length_singleton,
      ← hstops.length_eq]
    omega
  have hjoins : a.Joins := by
    intro hbegun
    rw [halong.step_eq] at hbegun
    omega
  have hlinks := links_ne_nil_of_bridge halong hjoins (Nat.zero_add _) htwo hbridge
  rw [Sequence.identities_flattenAll hlinks hcandidates]
  exact List.Nodup.map (fun _ _ => Identity.composed.inj) List.nodup_range'

/-- What was found for the last selection of a run has distinct identities. -/
theorem LastSelection.nodup {run : Run} {chain : Chain} {candidates : List Candidate}
    (h : LastSelection router request run chain candidates) (hdistinct : router.engine.Distinct) :
    (candidates.map Candidate.identity).Nodup := by
  cases h with
  | direct _ _ hanswer => exact hdistinct hanswer
  | via hprepare hvia hstart hbridge hcandidates =>
    exact nodup_of_bridge hprepare hvia hstart hbridge hcandidates

/-- The first itinerary that is reported as cut off is where the limit on their number cuts. It is
reported exactly if the limit drops something of what was found. Then it is not shown itself;
what is shown may precede it, and it may precede whatever the limit drops. -/
theorem firstRemoved_where_cut (hdistinct : router.engine.Distinct)
    (hdrops : router.options.debug = false) {run : Run} {response : Response}
    (hroute : router.route request = .ok run) (hresponse : run.outcome = .ok response) :
    ∃ chain candidates, LastSelection router request run chain candidates ∧
      response.itineraries = (chain.run candidates).candidates ∧
      (response.firstRemoved ≠ none ↔ ∃ c, chain.CutsOff candidates c) ∧
      ∀ removed, response.firstRemoved = some removed →
        removed.identity ∉ response.itineraries.map Candidate.identity ∧
        (∀ c ∈ response.itineraries, mayPrecede request.arriveBy c removed = true) ∧
        ∀ c, chain.CutsOff candidates c → mayPrecede request.arriveBy removed c = true := by
  obtain ⟨chain, candidates, hselection⟩ := exists_lastSelection hroute hresponse
  obtain ⟨latest, pruning, hbuild⟩ := hselection.exists_build
  obtain ⟨errors, searches, hrespond⟩ := hselection.exists_respond
  rw [hresponse] at hrespond
  cases hrespond
  exact ⟨chain, candidates, hselection, rfl,
    Plan.of_head?_cuts hbuild hdrops rfl (hselection.nodup hdistinct)⟩

/-- A bus at twenty past eight. -/
private def laterOfBuses : Candidate :=
  .ofLeg 0 (.onDay .bus (.inRow 0) (.inRow 1) 500 520)

/-- A bus at ten past eight. -/
private def earlierOfBuses : Candidate :=
  .ofLeg 1 (.onDay .bus (.inRow 0) (.inRow 1) 490 510)

/-- Both, the later one in front. -/
private def busesOutOfOrder : List Candidate :=
  [laterOfBuses, earlierOfBuses]

/-- A router with an engine that finds both. -/
private def routerOfBuses : Router where
  engine := fun _ _ => .ok ⟨busesOutOfOrder, [], none, []⟩
  settings := .default
  options :=
    { Selection.Options.default with
      keepOneShare := 0.0, keepFewShare := 0.0, maxStreetOnly := -1 }

/-- A request for the first of them. -/
private def forFirstBus : Request where
  origin := .ofPlace (.inRow 0)
  destination := .ofPlace (.inRow 1)
  waypoints := []
  time := .ofMinute 480
  arriveBy := false
  window := none
  wanted := 1
  modes := .default

/-- The plan for the answer. -/
private def planForFirstBus : Plan :=
  withSearchLimits (routerOfBuses.finalPlan forFirstBus) (directQuery forFirstBus none)
    ⟨busesOutOfOrder, [], none, []⟩

/-- The chain for the first bus is built. -/
private theorem build_planForFirstBus : planForFirstBus.build = .ok planForFirstBus.chain :=
  Plan.build_eq_ok (by decide +kernel)

/-- In line for the limit, the earlier bus stands in front. -/
private theorem ranked_buses :
    planForFirstBus.ranked busesOutOfOrder = [earlierOfBuses, laterOfBuses] := by
  have hfront : ∀ rule ∈ planForFirstBus.groupingRules ++ planForFirstBus.costRules ++
      { planForFirstBus with maxItineraries := -1 }.numberRules, rule.Meets busesOutOfOrder := by
    decide +kernel
  rw [Plan.ranked, Plan.rulesBeforeLimit, Chain.ofRules, List.map_append, Chain.run_append]
  change sortForShow false ((Chain.ofRules false _).run busesOutOfOrder).candidates = _
  rw [Chain.run_eq_self hfront]
  exact sortForShow_pair (by decide)

/-- The earlier bus is left. -/
private theorem run_buses :
    (planForFirstBus.chain.run busesOutOfOrder).candidates = [earlierOfBuses] := by
  have hback : ∀ rule ∈ planForFirstBus.absoluteRules ++ [.sort planForFirstBus.arriveBy],
      rule.Meets [earlierOfBuses] := by decide +kernel
  rw [Plan.chain_eq_of_limited build_planForFirstBus rfl rfl (by decide +kernel), Chain.run_append]
  change ((Chain.ofRules false _).run
    ((planForFirstBus.ranked busesOutOfOrder).take 1)).candidates = _
  rw [ranked_buses]
  exact Chain.run_eq_self hback

/-- The limit of a request for one itinerary cuts between the two buses: the earlier one is shown,
the later one reported. -/
theorem cut_between_buses : routerOfBuses.engine.Distinct ∧ routerOfBuses.options.debug = false ∧
    ∃ run response, routerOfBuses.route forFirstBus = .ok run ∧ run.outcome = .ok response ∧
      response.itineraries = [earlierOfBuses] ∧ response.firstRemoved = some laterOfBuses ∧
      ∃ chain candidates, LastSelection routerOfBuses forFirstBus run chain candidates ∧
        response.itineraries = (chain.run candidates).candidates ∧
        (response.firstRemoved ≠ none ↔ ∃ c, chain.CutsOff candidates c) ∧
        ∀ removed, response.firstRemoved = some removed →
          removed.identity ∉ response.itineraries.map Candidate.identity ∧
          (∀ c ∈ response.itineraries, mayPrecede forFirstBus.arriveBy c removed = true) ∧
          ∀ c, chain.CutsOff candidates c →
            mayPrecede forFirstBus.arriveBy removed c = true := by
  have hdistinct : routerOfBuses.engine.Distinct := by
    intro asked query answer hok
    cases hok
    decide
  have hroute : routerOfBuses.route forFirstBus = .ok _ :=
    route_of_answer rfl rfl rfl build_planForFirstBus
  have hcut : (planForFirstBus.chain.run busesOutOfOrder).cuts.head? = some laterOfBuses := by
    have hreported := Plan.head?_cuts_run build_planForFirstBus rfl rfl busesOutOfOrder
    rw [if_pos (by decide +kernel)] at hreported
    change _ = (planForFirstBus.ranked busesOutOfOrder)[1]? at hreported
    rw [hreported, ranked_buses]
    rfl
  exact ⟨hdistinct, rfl, _, _, hroute, rfl, run_buses, hcut,
    firstRemoved_where_cut hdistinct rfl hroute rfl⟩

end Router

end Journey

end JourneyPlanner
