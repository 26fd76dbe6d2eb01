import JourneyPlanner.Proofs.Checks

/-!
# How a response is made

Whatever way a request is routed, the candidates found for it pass one last chain before
they are shown, and that chain comes from a plan with the limit of the request. The answer of
a single search has its own say in this plan: when the latest departure is, and what is never
shown.
-/

namespace JourneyPlanner.Journey.Router

open JourneyPlanner.Composition
open Search (Answer Query RoutingError)
open Selection (Chain Plan)

variable {router : Router} {request : Request} {response : Response}

/-- A plan whose chain could be built is accepted, and the chain is its own. -/
theorem of_chainOf {plan : Plan} {chain : Chain} (hok : chainOf plan = .ok chain) :
    plan.build = .ok chain :=
  ok_of_mapError hok

/-- A response to a request without waypoints is what the chain of the final plan makes of the
answer to its only search. -/
theorem exists_answer_of_routeDirect {windowLength : Option Int}
    (hresponse : (router.routeDirect request windowLength).outcome = .ok response) :
    ∃ answer chain, router.engine 0 (directQuery request windowLength) = .ok answer ∧
      (withSearchLimits (router.finalPlan request) (directQuery request windowLength)
        answer).build = .ok chain ∧
      response = respond chain answer.itineraries answer.routingErrors 1 := by
  unfold routeDirect at hresponse
  obtain ⟨answer, hanswer, hresponse⟩ := bind_eq_ok_iff.1 hresponse
  obtain ⟨chain, hchain, hresponse⟩ := bind_eq_ok_iff.1 hresponse
  cases hresponse
  exact ⟨answer, chain, hanswer, of_chainOf hchain, rfl⟩

/-- The last selection of a run: a chain of the final plan and what was found for it, the answer
of the only search or what an assembled route comes to. -/
inductive LastSelection (router : Router) (request : Request) : Run → Chain → List Candidate → Prop
  /-- A single search was made. -/
  | direct {route : List Stopover} {windowLength : Option Int} {answer : Answer} {chain : Chain}
      (hprepare : router.prepare request = .ok (route, windowLength))
      (hdirect : request.waypoints = [])
      (hanswer : router.engine 0 (directQuery request windowLength) = .ok answer)
      (hbuild : (withSearchLimits (router.finalPlan request) (directQuery request windowLength)
        answer).build = .ok chain) :
      LastSelection router request
        ⟨.ok (respond chain answer.itineraries answer.routingErrors 1),
          [directQuery request windowLength]⟩ chain answer.itineraries
  /-- A route was assembled. -/
  | via {route : List Stopover} {windowLength : Option Int} {a : Assembly} {queries : List Query}
      {assembled : Assembled} {candidates : List Candidate} {chain : Chain}
      (hprepare : router.prepare request = .ok (route, windowLength))
      (hvia : request.waypoints ≠ [])
      (hstart : Assembly.start request.direction route request.time windowLength
        request.modes = .ok a)
      (hbridge : router.bridge a [] [] a.junctions.length = .ok (queries, .ok assembled))
      (hcandidates : assembled.assembly.itineraries = .ok candidates)
      (hbuild : (router.finalPlan request).build = .ok chain) :
      LastSelection router request
        ⟨.ok (respond chain candidates assembled.routingErrors queries.length), queries⟩ chain
        candidates

/-- A response to a request with waypoints is what the chain of the final plan makes of the
itineraries of an assembled route. -/
theorem exists_of_conclude_eq_ok {assembled : Assembled} {searches : Nat}
    (hok : router.conclude request assembled searches = .ok (.ok response)) :
    ∃ chain candidates, (router.finalPlan request).build = .ok chain ∧
      assembled.assembly.itineraries = .ok candidates ∧
      response = respond chain candidates assembled.routingErrors searches := by
  unfold conclude at hok
  split at hok
  · cases hok
  · rename_i chain hchain
    split at hok
    · cases hok
    · cases hok
    · rename_i candidates hcandidates
      cases hok
      exact ⟨chain, candidates, of_chainOf hchain, hcandidates, rfl⟩

/-- Whatever way a request is routed, a response comes from a last selection. -/
theorem exists_lastSelection {run : Run} (hroute : router.route request = .ok run)
    (hresponse : run.outcome = .ok response) :
    ∃ chain candidates, LastSelection router request run chain candidates := by
  unfold route at hroute
  split at hroute
  · cases hroute
    cases hresponse
  · rename_i stopovers windowLength hprepare
    split at hroute
    · rename_i hdirect
      cases hroute
      obtain ⟨answer, chain, hanswer, hbuild, rfl⟩ := exists_answer_of_routeDirect hresponse
      have hselection := LastSelection.direct hprepare (List.isEmpty_iff.1 hdirect) hanswer hbuild
      rw [← hresponse] at hselection
      exact ⟨chain, answer.itineraries, hselection⟩
    · rename_i hvia
      unfold routeVia at hroute
      split at hroute
      · cases hroute
        cases hresponse
      · rename_i a hstart
        obtain ⟨⟨queries, bridged⟩, hbridge, hroute⟩ := bind_eq_ok_iff.1 hroute
        cases bridged with
        | error reason =>
          cases hroute
          cases hresponse
        | ok assembled =>
          obtain ⟨outcome, hconclude, hrun⟩ := bind_eq_ok_iff.1 hroute
          cases hrun
          obtain rfl : outcome = .ok response := hresponse
          obtain ⟨chain, candidates, hbuild, hcandidates, rfl⟩ := exists_of_conclude_eq_ok hconclude
          exact ⟨chain, candidates, .via hprepare (mt List.isEmpty_iff.2 hvia) hstart hbridge
            hcandidates hbuild⟩

namespace LastSelection

variable {run : Run} {chain : Chain} {candidates : List Candidate}

/-- The chain comes from the final plan, but for the latest departure and what is never
shown. -/
theorem exists_build (h : LastSelection router request run chain candidates) :
    ∃ latest pruning, { router.finalPlan request with
      latestDeparture := latest, pruning := pruning }.build = .ok chain := by
  cases h with
  | direct _ _ _ hbuild => exact ⟨_, _, hbuild⟩
  | via _ _ _ _ _ hbuild => exact ⟨none, [], hbuild⟩

/-- The response is what the chain makes of what was found. -/
theorem exists_respond (h : LastSelection router request run chain candidates) :
    ∃ errors searches, run.outcome = .ok (respond chain candidates errors searches) := by
  cases h with
  | direct => exact ⟨_, _, rfl⟩
  | via => exact ⟨_, _, rfl⟩

end LastSelection

/-- Every response is what the chain of the final plan makes of some candidates, but for the
latest departure and what is never shown. -/
theorem exists_plan_of_route {run : Run} (hroute : router.route request = .ok run)
    (hresponse : run.outcome = .ok response) :
    ∃ latest pruning chain candidates errors searches,
      { router.finalPlan request with latestDeparture := latest, pruning := pruning }.build =
        .ok chain ∧
      response = respond chain candidates errors searches := by
  obtain ⟨chain, candidates, hselection⟩ := exists_lastSelection hroute hresponse
  obtain ⟨latest, pruning, hbuild⟩ := hselection.exists_build
  obtain ⟨errors, searches, hrespond⟩ := hselection.exists_respond
  rw [hresponse] at hrespond
  exact ⟨latest, pruning, chain, candidates, errors, searches, hbuild, Except.ok.inj hrespond⟩

/-- A request without waypoints that passes the checks is answered with what the chain of the
final plan makes of the answer to its search. -/
theorem route_of_answer {route : List Stopover} {windowLength : Option Int} {answer : Answer}
    (hprepare : router.prepare request = .ok (route, windowLength))
    (hdirect : request.waypoints = [])
    (hanswer : router.engine 0 (directQuery request windowLength) = .ok answer) {chain : Chain}
    (hbuild : (withSearchLimits (router.finalPlan request) (directQuery request windowLength)
      answer).build = .ok chain) :
    router.route request = .ok ⟨.ok (respond chain answer.itineraries answer.routingErrors 1),
      [directQuery request windowLength]⟩ := by
  have hchain : chainOf (withSearchLimits (router.finalPlan request)
      (directQuery request windowLength) answer) = .ok chain := by
    rw [chainOf, hbuild]
    rfl
  simp [Router.route, hprepare, hdirect, routeDirect, hanswer, hchain, bind, Except.bind, pure,
    Except.pure]

end JourneyPlanner.Journey.Router
