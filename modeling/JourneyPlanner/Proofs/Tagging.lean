import JourneyPlanner.Proofs.LinearTime
import JourneyPlanner.Proofs.Outcomes
import JourneyPlanner.Proofs.RuleEffects
import JourneyPlanner.Selection.Plan

/-!
# Tagging instead of dropping

A chain that tags is compared with the chain that drops, both made of the same rules.
At every step the candidates without a notice are those that the other chain still has,
in the same order. A candidate gets its notice at the step where the other chain loses
it, and from then on no rule sees it.
-/

namespace JourneyPlanner

namespace Candidate

/-- A candidate as it was before notices were put on it. -/
def withoutNotices (c : Candidate) : Candidate :=
  { c with notices := [] }

/-- A candidate without notices is as it was before any were put on it. -/
theorem withoutNotices_eq_self {c : Candidate} (h : c.notices = []) : c.withoutNotices = c := by
  cases c
  cases h
  rfl

/-- A notice does not change what a candidate was before. -/
@[simp] theorem withoutNotices_mark (notice : Notice) (c : Candidate) :
    (c.mark notice).withoutNotices = c.withoutNotices := rfl

/-- A candidate that was marked is marked. -/
@[simp] theorem isMarked_mark (notice : Notice) (c : Candidate) :
    (c.mark notice).isMarked = true := by
  simp [isMarked, mark]

/-- Candidates that are not marked have no notices. -/
theorem isMarked_eq_false_iff {c : Candidate} : c.isMarked = false ↔ c.notices = [] := by
  simp [isMarked]

end Candidate

namespace Selection

/-- Candidates without a notice have an empty list of notices. -/
theorem mem_unmarked {candidates : List Candidate} {c : Candidate} :
    c ∈ unmarked candidates ↔ c ∈ candidates ∧ c.notices = [] := by
  simp [unmarked, Candidate.isMarked]

/-- The items of a part of a list are found again by their keys, if the keys differ. -/
theorem filter_contains_of_sublist {α κ : Type} [DecidableEq κ] {key : α → κ}
    {kept items : List α} (hkept : kept.Sublist items) (hdistinct : (items.map key).Nodup) :
    (items.filter fun a => (kept.map key).contains (key a)) = kept := by
  induction hkept with
  | slnil => rfl
  | @cons kept items a hsub ih =>
    obtain ⟨hnew, hrest⟩ := List.nodup_cons.1 hdistinct
    have hlost : key a ∉ kept.map key := fun hmem => hnew ((hsub.map key).subset hmem)
    rw [List.filter_cons_of_neg (by simpa using hlost)]
    exact ih hrest
  | @cons_cons kept items a hsub ih =>
    obtain ⟨hnew, hrest⟩ := List.nodup_cons.1 hdistinct
    rw [List.filter_cons_of_pos (by simp)]
    refine congrArg (a :: ·) (Eq.trans (List.filter_congr ?_) (ih hrest))
    intro b hb
    have hother : key b ≠ key a := fun heq => hnew (heq ▸ List.mem_map_of_mem hb)
    simp [hother]

/-- Candidates that have no notices are all without a notice. -/
theorem unmarked_eq_self {candidates : List Candidate}
    (hfresh : ∀ c ∈ candidates, c.notices = []) : unmarked candidates = candidates := by
  refine List.filter_eq_self.2 fun c hc => ?_
  simp [Candidate.isMarked, hfresh c hc]

/-- Candidates that have no notices are as they were before any were put on them. -/
theorem map_withoutNotices_eq_self {candidates : List Candidate}
    (hfresh : ∀ c ∈ candidates, c.notices = []) :
    candidates.map Candidate.withoutNotices = candidates := by
  refine (List.map_congr_left fun c hc => ?_).trans (List.map_id candidates)
  exact Candidate.withoutNotices_eq_self (hfresh c hc)

section OneStep

variable {rule : Rule} {candidates : List Candidate}

/-- Putting a notice on some of the candidates without one takes these away from them. -/
theorem unmarked_map_mark (rejected : Candidate → Bool) (notice : Notice) :
    unmarked (candidates.map fun c =>
        if !c.isMarked && rejected c then c.mark notice else c) =
      (unmarked candidates).filter fun c => !rejected c := by
  unfold unmarked
  induction candidates with
  | nil => rfl
  | cons c rest ih =>
    by_cases hmarked : c.isMarked = true
    · simpa [hmarked] using ih
    · by_cases hrejected : rejected c = true
      · simpa [hmarked, hrejected] using ih
      · simpa [hmarked, hrejected] using ih

/-- The candidates that a step of tagging leaves without a notice are those that its rule
leaves of the ones that had none. -/
theorem unmarked_tagRejected (hremoves : rule.removes = true)
    (hdistinct : (candidates.map Candidate.identity).Nodup) :
    unmarked (tagRejected rule candidates) = rule.apply (unmarked candidates) := by
  have hkept := Rule.apply_sublist hremoves (unmarked candidates)
  have hunmarked : ((unmarked candidates).map Candidate.identity).Nodup :=
    hdistinct.sublist (List.filter_sublist.map _)
  have hfound := filter_contains_of_sublist hkept hunmarked
  unfold tagRejected
  rw [unmarked_map_mark fun c =>
    !((rule.apply (unmarked candidates)).map Candidate.identity).contains c.identity]
  simpa only [Bool.not_not] using hfound

/-- A step that tags leaves the same candidates without a notice as one that drops makes of
those that had none. -/
theorem unmarked_apply (rule : Rule) (hdistinct : (candidates.map Candidate.identity).Nodup) :
    unmarked (Step.apply ⟨rule, true⟩ candidates) =
      Step.apply ⟨rule, false⟩ (unmarked candidates) := by
  by_cases hremoves : rule.removes = true
  · simpa [Step.apply, hremoves] using unmarked_tagRejected hremoves hdistinct
  · have hsorts : rule.removes = false := by simpa using hremoves
    obtain ⟨arriveBy, rfl⟩ := Rule.eq_sort_of_not_removes hsorts
    exact filter_sortForShow arriveBy _ candidates

/-- A step that tags loses no candidate and changes nothing of it but its notices. -/
theorem withoutNotices_apply_perm (rule : Rule) (candidates : List Candidate) :
    ((Step.apply ⟨rule, true⟩ candidates).map Candidate.withoutNotices).Perm
      (candidates.map Candidate.withoutNotices) := by
  by_cases hremoves : rule.removes = true
  · have hsame : (tagRejected rule candidates).map Candidate.withoutNotices =
        candidates.map Candidate.withoutNotices := by
      unfold tagRejected
      rw [List.map_map]
      refine List.map_congr_left fun c _ => ?_
      simp only [Function.comp_apply]
      split <;> simp
    simp [Step.apply, hremoves, hsame]
  · have hsorts : rule.removes = false := by simpa using hremoves
    obtain ⟨arriveBy, rfl⟩ := Rule.eq_sort_of_not_removes hsorts
    exact (sortForShow_perm arriveBy candidates).map _

/-- A step that tags leaves identities distinct. -/
theorem distinct_apply (rule : Rule) (hdistinct : (candidates.map Candidate.identity).Nodup) :
    ((Step.apply ⟨rule, true⟩ candidates).map Candidate.identity).Nodup := by
  have hperm := (withoutNotices_apply_perm rule candidates).map Candidate.identity
  rw [List.map_map, List.map_map] at hperm
  exact hperm.nodup_iff.2 hdistinct

/-- A candidate behind a step that tags was there before, or has just been given its notice
for being dropped by the rule. -/
theorem mem_apply_tagging {c : Candidate} (hc : c ∈ Step.apply ⟨rule, true⟩ candidates) :
    c ∈ candidates ∨ ∃ d ∈ unmarked candidates,
      d ∉ rule.apply (unmarked candidates) ∧ c = d.mark (rejection rule.name) := by
  by_cases hremoves : rule.removes = true
  · simp only [Step.apply, hremoves, Bool.and_self, ↓reduceIte, tagRejected] at hc
    obtain ⟨d, hd, rfl⟩ := List.mem_map.1 hc
    split_ifs with hrejected
    · right
      rw [Bool.and_eq_true, Bool.not_eq_true', Bool.not_eq_true', Candidate.isMarked_eq_false_iff]
        at hrejected
      refine ⟨d, mem_unmarked.2 ⟨hd, hrejected.1⟩, ?_, rfl⟩
      intro hkept
      have hfound := List.mem_map_of_mem (f := Candidate.identity) hkept
      simp [hfound] at hrejected
    · exact Or.inl hd
  · have hsorts : rule.removes = false := by simpa using hremoves
    obtain ⟨arriveBy, rfl⟩ := Rule.eq_sort_of_not_removes hsorts
    exact Or.inl ((sortForShow_perm arriveBy candidates).mem_iff.1 hc)

end OneStep

namespace Chain

/-- The chain of some rules that all tag or all drop. -/
def ofRules (tags : Bool) (rules : List Rule) : Chain :=
  rules.map fun rule => ⟨rule, tags⟩

/-- A step of a chain drops a candidate, if the steps before it leave the candidate and it
does not. -/
def Drops (chain : Chain) (candidates : List Candidate) (c : Candidate) (step : Step) : Prop :=
  ∃ before after, chain = before ++ step :: after ∧ c ∈ (before.run candidates).candidates ∧
    c ∉ step.apply (before.run candidates).candidates

/-- A chain drops a candidate at its first step, or the later steps drop it. -/
theorem drops_cons_iff {step other : Step} {rest : Chain} {candidates : List Candidate}
    {c : Candidate} :
    Drops (step :: rest) candidates c other ↔
      (other = step ∧ c ∈ candidates ∧ c ∉ step.apply candidates) ∨
        Drops rest (step.apply candidates) c other := by
  constructor
  · rintro ⟨before, after, hchain, hbefore, hafter⟩
    cases before with
    | nil =>
      obtain ⟨rfl, rfl⟩ := List.cons.inj hchain
      exact Or.inl ⟨rfl, hbefore, hafter⟩
    | cons first before =>
      obtain ⟨rfl, rfl⟩ := List.cons.inj hchain
      exact Or.inr ⟨before, after, rfl, hbefore, hafter⟩
  · rintro (⟨rfl, hbefore, hafter⟩ | ⟨before, after, rfl, hbefore, hafter⟩)
    · exact ⟨[], rest, rfl, hbefore, hafter⟩
    · exact ⟨step :: before, after, rfl, hbefore, hafter⟩

/-- What a chain that drops loses on its way was there at its start. -/
theorem mem_of_drops {rules : List Rule} {candidates : List Candidate} {c : Candidate}
    {step : Step} (hdrops : (ofRules false rules).Drops candidates c step) : c ∈ candidates := by
  induction rules generalizing candidates with
  | nil =>
    obtain ⟨before, after, hchain, -⟩ := hdrops
    simp [ofRules] at hchain
  | cons rule rules ih =>
    rcases drops_cons_iff.1 hdrops with ⟨-, hc, -⟩ | hlater
    · exact hc
    · exact Rule.mem_of_mem_apply (ih hlater)

/-- No candidate is dropped at two different steps. -/
theorem drops_unique {rules : List Rule} {candidates : List Candidate} {c : Candidate}
    {step other : Step} (hstep : (ofRules false rules).Drops candidates c step)
    (hother : (ofRules false rules).Drops candidates c other) : other = step := by
  induction rules generalizing candidates with
  | nil =>
    obtain ⟨before, after, hchain, -⟩ := hstep
    simp [ofRules] at hchain
  | cons rule rules ih =>
    rcases drops_cons_iff.1 hstep with ⟨rfl, -, hlost⟩ | hlater
    · rcases drops_cons_iff.1 hother with ⟨rfl, -, -⟩ | hlater'
      · rfl
      · exact absurd (mem_of_drops hlater') hlost
    · rcases drops_cons_iff.1 hother with ⟨rfl, -, hlost⟩ | hlater'
      · exact absurd (mem_of_drops hlater) hlost
      · exact ih hlater hlater'

section WholeRun

variable (rules : List Rule) {candidates : List Candidate}

/-- A chain that tags loses no candidate and changes nothing of it but its notices. -/
theorem withoutNotices_run_perm (candidates : List Candidate) :
    (((ofRules true rules).run candidates).candidates.map Candidate.withoutNotices).Perm
      (candidates.map Candidate.withoutNotices) := by
  induction rules generalizing candidates with
  | nil => exact List.Perm.refl _
  | cons rule rules ih =>
    have hrest := ih (Step.apply ⟨rule, true⟩ candidates)
    exact hrest.trans (withoutNotices_apply_perm rule candidates)

/-- A chain that tags leaves the same candidates without a notice, in the same order, as the
chain that drops leaves of those that had none. -/
theorem unmarked_run (hdistinct : (candidates.map Candidate.identity).Nodup) :
    unmarked ((ofRules true rules).run candidates).candidates =
      ((ofRules false rules).run (unmarked candidates)).candidates := by
  induction rules generalizing candidates with
  | nil => rfl
  | cons rule rules ih =>
    have hrest := ih (distinct_apply rule hdistinct)
    rwa [unmarked_apply rule hdistinct] at hrest

/-- A chain that tags reports the same candidates as the first ones cut off as the chain that
drops. -/
theorem cuts_run (hdistinct : (candidates.map Candidate.identity).Nodup) :
    ((ofRules true rules).run candidates).cuts =
      ((ofRules false rules).run (unmarked candidates)).cuts := by
  induction rules generalizing candidates with
  | nil => rfl
  | cons rule rules ih =>
    have hrest := ih (distinct_apply rule hdistinct)
    rw [unmarked_apply rule hdistinct] at hrest
    exact congrArg (_ ++ ·) hrest

/-- A candidate behind a chain that tags is as it was, or has the notice of the step at which
the chain that drops loses it. -/
theorem mem_run_tagging {c : Candidate} (hdistinct : (candidates.map Candidate.identity).Nodup)
    (hc : c ∈ ((ofRules true rules).run candidates).candidates) :
    c ∈ candidates ∨ ∃ step,
      (ofRules false rules).Drops (unmarked candidates) c.withoutNotices step ∧
        c.notices = [rejection step.name] := by
  induction rules generalizing candidates with
  | nil => exact Or.inl hc
  | cons rule rules ih =>
    rcases ih (distinct_apply rule hdistinct) hc with hearly | ⟨step, hdrops, hnotices⟩
    · rcases mem_apply_tagging hearly with hsame | ⟨d, hd, hlost, rfl⟩
      · exact Or.inl hsame
      · obtain ⟨-, hbare⟩ := mem_unmarked.1 hd
        refine Or.inr ⟨⟨rule, false⟩, drops_cons_iff.2 (Or.inl ⟨rfl, ?_, ?_⟩), ?_⟩
        · rwa [Candidate.withoutNotices_mark, Candidate.withoutNotices_eq_self hbare]
        · rwa [Candidate.withoutNotices_mark, Candidate.withoutNotices_eq_self hbare]
        · simp [Candidate.mark, hbare, Step.name]
    · rw [unmarked_apply rule hdistinct] at hdrops
      exact Or.inr ⟨step, drops_cons_iff.2 (Or.inr hdrops), hnotices⟩

end WholeRun

end Chain

/-- How the outcome of tagging compares with what a chain that drops makes of the same
candidates. -/
structure TagsWhatIsDropped (dropping : Chain) (candidates : List Candidate)
    (tagged : Selected) : Prop where
  /-- No candidate is lost or added, and nothing but notices has changed. -/
  perm : (tagged.candidates.map Candidate.withoutNotices).Perm candidates
  /-- No candidate has two notices. -/
  one_notice : ∀ c ∈ tagged.candidates, c.notices.length ≤ 1
  /-- Those without a notice are what the other chain leaves, in the same order. -/
  unmarked_eq : unmarked tagged.candidates = (dropping.run candidates).candidates
  /-- The notice of any other is that of the one step at which the other chain drops it. -/
  dropped_by_tag : ∀ c ∈ tagged.candidates, c.isMarked = true → ∃ step,
    c.notices = [rejection step.name] ∧ dropping.Drops candidates c.withoutNotices step ∧
      ∀ other, dropping.Drops candidates c.withoutNotices other → other = step
  /-- The same candidates are reported as the first ones cut off. -/
  cuts_eq : tagged.cuts = (dropping.run candidates).cuts

/-- Tagging by some rules compares as it should with dropping by them, if the candidates
have different identities and no notices yet. -/
theorem Chain.run_tags_what_is_dropped (rules : List Rule) {candidates : List Candidate}
    (hdistinct : (candidates.map Candidate.identity).Nodup)
    (hfresh : ∀ c ∈ candidates, c.notices = []) :
    TagsWhatIsDropped (ofRules false rules) candidates
      ((ofRules true rules).run candidates) := by
  have hunmarked := unmarked_eq_self hfresh
  have hnotice : ∀ c ∈ ((ofRules true rules).run candidates).candidates, c.notices = [] ∨
      ∃ step, (ofRules false rules).Drops candidates c.withoutNotices step ∧
        c.notices = [rejection step.name] := by
    intro c hc
    rcases mem_run_tagging rules hdistinct hc with hsame | hdropped
    · exact Or.inl (hfresh c hsame)
    · rw [hunmarked] at hdropped
      exact Or.inr hdropped
  constructor
  · simpa only [map_withoutNotices_eq_self hfresh] using withoutNotices_run_perm rules candidates
  · intro c hc
    rcases hnotice c hc with hnone | ⟨step, -, hone⟩
    · simp [hnone]
    · simp [hone]
  · simpa only [hunmarked] using unmarked_run rules hdistinct
  · intro c hc hmarked
    rcases hnotice c hc with hnone | ⟨step, hdrops, hone⟩
    · simp [Candidate.isMarked, hnone] at hmarked
    · exact ⟨step, hone, hdrops, fun other hother => drops_unique hdrops hother⟩
  · simpa only [hunmarked] using cuts_run rules hdistinct

/-- A plan that passes its check can be built. -/
theorem Plan.build_eq_ok {plan : Plan} (hcheck : plan.check = .ok ()) :
    plan.build = .ok plan.chain :=
  map_eq_ok_iff.2 ⟨(), hcheck, rfl⟩

/-- A plan that could be built applies its rules, in order, and all steps tag or all drop. -/
theorem Plan.eq_ofRules_of_build {plan : Plan} {chain : Chain} (hbuild : plan.build = .ok chain) :
    chain = Chain.ofRules plan.debug plan.rules := by
  obtain ⟨_, -, rfl⟩ := map_eq_ok_iff.1 hbuild
  rfl

/-- Whether a plan tags or drops does not matter for whether it can be built, and built in
both ways its chains differ by nothing but notices in place of lost candidates. -/
theorem Plan.debug_tags_what_is_dropped {plan : Plan} {built : Chain}
    (hbuild : plan.build = .ok built) {candidates : List Candidate}
    (hdistinct : (candidates.map Candidate.identity).Nodup)
    (hfresh : ∀ c ∈ candidates, c.notices = []) :
    ∃ tagging dropping, { plan with debug := true }.build = .ok tagging ∧
      { plan with debug := false }.build = .ok dropping ∧
      TagsWhatIsDropped dropping candidates (tagging.run candidates) := by
  obtain ⟨_, hcheck, -⟩ := map_eq_ok_iff.1 hbuild
  have hbuilt : ∀ debug, { plan with debug := debug }.build =
      .ok (Chain.ofRules debug plan.rules) := by
    intro debug
    have hsame : { plan with debug := debug }.check = plan.check := rfl
    exact map_eq_ok_iff.2 ⟨(), hsame ▸ hcheck, rfl⟩
  exact ⟨_, _, hbuilt true, hbuilt false,
    Chain.run_tags_what_is_dropped plan.rules hdistinct hfresh⟩

/-- A plan that only limits the number of itineraries, to one, and reports the next one. -/
private def onlyFirst : Plan :=
  { Plan.new false with
    maxItineraries := 1, maxStreetOnly := -1, boundByStreetOnly := false, reportsCut := true }

/-- It sorts, cuts and sorts again. -/
private theorem rules_onlyFirst : onlyFirst.rules =
    [.sort false, .atMost "number-of-itineraries-filter" 1 true, .sort false] := by
  simp [onlyFirst, Plan.new, Plan.rules, Plan.groupingRules, Plan.sortedGroupings, Plan.costRules,
    Plan.numberRules, Plan.absoluteRules]

/-- A bus at nine. -/
private def nineOClockBus : Candidate :=
  .ofLeg 1 (.onDay .bus (.inRow 0) (.inRow 1) 540 570)

/-- A bus at ten. -/
private def tenOClockBus : Candidate :=
  .ofLeg 0 (.onDay .bus (.inRow 0) (.inRow 1) 600 640)

/-- The bus at ten with the notice of the limit. -/
private def taggedBus : Candidate :=
  tenOClockBus.mark (rejection "number-of-itineraries-filter")

/-- The later bus is tagged where it would be dropped. -/
theorem Plan.later_bus_tagged : onlyFirst.build = .ok onlyFirst.chain ∧
    ([tenOClockBus, nineOClockBus].map Candidate.identity).Nodup ∧
    (∀ c ∈ [tenOClockBus, nineOClockBus], c.notices = []) ∧
    ∃ tagging dropping, { onlyFirst with debug := true }.build = .ok tagging ∧
      { onlyFirst with debug := false }.build = .ok dropping ∧
      TagsWhatIsDropped dropping [tenOClockBus, nineOClockBus]
        (tagging.run [tenOClockBus, nineOClockBus]) ∧
      (tagging.run [tenOClockBus, nineOClockBus]).candidates = [nineOClockBus, taggedBus] ∧
      (dropping.run [tenOClockBus, nineOClockBus]).candidates = [nineOClockBus] := by
  have hbuild : onlyFirst.build = .ok onlyFirst.chain := rfl
  have hdistinct : ([tenOClockBus, nineOClockBus].map Candidate.identity).Nodup := by decide
  have hfresh : ∀ c ∈ [tenOClockBus, nineOClockBus], c.notices = [] := by decide
  obtain ⟨tagging, dropping, htagging, hdropping, htags⟩ :=
    debug_tags_what_is_dropped hbuild hdistinct hfresh
  have htagged : (tagging.run [tenOClockBus, nineOClockBus]).candidates =
      [nineOClockBus, taggedBus] := by
    cases htagging
    have hsorted : Step.apply ⟨.sort false, true⟩ [tenOClockBus, nineOClockBus] =
        [nineOClockBus, tenOClockBus] := sortForShow_pair (by decide)
    have hcut : Step.apply ⟨.atMost "number-of-itineraries-filter" 1 true, true⟩
        [nineOClockBus, tenOClockBus] = [nineOClockBus, taggedBus] := by decide +kernel
    have hstays : Step.apply ⟨.sort false, true⟩ [nineOClockBus, taggedBus] =
        [nineOClockBus, taggedBus] := List.mergeSort_of_pairwise (by decide)
    change (Chain.run (Chain.ofRules true onlyFirst.rules) _).candidates = _
    simp only [rules_onlyFirst, Chain.ofRules, List.map_cons, List.map_nil, Chain.run, hsorted,
      hcut, hstays]
  refine ⟨hbuild, hdistinct, hfresh, tagging, dropping, htagging, hdropping, htags, htagged, ?_⟩
  rw [← htags.unmarked_eq, htagged]
  rfl

end Selection

end JourneyPlanner
