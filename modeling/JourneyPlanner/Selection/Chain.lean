import JourneyPlanner.Selection.Rule

/-!
# Chains of rules

A chain applies one step after the other. A step either lets its rule drop
candidates, or tags them: then every candidate stays, those the rule would drop
get a notice with its name, and candidates tagged earlier are kept out of the
rule's sight. Both kinds of step meet the same candidates without a notice.
-/

namespace JourneyPlanner.Selection

/-- One step of a chain. -/
structure Step where
  /-- What the step applies. -/
  rule : Rule
  /-- Whether it tags candidates instead of dropping them. -/
  tags : Bool

/-- The notice of a rule that rejects a candidate. -/
def rejection (name : String) : Notice :=
  ⟨name, "This itinerary is marked as deleted by the " ++ name ++ " filter."⟩

/-- The candidates without a notice. -/
def unmarked (candidates : List Candidate) : List Candidate :=
  candidates.filter fun c => !c.isMarked

/-- Puts a notice on every candidate without one that a rule would drop. -/
def tagRejected (rule : Rule) (candidates : List Candidate) : List Candidate :=
  let kept := (rule.apply (unmarked candidates)).map Candidate.identity
  candidates.map fun c =>
    if !c.isMarked && !kept.contains c.identity then c.mark (rejection rule.name) else c

namespace Step

/-- What a step is called: the name of its rule. -/
def name (step : Step) : String :=
  step.rule.name

/-- Whether a step may drop candidates. -/
def removes (step : Step) : Bool :=
  !step.tags && step.rule.removes

/-- The candidates a step makes of others. -/
def apply (step : Step) (candidates : List Candidate) : List Candidate :=
  if step.tags && step.rule.removes then tagRejected step.rule candidates
  else step.rule.apply candidates

/-- The candidate a step reports as the first one it cuts off. -/
def firstCut? (step : Step) (candidates : List Candidate) : Option Candidate :=
  step.rule.firstCut? (if step.tags then unmarked candidates else candidates)

end Step

/-- Steps that are applied one after the other. -/
abbrev Chain := List Step

/-- What a chain makes of a list of candidates. -/
structure Selected where
  /-- The candidates at the end. -/
  candidates : List Candidate
  /-- The candidates that were reported as the first ones cut off, in order. -/
  cuts : List Candidate

namespace Chain

/-- The names of the steps. -/
def names (chain : Chain) : List String :=
  chain.map Step.name

/-- A chain as diagnostics show it: the names of its steps. -/
def diagnosticText (chain : Chain) : String :=
  "FilterChain \x7b filters: [" ++ ", ".intercalate (chain.names.map Text.diagnosticQuoted) ++
    "] \x7d"

/-- Applies every step to what the one before it left. -/
def run : Chain → List Candidate → Selected
  | [], candidates => ⟨candidates, []⟩
  | step :: rest, candidates =>
    let later := run rest (step.apply candidates)
    ⟨later.candidates, (step.firstCut? candidates).toList ++ later.cuts⟩

end Chain

end JourneyPlanner.Selection
