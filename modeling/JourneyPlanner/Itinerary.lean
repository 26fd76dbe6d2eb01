import JourneyPlanner.Leg
import JourneyPlanner.Quantity

/-!
# Itineraries

An itinerary is a complete journey: one or more legs, none of which starts
before the one in front of it ends. A candidate is an itinerary on its way
through a search, with an identity by which it is recognised and the notices
that were put on it.
-/

namespace JourneyPlanner

/-- No leg starts before the one in front of it ends. -/
def Leg.Chained : List Leg → Prop
  | a :: b :: rest => a.finish ≤ b.start ∧ Chained (b :: rest)
  | _ => True

/-- A complete journey. -/
structure Itinerary where
  /-- The legs in the order they are travelled. -/
  legs : List Leg
  /-- The generalized cost, a 64-bit number; it need not be that of the legs. -/
  cost : Int
  /-- Metres climbed. -/
  climb : Float
  /-- Metres descended. -/
  descent : Float
  /-- Whether a limit on travel outside transit is exceeded. -/
  limitExceeded : Bool
  /-- Whether some of it is too steep. -/
  tooSloped : Bool
  /-- There is a leg. -/
  legs_ne_nil : legs ≠ []
  /-- The legs follow each other. -/
  chained : Leg.Chained legs
  deriving DecidableEq

/-- A failure with a reason of its own, or a fault. -/
inductive Failure (ε : Type) where
  /-- The value is refused. -/
  | refused (reason : ε)
  /-- The computation has no result. -/
  | fault (cause : Fault)
  deriving DecidableEq

namespace Itinerary

/-- The first leg that starts before the one in front of it ends; `index` is that of the
second leg. -/
def firstOverlap? (index : Nat) : List Leg → Option ItineraryError
  | a :: b :: rest =>
    if b.start < a.finish then some (.legsOverlap index b.start a.finish)
    else firstOverlap? (index + 1) (b :: rest)
  | _ => none

/-- Legs are chained exactly if no overlap is found. -/
theorem firstOverlap?_eq_none_iff {index : Nat} {legs : List Leg} :
    firstOverlap? index legs = none ↔ Leg.Chained legs := by
  fun_induction firstOverlap? index legs with
  | case1 index a b rest hab =>
    simp [Leg.Chained, Instant.le_def, Int.not_le.2 (Instant.lt_def.1 hab)]
  | case2 index a b rest hab ih =>
    simp [Leg.Chained, Instant.le_def, Int.not_lt.1 (mt Instant.lt_def.2 hab), ih]
  | case3 legs index hshort =>
    match legs, hshort with
    | [], _ => simp [Leg.Chained]
    | [a], _ => simp [Leg.Chained]
    | a :: b :: rest, hshort => exact absurd rfl (hshort a b rest)

/-- Chained legs none of which ends before it starts follow each other throughout. -/
theorem pairwise_of_chained {legs : List Leg} (h : Leg.Chained legs)
    (hordered : ∀ leg ∈ legs, leg.start ≤ leg.finish) :
    legs.Pairwise fun a b => a.finish ≤ b.start := by
  fun_induction Leg.Chained legs with
  | case1 a b rest ih =>
    have hrest := ih h.2 fun leg hleg => hordered leg (List.mem_cons_of_mem a hleg)
    refine List.pairwise_cons.2 ⟨fun c hc => ?_, hrest⟩
    rcases List.mem_cons.1 hc with rfl | hc
    · exact h.1
    · have hb := hordered b (by simp)
      exact Int.le_trans h.1 (Int.le_trans hb ((List.pairwise_cons.1 hrest).1 c hc))
  | case2 legs hshort =>
    match legs, hshort with
    | [], _ => exact .nil
    | [a], _ => exact List.pairwise_singleton _ a
    | a :: b :: rest, hshort => exact absurd rfl (hshort a b rest)

/-- The itinerary of some legs, with the sum of their costs as its cost. -/
def ofLegs (legs : List Leg) : Except (Failure ItineraryError) Itinerary :=
  if hne : legs = [] then .error (.refused .noLegs)
  else
    match h : firstOverlap? 1 legs with
    | some overlap => .error (.refused overlap)
    | none =>
      match sumCosts (legs.map Leg.cost) with
      | .error cause => .error (.fault cause)
      | .ok cost =>
        .ok ⟨legs, cost, 0.0, 0.0, false, false, hne, firstOverlap?_eq_none_iff.1 h⟩

/-- The first leg. -/
def firstLeg (it : Itinerary) : Leg :=
  it.legs.head it.legs_ne_nil

/-- The last leg. -/
def lastLeg (it : Itinerary) : Leg :=
  it.legs.getLast it.legs_ne_nil

/-- Where it starts. -/
def origin (it : Itinerary) : Place :=
  it.firstLeg.origin

/-- Where it ends. -/
def destination (it : Itinerary) : Place :=
  it.lastLeg.destination

/-- When it starts. -/
def start (it : Itinerary) : Instant :=
  it.firstLeg.start

/-- When it ends. -/
def finish (it : Itinerary) : Instant :=
  it.lastLeg.finish

/-- How long it takes. -/
def duration (it : Itinerary) : Int :=
  it.finish.since it.start

/-- The legs that ride transit. -/
def transitLegs (it : Itinerary) : List Leg :=
  it.legs.filter Leg.isTransit

/-- Whether no leg rides transit. -/
def isStreetOnly (it : Itinerary) : Bool :=
  !it.legs.any Leg.isTransit

/-- How often the traveller changes from one ride to another. -/
def transfers (it : Itinerary) : Nat :=
  it.transitLegs.length - 1

/-- The length of all legs. -/
def distance (it : Itinerary) : Float :=
  Quantity.sum (it.legs.map Leg.distance)

/-- The length of the legs that are walked. -/
def walkDistance (it : Itinerary) : Float :=
  Quantity.sum ((it.legs.filter fun leg => leg.mode = .walk).map Leg.distance)

end Itinerary

/-- What an itinerary is recognised by. -/
inductive Identity where
  /-- The itinerary at an index among those a search engine knows. -/
  | known (index : Nat)
  /-- The itinerary composed for the sequence at an index. -/
  | composed (index : Nat)
  deriving DecidableEq, Repr

/-- A note on an itinerary that it was rejected. -/
structure Notice where
  /-- Who rejected it. -/
  tag : String
  /-- What travellers are told. -/
  text : String
  deriving DecidableEq, Repr

/-- An itinerary on its way through a search. -/
structure Candidate extends Itinerary where
  /-- What it is recognised by; copies share it. -/
  identity : Identity
  /-- The notices put on it, the first one first. -/
  notices : List Notice
  deriving DecidableEq

namespace Candidate

/-- A candidate without notices. -/
def of (identity : Identity) (it : Itinerary) : Candidate :=
  { it with identity := identity, notices := [] }

/-- Itineraries that a search engine knows, recognised by their place among them. -/
def pool (its : List Itinerary) : List Candidate :=
  its.zipIdx.map fun (it, index) => of (.known index) it

/-- Whether it carries a notice. -/
def isMarked (c : Candidate) : Bool :=
  !c.notices.isEmpty

/-- The candidate with one more notice. -/
def mark (notice : Notice) (c : Candidate) : Candidate :=
  { c with notices := c.notices ++ [notice] }

end Candidate

end JourneyPlanner
