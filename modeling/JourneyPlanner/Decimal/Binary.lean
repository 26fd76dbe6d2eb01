/-!
# The exact value of a float

A finite `Float` is a whole number of units of a power of two. This file reads
that number off the bits, so that texts can be computed with exact integers,
and gives the total order on all floats, in which `-0.0` comes before `0.0` and
the not-a-numbers stand outside the infinities.
-/

namespace JourneyPlanner.Decimal

/-- The value `± significand · 2 ^ exponent` of a finite float. -/
structure BinaryValue where
  /-- The sign bit, set also for `-0.0`. -/
  negative : Bool
  /-- Below `2 ^ 53`. -/
  significand : Nat
  /-- The power of two one unit of the significand stands for. -/
  exponent : Int
  deriving DecidableEq, Repr

/-- The exact value of a float, or `none` for an infinity or a not-a-number. -/
def BinaryValue.ofFloat? (x : Float) : Option BinaryValue :=
  let bits := x.toBits.toNat
  let fraction : Nat := bits % Nat.pow 2 52
  let biased : Nat := bits / Nat.pow 2 52 % Nat.pow 2 11
  let negative := decide (Nat.pow 2 63 ≤ bits)
  if biased = 2047 then none
  else if biased = 0 then some ⟨negative, fraction, -1074⟩
  else some ⟨negative, Nat.pow 2 52 + fraction, Int.ofNat biased - 1075⟩

/-- A float that is neither infinite nor a not-a-number. -/
def isFinite (x : Float) : Bool :=
  (BinaryValue.ofFloat? x).isSome

/-- The place of a float in the total order: the bits read as a signed number,
with the negative ones turned around. -/
def totalRank (x : Float) : Int :=
  let bits := x.toBits.toNat
  if bits < Nat.pow 2 63 then (bits : Int) else Int.pow 2 63 - 1 - (bits : Int)

/-- Comparison in the total order on floats. -/
def totalCompare (x y : Float) : Ordering :=
  compare (totalRank x) (totalRank y)

end JourneyPlanner.Decimal
