import JourneyPlanner.Decimal.Binary

/-!
# Quantities

Lengths and cost limits are computed with floats. The rules that use them are
written for any type of numbers that can be added, multiplied and compared, so
that they can be read with exact numbers as well.
-/

namespace JourneyPlanner

/-- Numbers that lengths and limits are computed with. -/
class Quantity (α : Type) where
  /-- The number that adds nothing, which sums start from. -/
  zero : α
  /-- The sum. -/
  add : α → α → α
  /-- The product. -/
  mul : α → α → α
  /-- The number nearest to a whole one. -/
  ofInt : Int → α
  /-- At most. -/
  le : α → α → Bool
  /-- Less than. -/
  lt : α → α → Bool
  /-- A total order for ranking. -/
  rank : α → α → Ordering

/-- Floats, rounded after every step. It is the zero with a minus sign that adds nothing:
adding the other one would lose the sign of a sum of such zeros. -/
instance : Quantity Float where
  zero := -0.0
  add x y := x + y
  mul x y := x * y
  ofInt := Float.ofInt
  le x y := decide (x ≤ y)
  lt x y := decide (x < y)
  rank := Decimal.totalCompare

/-- The sum from left to right; of no values it is zero. -/
def Quantity.sum {α : Type} [Quantity α] (values : List α) : α :=
  values.foldl Quantity.add Quantity.zero

end JourneyPlanner
