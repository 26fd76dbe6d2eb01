import JourneyPlanner.CostLimit
import Mathlib.Algebra.BigOperators.Group.List.Basic
import Mathlib.Algebra.Order.Field.Rat

/-!
# Exact numbers

Lengths and limits can be computed with rational numbers instead of floats. Nothing is rounded
then, and a float that is a number is read as the rational number it stands for.
-/

namespace JourneyPlanner

/-- Exact numbers. -/
instance : Quantity ℚ where
  zero := 0
  add x y := x + y
  mul x y := x * y
  ofInt n := n
  le x y := decide (x ≤ y)
  lt x y := decide (x < y)
  rank x y := compare x y

/-- Exact numbers are summed as usual. -/
theorem Quantity.sum_eq (values : List ℚ) : Quantity.sum values = values.sum :=
  List.sum_eq_foldl.symm

/-- The number a float stands for; zero for an infinity or a not-a-number. -/
def Decimal.exactly (x : Float) : ℚ :=
  match x.toModel.unpack with
  | .finite sign digits exponent _ => sign.apply digits * 2 ^ exponent
  | _ => 0

/-- A limit on costs with the numbers its parameters stand for. -/
def CostLimit.exactly (limit : CostLimit) : LinearFunction ℚ :=
  ⟨Decimal.exactly limit.constant, Decimal.exactly limit.coefficient⟩

end JourneyPlanner
