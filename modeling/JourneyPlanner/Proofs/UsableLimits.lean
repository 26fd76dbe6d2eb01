import JourneyPlanner.Proofs.RoundTrip
import JourneyPlanner.Proofs.Rounding

/-!
# Limits that may be used

A limit passes its check if its constant is not negative and its coefficient is one at least.
Its value at a cost that is not negative is then no less than that cost, also when the product
and the sum are rounded. Below zero the coefficient takes the limit further down than the cost,
and only the constant can make up for that.
-/

namespace JourneyPlanner

namespace LinearFunction

/-- The value of a function at a cost is no less than the cost exactly if the constant makes up
for what the coefficient takes away below zero. -/
theorem allows_self_iff {limit : LinearFunction ℚ} {cost : Int} :
    limit.allows cost cost = true ↔ (limit.coefficient - 1) * -cost ≤ limit.constant := by
  have hvalue : limit.allows cost cost =
      decide ((cost : ℚ) ≤ limit.constant + limit.coefficient * cost) := rfl
  rw [hvalue, decide_eq_true_iff]
  constructor <;> intro h <;> linarith

end LinearFunction

namespace CostLimit

variable {limit : CostLimit}

/-- A limit can be made exactly if its parameters are finite. -/
theorem made_iff_isFinite : limit.Made ↔ limit.IsFinite := by
  refine ⟨Made.isFinite, fun h => ?_⟩
  have hok : of limit.constant limit.coefficient = .ok limit := by
    rw [of, h.constant, h.coefficient]
    rfl
  exact .of hok

/-- The parameters of a limit that may be used are finite, its constant is not negative and its
coefficient is one at least. -/
theorem Made.parameters (hmade : limit.Made) (hpassed : limit.check = .ok ()) :
    limit.IsFinite ∧ -0.0 ≤ limit.constant ∧ Float.ofInt 1 ≤ limit.coefficient := by
  have hfinite := hmade.isFinite
  have husable : limit.isUsable = true := by
    by_contra hnot
    rw [check, if_neg hnot] at hpassed
    cases hpassed
  rw [LinearFunction.isUsable, Bool.not_eq_true', Bool.or_eq_false_iff] at husable
  have hzero : ¬limit.constant < -0.0 := of_decide_eq_false husable.1
  have hone : ¬limit.coefficient < Float.ofInt 1 := of_decide_eq_false husable.2
  exact ⟨hfinite, Decimal.le_of_not_lt hfinite.constant (by decide +kernel) hzero,
    Decimal.le_of_not_lt hfinite.coefficient (by decide +kernel) hone⟩

/-- A limit that may be used is no less than a cost that is not negative, even if it is rounded. -/
theorem Made.allows_self (hmade : limit.Made) (hpassed : limit.check = .ok ()) {cost : Int}
    (hcost : 0 ≤ cost) : limit.allows cost cost = true := by
  obtain ⟨hfinite, hconstant, hcoefficient⟩ := hmade.parameters hpassed
  obtain ⟨n, rfl⟩ := Int.eq_ofNat_of_zero_le hcost
  exact decide_eq_true (Decimal.le_add_mul hfinite.coefficient hconstant hcoefficient n)

/-- Without rounding, a limit that may be used is no less than a cost that is not negative, and no
less than a negative one if the constant makes up for it. -/
theorem Made.allows_exactly_iff (hmade : limit.Made) (hpassed : limit.check = .ok ())
    {cost : Int} : limit.exactly.allows cost cost = true ↔
      0 ≤ cost ∨ (limit.exactly.coefficient - 1) * -cost ≤ limit.exactly.constant := by
  rw [LinearFunction.allows_self_iff, or_iff_right_of_imp]
  intro hcost
  obtain ⟨hfinite, hconstant, hcoefficient⟩ := hmade.parameters hpassed
  have hconstant : 0 ≤ limit.exactly.constant := Decimal.exactly_nonneg hconstant
  have hcoefficient : 1 ≤ limit.exactly.coefficient :=
    Decimal.one_le_exactly hfinite.coefficient hcoefficient
  have hcost : (0 : ℚ) ≤ cost := by exact_mod_cast hcost
  have hproduct := mul_nonneg (sub_nonneg.2 hcoefficient) hcost
  linarith

end CostLimit

end JourneyPlanner
