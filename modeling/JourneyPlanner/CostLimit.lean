import JourneyPlanner.Decimal.Layout
import JourneyPlanner.Decimal.Literal
import JourneyPlanner.Quantity
import JourneyPlanner.Text.Blank

/-!
# Cost limits

A cost limit is a linear function of the best cost at hand, written as
`a + b x`. It is usable when it never falls below a cost that is not negative:
its constant is at least zero and its coefficient at least one.
-/

namespace JourneyPlanner

/-- The function `constant + coefficient · x`. -/
structure LinearFunction (α : Type) where
  /-- Its value at zero. -/
  constant : α
  /-- What it grows by. -/
  coefficient : α
  deriving DecidableEq

namespace LinearFunction

variable {α : Type} [Quantity α]

/-- The value of the function at a number. -/
def apply (f : LinearFunction α) (x : α) : α :=
  Quantity.add f.constant (Quantity.mul f.coefficient x)

/-- Whether the function may serve as a limit. -/
def isUsable (f : LinearFunction α) : Bool :=
  !(Quantity.lt f.constant Quantity.zero || Quantity.lt f.coefficient (Quantity.ofInt 1))

/-- Whether a whole cost is at most the value of the function at a best cost. -/
def allows (f : LinearFunction α) (best cost : Int) : Bool :=
  Quantity.le (Quantity.ofInt cost) (f.apply (Quantity.ofInt best))

end LinearFunction

/-- A limit on costs, computed with floats. -/
abbrev CostLimit := LinearFunction Float

/-- Why a cost limit was refused. -/
inductive CostLimitError where
  /-- The text has another form than `a + b x`. -/
  | format (text : String)
  /-- A parameter is not finite, or the limit would not bound costs from above. -/
  | range (constant coefficient : Float)
  deriving DecidableEq

/-- What a caller is told. -/
def CostLimitError.message : CostLimitError → String
  | .format text => "invalid cost function '" ++ text ++ "' (expected 'a + b x')"
  | .range constant coefficient =>
    "invalid cost function " ++ Decimal.plainText constant ++ " + " ++
      Decimal.plainText coefficient ++ " x: constant must be >= 0 and coefficient >= 1.0"

namespace CostLimit

/-- The limit of two parameters, which have to be finite. -/
def of (constant coefficient : Float) : Except CostLimitError CostLimit :=
  if Decimal.isFinite constant && Decimal.isFinite coefficient then .ok ⟨constant, coefficient⟩
  else .error (.range constant coefficient)

/-- The parts of a text before and after its first plus sign. -/
def splitAtPlus? (text : List Char) : Option (List Char × List Char) :=
  match text.dropWhile (· ≠ '+') with
  | [] => none
  | _ :: after => some (text.takeWhile (· ≠ '+'), after)

/-- The text without the letter x at its end, and without the blanks around both. -/
def dropVariable? (text : List Char) : Option (List Char) :=
  match (Text.trim text).reverse with
  | 'x' :: rest => some (Text.trim rest.reverse)
  | _ => none

/-- The parameters a text spells. -/
def readParameters? (text : List Char) : Option (Float × Float) := do
  let (before, after) ← splitAtPlus? text
  let coefficient ← dropVariable? after
  some (← Decimal.readFloat? (Text.trim before), ← Decimal.readFloat? coefficient)

/-- The limit a text spells. -/
def ofText (text : String) : Except CostLimitError CostLimit :=
  match readParameters? text.toList with
  | none => .error (.format text)
  | some (constant, coefficient) => of constant coefficient

/-- The text of a limit. -/
def text (f : CostLimit) : String :=
  Decimal.plainText f.constant ++ " + " ++ Decimal.plainText f.coefficient ++ " x"

/-- Refuses a limit that would not bound costs from above. -/
def check (f : CostLimit) : Except CostLimitError Unit :=
  if f.isUsable then .ok () else .error (.range f.constant f.coefficient)

end CostLimit

end JourneyPlanner
