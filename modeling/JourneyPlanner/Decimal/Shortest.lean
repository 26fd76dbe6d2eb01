import JourneyPlanner.Decimal.Binary

/-!
# The shortest decimal of a float

Among the decimals that are read back as a given float there are some with the
fewest digits, and of those one that lies nearest to it. The search runs in
exact natural numbers: for one digit, then two, and so on, it looks at the two
points of the decimal grid on either side of the float and takes one that lies
among the reals rounded to that float.
-/

namespace JourneyPlanner.Decimal

/-- The value `digits · 10 ^ exponent`. -/
structure Scaled where
  /-- The significant digits, read as one number. -/
  digits : Nat
  /-- The power of ten of the last digit. -/
  exponent : Int
  deriving DecidableEq, Repr

/-- The number of decimal digits of a positive number. -/
def digitCount (n : Nat) : Nat :=
  (Nat.toDigits 10 n).length

/-- Moves the zeros at the end of the digits into the exponent, at most `fuel` of them. -/
def Scaled.dropZeros : Nat → Scaled → Scaled
  | 0, s => s
  | fuel + 1, s =>
    if s.digits ≠ 0 ∧ s.digits % 10 = 0 then dropZeros fuel ⟨s.digits / 10, s.exponent + 1⟩ else s

/-- Which of two equally near points of the grid to take. -/
inductive Tie where
  /-- The larger one. -/
  | up
  /-- The one whose last digit is even. -/
  | even
  deriving DecidableEq, Repr

/-- A positive float as a fraction, with the ends of the interval of reals rounded to it;
all three share one denominator. -/
structure Neighbourhood where
  /-- Numerator of the lower end. -/
  low : Nat
  /-- Numerator of the float. -/
  value : Nat
  /-- Numerator of the upper end. -/
  high : Nat
  /-- The common denominator. -/
  denominator : Nat
  /-- The ends belong to the interval. -/
  closed : Bool

/-- The interval around a positive finite float: half a unit to either side, a quarter
below a power of two, where the floats lie closer. -/
def BinaryValue.neighbourhood (b : BinaryValue) : Neighbourhood :=
  let belowStep := if b.significand = Nat.pow 2 52 ∧ -1074 < b.exponent then 1 else 2
  let exponent := b.exponent - 2
  let scale := Nat.pow 2 exponent.toNat
  { low := (4 * b.significand - belowStep) * scale
    value := 4 * b.significand * scale
    high := (4 * b.significand + 2) * scale
    denominator := Nat.pow 2 (-exponent).toNat
    closed := b.significand % 2 == 0 }

/-- The exponent `k` with `10 ^ (k - 1) ≤ num / den < 10 ^ k`. -/
def leadingExponent (num den : Nat) : Int :=
  if den ≤ num then digitCount (num / den)
  else 1 - Int.ofNat (digitCount ((den - 1) / num))

/-- The point of the grid of multiples of `10 ^ exponent` that is read back as the float,
the nearer of two, if there is one. -/
def Neighbourhood.onGrid? (tie : Tie) (n : Neighbourhood) (exponent : Int) : Option Scaled :=
  let up := Nat.pow 10 exponent.toNat
  let down := Nat.pow 10 (-exponent).toNat
  let step := n.denominator * up
  let floor := n.value * down / step
  let remainder := n.value * down % step
  let within (point : Nat) : Bool :=
    if n.closed then n.low * down ≤ point * step && point * step ≤ n.high * down
    else n.low * down < point * step && point * step < n.high * down
  let ceiling := floor + 1
  if remainder = 0 then some ⟨floor, exponent⟩
  else
    match within floor && floor != 0, within ceiling with
    | true, true =>
      if 2 * remainder < step then some ⟨floor, exponent⟩
      else if step < 2 * remainder then some ⟨ceiling, exponent⟩
      else
        match tie with
        | .up => some ⟨ceiling, exponent⟩
        | .even => some ⟨if floor % 2 = 0 then floor else ceiling, exponent⟩
    | true, false => some ⟨floor, exponent⟩
    | false, true => some ⟨ceiling, exponent⟩
    | false, false => none

/-- Tries the grids with one digit, two digits and so on; `left` more grids follow. -/
def Neighbourhood.search (tie : Tie) (n : Neighbourhood) (leading : Int) : Nat → Nat → Scaled
  | 0, _ => ⟨n.value / n.denominator, 0⟩
  | left + 1, count =>
    match n.onGrid? tie (leading - count) with
    | some s => s
    | none => search tie n leading left (count + 1)

/-- The shortest decimal that is read back as the magnitude of a finite float; seventeen
digits always suffice. -/
def BinaryValue.shortest (tie : Tie) (b : BinaryValue) : Scaled :=
  if b.significand = 0 then ⟨0, 0⟩
  else
    let n := b.neighbourhood
    (n.search tie (leadingExponent n.value n.denominator) 17 1).dropZeros 20

end JourneyPlanner.Decimal
