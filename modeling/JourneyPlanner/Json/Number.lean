import JourneyPlanner.Decimal.Literal
import JourneyPlanner.Json.Value

/-!
# Numbers in JSON texts

A number without point and power is a whole number when it fits 64 bits. Any
other is a float: its digits are gathered into a 64-bit number for as long as
they fit, and that number is scaled once by a power of ten, so a decimal with
more than fifteen digits may come out next to the nearest float.
-/

namespace JourneyPlanner.Json

/-- The spelling of a number, split into its parts. -/
structure NumberText where
  /-- A minus sign stands in front. -/
  negative : Bool
  /-- The digits before the point, at least one. -/
  whole : List Char
  /-- The digits after the point, if there is one. -/
  fraction : Option (List Char)
  /-- The power of ten, if one is written. -/
  power : Option Int

/-- Digits gathered so far: the number they spell, and the power of ten it stands for. -/
structure Gathered where
  /-- At most `2 ^ 64 - 1`. -/
  significand : Nat
  /-- The power of ten to scale by. -/
  exponent : Int

/-- Whether one more digit still fits 64 bits. -/
def Gathered.fits (g : Gathered) (digit : Nat) : Bool :=
  10 * g.significand + digit < Nat.pow 2 64

/-- Takes digits before the point; from the first that does not fit on they only count as
places. -/
def Gathered.takeWhole (g : Gathered) : List Char → Gathered
  | [] => g
  | c :: rest =>
    let digit := c.toNat - '0'.toNat
    if g.fits digit then takeWhole ⟨10 * g.significand + digit, g.exponent⟩ rest
    else ⟨g.significand, g.exponent + (rest.length + 1)⟩

/-- Takes digits after the point; from the first that does not fit on they are dropped. -/
def Gathered.takeFraction (g : Gathered) : List Char → Gathered
  | [] => g
  | c :: rest =>
    let digit := c.toNat - '0'.toNat
    if g.fits digit then takeFraction ⟨10 * g.significand + digit, g.exponent - 1⟩ rest else g

/-- Divides by `10 ^ 308` while the power of ten is further below zero than that. -/
def scaleDown : Nat → Float → Int → Float
  | 0, _, _ => 0.0
  | fuel + 1, x, exponent =>
    if -308 ≤ exponent then x / Float.ofScientific 1 false (-exponent).toNat
    else if x == 0.0 then 0.0
    else scaleDown fuel (x / 1e308) (exponent + 308)

/-- The magnitude the gathered digits stand for, unless it is too large for a float. -/
def Gathered.toFloat? (g : Gathered) : Option Float :=
  let x := Float.ofNat g.significand
  if g.exponent < 0 then some (scaleDown 5 x g.exponent)
  else if 308 < g.exponent then (if g.significand = 0 then some 0.0 else none)
  else
    let scaled := x * Float.ofScientific 1 false g.exponent.toNat
    if Decimal.isFinite scaled then some scaled else none

/-- The value of a number's text. -/
def NumberText.value (text : NumberText) : Json :=
  let whole := Decimal.digitsValue 0 text.whole
  let asFloat : Json :=
    let g := (Gathered.mk 0 0).takeWhole text.whole
    let g := g.takeFraction (text.fraction.getD [])
    match (Gathered.mk g.significand (g.exponent + text.power.getD 0)).toFloat? with
    | none => .unreadable
    | some x => .float (if text.negative then -x else x)
  if text.fraction.isSome || text.power.isSome then asFloat
  else if text.negative then
    if 0 < whole ∧ whole ≤ Nat.pow 2 63 then .int (-whole) else asFloat
  else if whole < Nat.pow 2 64 then .int whole
  else asFloat

end JourneyPlanner.Json
