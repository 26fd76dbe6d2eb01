import JourneyPlanner.Decimal.Shortest

/-!
# Texts of floats

Three spellings of a float are in use: the plain one of messages and labels,
the one of JSON texts, and a fixed number of places for coordinates. The first
two spell the shortest decimal and differ in a `FloatStyle`.
-/

namespace JourneyPlanner.Decimal

/-- How a shortest decimal is spelled out. -/
structure FloatStyle where
  /-- Positional from this power of ten of the first digit on; always, if absent. -/
  lowestPositional : Option Int
  /-- Positional up to this power of ten of the first digit; always, if absent. -/
  highestPositional : Option Int
  /-- What follows the digits of a whole number. -/
  wholeEnding : String
  /-- Which of two nearest decimals is meant. -/
  tie : Tie

/-- Messages and labels spell every float positionally and whole numbers without a point. -/
def FloatStyle.plain : FloatStyle :=
  ⟨none, none, "", .up⟩

/-- JSON texts are positional from `0.00001` to below `1e+16`, and whole numbers end in `.0`. -/
def FloatStyle.json : FloatStyle :=
  ⟨some (-5), some 15, ".0", .even⟩

/-- As many zeros as asked for. -/
def zeros (count : Nat) : String :=
  String.ofList (List.replicate count '0')

/-- The digits of a number, with zeros in front up to a width. -/
def padded (width n : Nat) : String :=
  let digits := toString n
  zeros (width - digits.length) ++ digits

/-- Digits with a point after the first `whole` of them; `whole` may lie outside. -/
def withPoint (style : FloatStyle) (digits : String) (whole : Int) : String :=
  if whole ≤ 0 then "0." ++ zeros (-whole).toNat ++ digits
  else if (digits.length : Int) ≤ whole then
    digits ++ zeros (whole.toNat - digits.length) ++ style.wholeEnding
  else
    String.ofList (digits.toList.take whole.toNat) ++ "." ++
      String.ofList (digits.toList.drop whole.toNat)

/-- The digits in exponent form: one before the point, the others after it. -/
def inExponentForm (digits : String) (power : Int) : String :=
  let sign := if power < 0 then "-" else "+"
  let tail := String.ofList (digits.toList.drop 1)
  String.ofList (digits.toList.take 1) ++ (if tail.isEmpty then "" else "." ++ tail) ++ "e" ++
    sign ++ toString power.natAbs

/-- The text of a shortest decimal in a style. -/
def Scaled.text (style : FloatStyle) (s : Scaled) : String :=
  if s.digits = 0 then "0" ++ style.wholeEnding
  else
    let digits := toString s.digits
    let whole := (digits.length : Int) + s.exponent
    let power := whole - 1
    let positional :=
      (match style.lowestPositional with
        | none => true
        | some lowest => decide (lowest ≤ power)) &&
      (match style.highestPositional with
        | none => true
        | some highest => decide (power ≤ highest))
    if positional then withPoint style digits whole else inExponentForm digits power

/-- The text of a float that stands for no finite number. -/
def nonFiniteText (x : Float) : String :=
  if x == x then (if 0 < x then "inf" else "-inf") else "NaN"

/-- The text of a float in a style. -/
def floatText (style : FloatStyle) (x : Float) : String :=
  match BinaryValue.ofFloat? x with
  | none => nonFiniteText x
  | some b => (if b.negative then "-" else "") ++ (b.shortest style.tie).text style

/-- The float spelled plainly, as messages do. -/
def plainText (x : Float) : String :=
  floatText .plain x

/-- The quotient rounded to the nearest whole number, a half to the even neighbour. -/
def roundDiv (num den : Nat) : Nat :=
  let floor := num / den
  let twice := 2 * (num % den)
  if twice < den then floor
  else if den < twice then floor + 1
  else if floor % 2 = 0 then floor
  else floor + 1

/-- The exact value of a float rounded to a fixed number of places, with the sign of a
negative one kept even where only zeros are left. -/
def fixedText (places : Nat) (x : Float) : String :=
  match BinaryValue.ofFloat? x with
  | none => nonFiniteText x
  | some b =>
    let num := b.significand * Nat.pow 2 b.exponent.toNat * Nat.pow 10 places
    let units := roundDiv num (Nat.pow 2 (-b.exponent).toNat)
    (if b.negative then "-" else "") ++ toString (units / Nat.pow 10 places) ++ "." ++
      padded places (units % Nat.pow 10 places)

end JourneyPlanner.Decimal
