/-!
# Reading decimals

The numbers inside a cost function's text: an optional sign, digits with at
most one point and an optional power of ten, or the words for infinity and
not-a-number in any case. The float nearest to the decimal is meant, so a
number too large is infinite and one too small is zero.
-/

namespace JourneyPlanner.Decimal

/-- The number a run of digits spells, continuing from `start`. -/
def digitsValue (start : Nat) (digits : List Char) : Nat :=
  digits.foldl (fun n c => 10 * n + (c.toNat - '0'.toNat)) start

/-- The float nearest to `digits · 10 ^ exponent`. A power far outside the range of floats
decides the answer by itself. -/
def nearestFloat (digits : Nat) (exponent : Int) : Float :=
  let power := exponent + Int.ofNat (Nat.toDigits 10 digits).length
  if digits = 0 then 0.0
  else if 400 < power then 1.0 / 0.0
  else if power < -400 then 0.0
  else Float.ofScientific digits (decide (exponent < 0)) exponent.natAbs

/-- The power of ten written after the digits: nothing, or a letter `e` and a signed number. -/
def readExponent? : List Char → Option Int
  | [] => some 0
  | mark :: text =>
    if mark = 'e' ∨ mark = 'E' then
      let (negative, digits) :=
        match text with
        | '-' :: rest => (true, rest)
        | '+' :: rest => (false, rest)
        | _ => (false, text)
      if digits.isEmpty || !digits.all Char.isDigit then none
      else
        let value : Int := digitsValue 0 digits
        some (if negative then -value else value)
    else none

/-- A decimal without a sign: digits on at least one side of an optional point, then an
optional power of ten. -/
def readUnsigned? (text : List Char) : Option Float :=
  let whole := text.takeWhile Char.isDigit
  let rest := text.dropWhile Char.isDigit
  let (fraction, rest) :=
    match rest with
    | '.' :: after => (after.takeWhile Char.isDigit, after.dropWhile Char.isDigit)
    | _ => ([], rest)
  if whole.isEmpty && fraction.isEmpty then none
  else
    (readExponent? rest).map fun exponent =>
      nearestFloat (digitsValue 0 (whole ++ fraction)) (exponent - fraction.length)

/-- A decimal or one of the words `inf`, `infinity` and `nan`, without a sign. -/
def readMagnitude? (text : List Char) : Option Float :=
  let word := String.ofList (text.map Char.toLower)
  if word = "inf" ∨ word = "infinity" then some (1.0 / 0.0)
  else if word = "nan" then some (0.0 / 0.0)
  else readUnsigned? text

/-- The float a text spells, if it spells one. -/
def readFloat? (text : List Char) : Option Float :=
  match text with
  | '-' :: rest => (readMagnitude? rest).map fun x => -x
  | '+' :: rest => readMagnitude? rest
  | _ => readMagnitude? text

end JourneyPlanner.Decimal
