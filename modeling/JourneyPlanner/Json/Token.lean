import JourneyPlanner.Json.Number

/-!
# Tokens of JSON texts

A JSON text is cut into marks, words, numbers and strings, up to what is none of
them. Every step takes at least one character, which is why the cutting ends.
-/

namespace JourneyPlanner.Json

/-- A token of a JSON text. -/
inductive Token where
  | openBrace
  | closeBrace
  | openBracket
  | closeBracket
  | colon
  | comma
  /-- A string, absent when its escapes name half a surrogate pair. -/
  | string (value : Option String)
  /-- A word or a number. -/
  | scalar (value : Json)
  /-- Text that is no token; nothing behind it is looked at. -/
  | garbage

/-- The blanks allowed between tokens. -/
def isSpace (c : Char) : Bool :=
  c == ' ' || c == '\n' || c == '\t' || c == '\r'

/-- The value of a hexadecimal digit. -/
def hexValue? (c : Char) : Option Nat :=
  if '0' ≤ c ∧ c ≤ '9' then some (c.toNat - '0'.toNat)
  else if 'a' ≤ c ∧ c ≤ 'f' then some (c.toNat - 'a'.toNat + 10)
  else if 'A' ≤ c ∧ c ≤ 'F' then some (c.toNat - 'A'.toNat + 10)
  else none

/-- The number that four hexadecimal digits spell. -/
def hexValue4? (a b c d : Char) : Option Nat := do
  some ((((← hexValue? a) * 16 + (← hexValue? b)) * 16 + (← hexValue? c)) * 16 + (← hexValue? d))

/-- The character of an escape with a single letter. -/
def escapedChar? : Char → Option Char
  | '"' => some '"'
  | '\\' => some '\\'
  | '/' => some '/'
  | 'b' => some '\x08'
  | 'f' => some '\x0c'
  | 'n' => some '\n'
  | 'r' => some '\r'
  | 't' => some '\t'
  | _ => none

/-- A string's text as code units: characters, and halves of surrogate pairs. -/
inductive Unit16 where
  | char (c : Char)
  | high (n : Nat)
  | low (n : Nat)

/-- The unit of a four-digit escape. -/
def Unit16.ofEscape (n : Nat) : Unit16 :=
  if 0xD800 ≤ n ∧ n < 0xDC00 then .high (n - 0xD800)
  else if 0xDC00 ≤ n ∧ n < 0xE000 then .low (n - 0xDC00)
  else .char (Char.ofNat n)

/-- Joins surrogate pairs; absent if a half stands alone. -/
def Unit16.join : List Unit16 → Option (List Char)
  | [] => some []
  | .char c :: rest => (join rest).map (c :: ·)
  | .high h :: .low l :: rest => (join rest).map (Char.ofNat (0x10000 + h * 0x400 + l) :: ·)
  | .high _ :: _ => none
  | .low _ :: _ => none

/-- Reads a string after its opening quote: its units and the text after the closing quote. -/
def takeString? : List Char → Option (List Unit16 × List Char)
  | [] => none
  | '"' :: rest => some ([], rest)
  | '\\' :: 'u' :: a :: b :: c :: d :: rest =>
    match hexValue4? a b c d, takeString? rest with
    | some n, some (units, after) => some (.ofEscape n :: units, after)
    | _, _ => none
  | '\\' :: c :: rest =>
    match escapedChar? c, takeString? rest with
    | some e, some (units, after) => some (.char e :: units, after)
    | _, _ => none
  | c :: rest =>
    if c.toNat < 0x20 ∨ c = '\\' then none
    else (takeString? rest).map fun (units, after) => (.char c :: units, after)

/-- Reads the power of ten of a number, if one follows: its value and the text after it.
Absent if a mark is followed by no digit. -/
def takePower? (text : List Char) : Option (Option Int × List Char) :=
  match text with
  | mark :: rest =>
    if mark = 'e' ∨ mark = 'E' then
      let (negative, rest) :=
        match rest with
        | '-' :: after => (true, after)
        | '+' :: after => (false, after)
        | _ => (false, rest)
      let digits := rest.takeWhile Char.isDigit
      if digits.isEmpty then none
      else
        let value : Int := Decimal.digitsValue 0 digits
        some (some (if negative then -value else value), rest.dropWhile Char.isDigit)
    else some (none, text)
  | [] => some (none, text)

/-- Reads a number without its sign: digits without a leading zero, then an optional
fraction and power. -/
def takeNumber? (negative : Bool) (text : List Char) : Option (Json × List Char) := do
  let digits := text.takeWhile Char.isDigit
  let (whole, rest) :=
    match digits with
    | '0' :: _ => (['0'], text.drop 1)
    | _ => (digits, text.dropWhile Char.isDigit)
  if whole.isEmpty then none
  match rest with
  | '.' :: after =>
    let fraction := after.takeWhile Char.isDigit
    if fraction.isEmpty then none
    let (power, rest) ← takePower? (after.dropWhile Char.isDigit)
    some ((NumberText.mk negative whole (some fraction) power).value, rest)
  | _ =>
    let (power, rest) ← takePower? rest
    some ((NumberText.mk negative whole none power).value, rest)

/-- The first token of a text that does not start with a blank, and the text after it. -/
def takeToken? : List Char → Option (Token × List Char)
  | [] => none
  | '\x7b' :: rest => some (.openBrace, rest)
  | '\x7d' :: rest => some (.closeBrace, rest)
  | '[' :: rest => some (.openBracket, rest)
  | ']' :: rest => some (.closeBracket, rest)
  | ':' :: rest => some (.colon, rest)
  | ',' :: rest => some (.comma, rest)
  | 'n' :: 'u' :: 'l' :: 'l' :: rest => some (.scalar .null, rest)
  | 't' :: 'r' :: 'u' :: 'e' :: rest => some (.scalar (.bool true), rest)
  | 'f' :: 'a' :: 'l' :: 's' :: 'e' :: rest => some (.scalar (.bool false), rest)
  | '"' :: rest =>
    (takeString? rest).map fun (units, after) =>
      (.string ((Unit16.join units).map String.ofList), after)
  | '-' :: rest => (takeNumber? true rest).map fun (value, after) => (.scalar value, after)
  | text => (takeNumber? false text).map fun (value, after) => (.scalar value, after)

/-- Cuts a text into tokens, at most `fuel` of them. -/
def tokensWithin : Nat → List Char → List Token
  | 0, text => if (text.dropWhile isSpace).isEmpty then [] else [.garbage]
  | fuel + 1, text =>
    match text.dropWhile isSpace with
    | [] => []
    | text =>
      match takeToken? text with
      | none => [.garbage]
      | some (token, rest) => token :: tokensWithin fuel rest

/-- The tokens of a text; there are no more of them than characters. -/
def tokens (text : List Char) : List Token :=
  tokensWithin text.length text

end JourneyPlanner.Json
