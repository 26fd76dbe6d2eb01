import JourneyPlanner.Json.Token

/-!
# Reading JSON texts

The tokens of a text are read from left to right with a stack of the arrays and
objects that are still open. Each token either opens, continues or closes one
of them, so the reading is a single pass however deep the value nests. Where a
token fits nowhere or the tokens end too early, the reading stops and gives
what it has so far, with every array and object that is still open ended in a
way that no decoder accepts.
-/

namespace JourneyPlanner.Json

/-- The members of an object so far. -/
structure OpenObject where
  /-- The members in reverse, up to the first whose name stands for no text. -/
  members : List (String × Json)
  /-- Whether every name so far stands for a text. -/
  readable : Bool

namespace OpenObject

/-- An object without members. -/
def empty : OpenObject :=
  ⟨[], true⟩

/-- Adds a member, whose name is absent if it stands for no text. -/
def put (object : OpenObject) (name : Option String) (value : Json) : OpenObject :=
  match object.readable, name with
  | true, some name => ⟨(name, value) :: object.members, true⟩
  | _, _ => ⟨object.members, false⟩

/-- The value of an object that breaks off. -/
def cut (object : OpenObject) : Json :=
  .cut object.members.reverse

/-- The value of an object that is closed. -/
def close (object : OpenObject) : Json :=
  if object.readable then .obj object.members.reverse else object.cut

end OpenObject

/-- An array or object that is still open. -/
inductive Frame where
  /-- An array with its items so far in reverse. -/
  | array (items : List Json)
  /-- An object waiting for the value of a member of a name. -/
  | object (object : OpenObject) (name : Option String)

/-- What the reading waits for. -/
inductive Expectation where
  /-- A value; `orClose` allows the end of an empty array instead. -/
  | value (orClose : Bool)
  /-- The name of a member of an object; `orClose` allows the end of an empty object
  instead. -/
  | name (object : OpenObject) (orClose : Bool)
  /-- The colon after a member's name. -/
  | colon
  /-- A comma, the end of the innermost frame, or the end of the text. -/
  | rest (value : Json)

/-- What has been read of a text. -/
structure Reading where
  /-- The value; of a text that is none, what stands in front of the mistake. -/
  value : Json
  /-- Whether the whole text is one value. -/
  complete : Bool

/-- What open frames come to if a value within them breaks off. -/
def breakOff (broken : Json) : List Frame → Json
  | [] => broken
  | .array items :: frames => breakOff (.arr (broken :: items).reverse) frames
  | .object object name :: frames => breakOff (object.put name broken).cut frames

/-- What open frames come to if what is expected does not come. -/
def breakOffAt : List Frame → Expectation → Json
  | frames, .value _ => breakOff .unreadable frames
  | frames, .colon => breakOff .unreadable frames
  | frames, .name object _ => breakOff object.cut frames
  | [], .rest value => value
  | .array items :: frames, .rest value =>
    breakOff (.arr (.unreadable :: value :: items).reverse) frames
  | .object object name :: frames, .rest value => breakOff (object.put name value).cut frames

/-- Reads the remaining tokens. -/
def readTokens : List Token → List Frame → Expectation → Reading
  | [], [], .rest value => ⟨value, true⟩
  | .scalar value :: tokens, frames, .value _ => readTokens tokens frames (.rest value)
  | .string value :: tokens, frames, .value _ =>
    readTokens tokens frames (.rest ((value.map Json.str).getD .unreadable))
  | .openBracket :: tokens, frames, .value _ =>
    readTokens tokens (.array [] :: frames) (.value true)
  | .openBrace :: tokens, frames, .value _ =>
    readTokens tokens frames (.name .empty true)
  | .closeBracket :: tokens, .array [] :: frames, .value true =>
    readTokens tokens frames (.rest (.arr []))
  | .string name :: tokens, frames, .name object _ =>
    readTokens tokens (.object object name :: frames) .colon
  | .closeBrace :: tokens, frames, .name object true =>
    readTokens tokens frames (.rest object.close)
  | .colon :: tokens, frames, .colon => readTokens tokens frames (.value false)
  | .comma :: tokens, .array items :: frames, .rest value =>
    readTokens tokens (.array (value :: items) :: frames) (.value false)
  | .closeBracket :: tokens, .array items :: frames, .rest value =>
    readTokens tokens frames (.rest (.arr (value :: items).reverse))
  | .comma :: tokens, .object object name :: frames, .rest value =>
    readTokens tokens frames (.name (object.put name value) false)
  | .closeBrace :: tokens, .object object name :: frames, .rest value =>
    readTokens tokens frames (.rest (object.put name value).close)
  | _, frames, expectation => ⟨breakOffAt frames expectation, false⟩

/-- What can be read of a text. -/
def Reading.ofText (text : String) : Reading :=
  readTokens (tokens text.toList) [] (.value false)

/-- The value of a JSON text, if the whole text is one. -/
def ofText? (text : String) : Option Json :=
  let reading := Reading.ofText text
  if reading.complete then some reading.value else none

end JourneyPlanner.Json
