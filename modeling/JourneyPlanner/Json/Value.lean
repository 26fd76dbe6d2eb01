import JourneyPlanner.Decimal.Binary

/-!
# JSON values

A JSON value keeps the order of an object's members, and keeps whole numbers
apart from decimals, since an integer member refuses `1.0`. What a text holds in
front of a mistake is a value as well, one that no reading accepts: what is read
first decides the error.
-/

namespace JourneyPlanner

/-- A JSON value. -/
inductive Json where
  | null
  | bool (value : Bool)
  /-- A whole number of at most 64 bits. -/
  | int (value : Int)
  /-- A number written with a point or a power of ten, or one too large for 64 bits. -/
  | float (value : Float)
  | str (value : String)
  | arr (items : List Json)
  /-- The members in the order they are written, repeated names included. -/
  | obj (members : List (String × Json))
  /-- An object that can be read no further than these members, since its text breaks off
  behind them or the next name stands for no text: it may be skipped, but not read. -/
  | cut (members : List (String × Json))
  /-- What stands for no value, such as half a surrogate pair: it may be skipped, but not
  read. -/
  | unreadable

/-- The value written for a float; JSON has no number for one that is not finite. -/
def Json.ofFloat (x : Float) : Json :=
  if Decimal.isFinite x then .float x else .null

/-- The value written for an optional member: `null` stands for an absent one. -/
def Json.ofOption {α : Type} (encode : α → Json) : Option α → Json
  | none => .null
  | some a => encode a

/-- A member that is left out of its object when it has no value. -/
def Json.optionalMember {α : Type} (name : String) (encode : α → Json) :
    Option α → List (String × Json)
  | none => []
  | some a => [(name, encode a)]

end JourneyPlanner
