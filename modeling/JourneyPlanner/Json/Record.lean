import JourneyPlanner.Fault
import JourneyPlanner.Json.Value

/-!
# Reading records

A record is written as an object, or as an array that lists its fields in
order. Its members are looked at in the order they are written: the first that
cannot be read decides the error, members of other names are skipped, and a
member that occurs twice is refused at its second occurrence. Only then are
fields without a member missed.
-/

namespace JourneyPlanner.Json

/-- Why a value was not read. -/
inductive ReadError where
  /-- It has another shape than the one asked for. -/
  | shape
  /-- It has the right shape, but stands for something its type refuses. -/
  | refused (message : String)
  /-- Reading it ran into a fault. -/
  | fault (cause : Fault)
  deriving DecidableEq, Repr

/-- A way to read a value of a type. -/
abbrev Decoder (α : Type) := Json → Except ReadError α

/-- The members of a record, in the order they are written. -/
abbrev Members := List (String × Json)

/-- Reads fields out of a record's members; an error carries the position of the member it
was found at. -/
def FieldReader (α : Type) : Type :=
  Members → Except (Nat × ReadError) α

/-- Reads nothing. -/
def FieldReader.pure {α : Type} (a : α) : FieldReader α :=
  fun _ => .ok a

/-- Reads two groups of fields; of two errors the one found at the earlier member counts. -/
def FieldReader.seq {α β : Type} (f : FieldReader (α → β)) (x : FieldReader α) : FieldReader β :=
  fun members =>
    match f members, x members with
    | .ok g, .ok a => .ok (g a)
    | .ok _, .error e => .error e
    | .error e, .ok _ => .error e
    | .error e, .error e' => .error (if e'.1 < e.1 then e' else e)

instance : Applicative FieldReader where
  pure := FieldReader.pure
  seq f x := FieldReader.seq f (x ())

/-- The values of the members of a name, with their positions; positions count from `start`. -/
def occurrences (name : String) : Nat → Members → List (Nat × Json)
  | _, [] => []
  | start, (other, value) :: rest =>
    if other = name then (start, value) :: occurrences name (start + 1) rest
    else occurrences name (start + 1) rest

/-- Reads the member of a name. -/
def member {α : Type} (name : String) (decode : Decoder α) (missing : Except ReadError α) :
    FieldReader α :=
  fun members =>
    match occurrences name 0 members with
    | [] => missing.mapError fun e => (members.length, e)
    | (position, value) :: others =>
      match decode value, others with
      | .error e, _ => .error (position, e)
      | .ok a, [] => .ok a
      | .ok _, (second, _) :: _ => .error (second, .shape)

/-- Reads a member that must be there. -/
def required {α : Type} (name : String) (decode : Decoder α) : FieldReader α :=
  member name decode (.error .shape)

/-- Reads a member that has a value of its own when it is not there. -/
def withDefault {α : Type} (name : String) (decode : Decoder α) (default : α) : FieldReader α :=
  member name decode (.ok default)

/-- Reads a value that may be `null`. -/
def nullable {α : Type} (decode : Decoder α) : Decoder (Option α)
  | .null => .ok none
  | json => (decode json).map some

/-- Reads a member that may be `null` or not there. -/
def optional {α : Type} (name : String) (decode : Decoder α) : FieldReader (Option α) :=
  withDefault name (nullable decode) none

/-- Reads a record whose fields have these names. An array gives the fields in order and may
end early, but not hold more than there are fields. Of an object that can be read no further
than some members, the first of these that cannot be read decides the error. -/
def record {α : Type} (names : List String) (fields : FieldReader α) : Decoder α
  | .obj members => (fields members).mapError Prod.snd
  | .cut members =>
    match fields members with
    | .error (_, e) => .error e
    | .ok _ => .error .shape
  | .arr items =>
    match fields (names.zip items) with
    | .error (_, e) => .error e
    | .ok a => if items.length ≤ names.length then .ok a else .error .shape
  | _ => .error .shape

/-- Reads a value and then puts it through a check of its own. -/
def checked {α β : Type} (decode : Decoder α) (check : α → Except ReadError β) : Decoder β :=
  fun json => (decode json).bind check

/-- The answer of a check whose reasons are told to the caller. -/
def orRefuse {ε α : Type} (message : ε → String) (answer : Except ε α) : Except ReadError α :=
  answer.mapError fun e => .refused (message e)

/-- Reads a string. -/
def string : Decoder String
  | .str value => .ok value
  | _ => .error .shape

/-- Reads a truth value. -/
def boolean : Decoder Bool
  | .bool value => .ok value
  | _ => .error .shape

/-- Reads a whole number within bounds. -/
def integerIn (lowest highest : Int) : Decoder Int
  | .int value => if lowest ≤ value ∧ value ≤ highest then .ok value else .error .shape
  | _ => .error .shape

/-- Reads a whole number of 32 bits. -/
def int32 : Decoder Int :=
  integerIn (-Int.pow 2 31) (Int.pow 2 31 - 1)

/-- Reads a whole number of 64 bits. -/
def int64 : Decoder Int :=
  integerIn (-Int.pow 2 63) (Int.pow 2 63 - 1)

/-- Reads a count of 64 bits. -/
def count64 : Decoder Nat := fun json =>
  (integerIn 0 (Int.pow 2 64 - 1) json).map Int.toNat

/-- Reads a number; a whole one is rounded to the nearest float. -/
def number : Decoder Float
  | .int value => .ok (Float.ofInt value)
  | .float value => .ok value
  | _ => .error .shape

/-- Reads the items of an array; the first that cannot be read decides the error. -/
def items {α : Type} (decode : Decoder α) : List Json → Except ReadError (List α)
  | [] => .ok []
  | json :: rest =>
    match decode json with
    | .error e => .error e
    | .ok a => (items decode rest).map (a :: ·)

/-- Reads an array. -/
def list {α : Type} (decode : Decoder α) : Decoder (List α)
  | .arr values => items decode values
  | _ => .error .shape

/-- Reads one of the words of a vocabulary; a word may also be written as the only member of
an object, with the value `null`. -/
def word {α : Type} (meaning : String → Option α) : Decoder α
  | .str value => (meaning value).elim (.error .shape) .ok
  | .obj [(value, .null)] => (meaning value).elim (.error .shape) .ok
  | _ => .error .shape

end JourneyPlanner.Json
