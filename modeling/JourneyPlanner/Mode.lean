/-!
# Travel modes

The ways a leg is travelled, and which of them a search may use.
-/

namespace JourneyPlanner

/-- The way a leg is travelled. -/
inductive Mode where
  | walk
  | bicycle
  | car
  | bus
  | tram
  | rail
  | subway
  | ferry
  deriving DecidableEq, Repr

namespace Mode

/-- Whether a mode is scheduled public transport. -/
def isTransit : Mode → Bool
  | .walk | .bicycle | .car => false
  | .bus | .tram | .rail | .subway | .ferry => true

/-- Whether a mode uses the street at any time. -/
def isOnStreet (mode : Mode) : Bool :=
  !mode.isTransit

/-- The word for a mode. -/
def text : Mode → String
  | .walk => "WALK"
  | .bicycle => "BICYCLE"
  | .car => "CAR"
  | .bus => "BUS"
  | .tram => "TRAM"
  | .rail => "RAIL"
  | .subway => "SUBWAY"
  | .ferry => "FERRY"

/-- Every mode of scheduled public transport. -/
def allTransit : List Mode :=
  [.bus, .tram, .rail, .subway, .ferry]

/-- Every mode. -/
def all : List Mode :=
  [.walk, .bicycle, .car] ++ allTransit

/-- The mode of a word. -/
def ofText? (word : String) : Option Mode :=
  all.find? fun mode => mode.text == word

/-- Each mode is read from its word. -/
theorem ofText?_text (mode : Mode) : ofText? mode.text = some mode := by
  cases mode <;> rfl

end Mode

/-- The modes a search may use; they are handed to the search engine unchanged. -/
structure ModeChoice where
  /-- On the way to the first stop. -/
  access : Mode
  /-- On the way from the last stop. -/
  egress : Mode
  /-- For a journey on the street alone; absent if there shall be none. -/
  direct : Option Mode
  /-- Between stops. -/
  transit : List Mode
  deriving DecidableEq, Repr

/-- Walking and every mode of public transport. -/
def ModeChoice.default : ModeChoice :=
  ⟨.walk, .walk, some .walk, Mode.allTransit⟩

end JourneyPlanner
