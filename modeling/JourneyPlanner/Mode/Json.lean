import JourneyPlanner.Json.Record
import JourneyPlanner.Mode

/-!
# Modes as JSON

A mode is its word. In a choice of modes, `null` as the direct mode stands for
no journey on the street alone, which differs from leaving the member out.
-/

namespace JourneyPlanner

open Json

/-- A mode as its word. -/
def Mode.toJson (mode : Mode) : Json :=
  .str mode.text

/-- Reads a mode. -/
def Mode.ofJson : Decoder Mode :=
  word Mode.ofText?

/-- A choice of modes as an object. -/
def ModeChoice.toJson (modes : ModeChoice) : Json :=
  .obj
    [("access", modes.access.toJson), ("egress", modes.egress.toJson),
      ("direct", .ofOption Mode.toJson modes.direct),
      ("transit", .arr (modes.transit.map Mode.toJson))]

/-- Reads a choice of modes; members that are not there have their default. -/
def ModeChoice.ofJson : Decoder ModeChoice :=
  record ["access", "egress", "direct", "transit"]
    (ModeChoice.mk <$> withDefault "access" Mode.ofJson ModeChoice.default.access <*>
      withDefault "egress" Mode.ofJson ModeChoice.default.egress <*>
      withDefault "direct" (nullable Mode.ofJson) ModeChoice.default.direct <*>
      withDefault "transit" (list Mode.ofJson) ModeChoice.default.transit)

end JourneyPlanner
