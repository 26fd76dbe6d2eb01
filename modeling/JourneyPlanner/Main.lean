import JourneyPlanner.Scenario

/-!
# The command line

Routes the scenario file named by the first argument and prints the response as
indented JSON.
-/

open JourneyPlanner in
/-- Runs the program. -/
def main (args : List String) : IO UInt32 := do
  let report ←
    match args with
    | [] => pure Report.usage
    | path :: _ =>
      try
        pure (Report.ofFile (some (← IO.FS.readFile path)))
      catch _ =>
        pure (Report.ofFile none)
  IO.print report.output
  IO.eprint report.explanation
  return report.exitCode.toUInt32
