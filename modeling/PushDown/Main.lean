import PushDown.CommandLine

/-! # The command

    Reads the arguments and the scenario file, and prints what
    `CommandLine.run` answers.
-/

namespace PushDown.CommandLine

/-- The text of a file, if it can be read. -/
def readText (path : String) : IO (Option String) := do
  try
    return some (← IO.FS.readFile path)
  catch _ =>
    return none

/-- Prints an outcome and answers the exit code that goes with it. -/
def report (outcome : Outcome) : IO UInt32 := do
  IO.print outcome.output
  IO.eprint outcome.errors
  return if outcome.success then 0 else 1

end PushDown.CommandLine

open PushDown.CommandLine in
/-- Runs the command on its arguments. -/
def main (args : List String) : IO UInt32 := do
  match Options.parse {} args with
  | .error message =>
    IO.eprintln message
    return 2
  | .ok options =>
    match options.scenario with
    | none =>
      IO.eprintln "error: the argument '--scenario <SCENARIO>' was not provided"
      return 2
    | some path => report (run options (← readText path))
