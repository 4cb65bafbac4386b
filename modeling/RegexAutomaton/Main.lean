import RegexAutomaton.CommandLine.Report

/-!
# The program

Reads the source that the arguments name, and prints how the run for them ends.
-/

set_option autoImplicit false

namespace RegexAutomaton

open CommandLine

def readFile? (name : String) : IO (Option String) :=
  try
    let text ← IO.FS.readFile name
    return some text
  catch _ => return none

/-- Prints what a run leaves behind, or fails as it does. -/
def finish (outcome : Outcome) : IO UInt32 := do
  match outcome.report? with
  | some report =>
      IO.print report.output
      IO.eprint report.errors
      return report.status.toUInt32
  | none => throw (IO.userError "the input cannot be read")

end RegexAutomaton

open RegexAutomaton CommandLine in
def main (arguments : List String) : IO UInt32 := do
  match sourceFor? arguments with
  | some .standardInput =>
      let input ← (← IO.getStdin).readToEnd
      finish (runWithin .standard arguments input fun _ => none)
  | some (.file name) =>
      let text? ← readFile? name
      finish (runWithin .standard arguments "" fun _ => text?)
  | none => finish (runWithin .standard arguments "" fun _ => none)
