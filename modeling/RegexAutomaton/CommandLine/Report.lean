import RegexAutomaton.CommandLine.Run
import RegexAutomaton.CommandLine.Usage

/-!
# Reports of runs

A run leaves a report behind unless it is broken off, or nothing is said about it.
-/

set_option autoImplicit false

namespace RegexAutomaton.CommandLine

def Outcome.report? : Outcome → Option Report
  | refused error => some ⟨2, "", error.message ++ "\n"⟩
  | helped => some ⟨0, String.join (usage.map fun line => line ++ "\n"), ""⟩
  | finished report => some report
  | aborted _ => none
  | unsettled => none

end RegexAutomaton.CommandLine
