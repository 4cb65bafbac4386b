import RegexAutomaton.Automaton.Basic
import RegexAutomaton.Text.Lines

/-!
# The mesh of an automaton

The mesh shows an automaton as lines of text. The first one names the initial state. The others are the
lines of the transitions, sorted by code point, those into the accept state last and with a mark at their
end. Labels are padded to the width of the greatest one, so that the lines stand in the order of the labels.

A symbol may hold line breaks. The lines are cut there too, and each piece is sorted on its own.
-/

set_option autoImplicit false

namespace RegexAutomaton.Automaton

variable (automaton : Automaton)

/-- The number of characters of the greatest label. -/
def labelWidth : Nat :=
  match (automaton.states.map automaton.graph.label).max? with
  | some label => label.decimal.length
  | none => 0

def unsortedLines : List String :=
  let width := automaton.labelWidth
  let whole := ("--> " ++ (automaton.graph.label automaton.initial).padded width) ::
    automaton.states.flatMap (automaton.graph.transitionLines width)
  Text.lines (String.join (whole.map fun line => line ++ "\n"))

/-- What the lines into the accept state end with. -/
def acceptSuffix : List Char :=
  ' ' :: ((automaton.graph.label automaton.accept).padded automaton.labelWidth).toList

def sortLines (lines : List String) : List String :=
  lines.mergeSort fun first second => decide (first ≤ second)

def meshLines : List String :=
  match automaton.unsortedLines with
  | [] => []
  | first :: rest =>
      let suffix := automaton.acceptSuffix
      let (entering, others) := rest.partition fun line => suffix.isSuffixOf line.toList
      first :: sortLines others ++ sortLines (entering.map fun line => line ++ " -->")

def mesh : String :=
  String.join (automaton.meshLines.map fun line => line ++ "\n")

end RegexAutomaton.Automaton
