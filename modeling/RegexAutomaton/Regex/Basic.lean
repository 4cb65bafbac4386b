import RegexAutomaton.Repetition
import RegexAutomaton.Symbol

/-!
# Regular expressions

Well-formed expressions: a letter is never void, and a choice or a sequence has at least one part.
-/

set_option autoImplicit false

namespace RegexAutomaton

/-- A regular expression over letters. The parts of a choice and of a sequence are its first one and the
others, in order. -/
inductive Regex where
  | empty
  | text (letter : Letter)
  | alternation (first : Regex) (others : List Regex)
  | sequence (first : Regex) (others : List Regex)
  | repetition (mode : Repetition) (body : Regex)

end RegexAutomaton
