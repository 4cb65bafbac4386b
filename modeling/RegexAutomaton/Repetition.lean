/-!
# Repetitions

The three ways in which an expression is repeated. They differ in two things only: whether the body may be
taken again, and whether it may be left out.
-/

set_option autoImplicit false

namespace RegexAutomaton

inductive Repetition where
  | star
  | plus
  | optional
deriving DecidableEq, Repr

namespace Repetition

/-- Whether the body may be taken more than once. -/
def loops : Repetition → Bool
  | star => true
  | plus => true
  | optional => false

/-- Whether the body may be left out. -/
def skips : Repetition → Bool
  | star => true
  | plus => false
  | optional => true

end Repetition

end RegexAutomaton
