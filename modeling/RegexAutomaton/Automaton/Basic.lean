import RegexAutomaton.Graph.Walk
import RegexAutomaton.Graph.Text

/-!
# Automata

An automaton is a graph with an initial and an accept state. Its states are those that can be reached from
the initial one, in the order in which a depth-first walk discovers them.
-/

set_option autoImplicit false

namespace RegexAutomaton

structure Automaton where
  /-- What kind of automaton it is shown as. -/
  name : String
  graph : Graph
  initial : Vertex
  accept : Vertex
deriving DecidableEq, Repr

namespace Automaton

variable (automaton : Automaton)

def walk : List Walk.Item :=
  automaton.graph.depthFirst [automaton.initial] none

def states : List Vertex :=
  automaton.walk.filterMap Walk.Item.discovery?

def state? (label : Label) : Option Vertex :=
  automaton.states.find? fun vertex => automaton.graph.label vertex == label

def state (label : Label) : Except Label Vertex :=
  match automaton.state? label with
  | some vertex => .ok vertex
  | none => .error label

/-- The number of states that can be reached, and of their transitions. -/
def size : Nat × Nat :=
  let states := automaton.states
  (states.length,
    states.foldr (fun vertex count => (automaton.graph.transitions vertex).length + count) 0)

def summary : String :=
  "<" ++ automaton.name ++ " on " ++ automaton.graph.stateName automaton.initial ++ " to " ++
    automaton.graph.stateName automaton.accept ++ ">"

end Automaton

end RegexAutomaton
