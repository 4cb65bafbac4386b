import RegexAutomaton.Graph.Basic

/-!
# Graphs under construction

A builder adds states, labeled 0, 1, 2 and so on, and transitions to a graph. It may start with a graph
that has states already.
-/

set_option autoImplicit false

namespace RegexAutomaton

/-- A graph, and how many states have been allocated in it. -/
structure Builder where
  graph : Graph
  count : Nat
deriving DecidableEq, Repr

namespace Builder

def empty : Builder := ⟨Graph.empty, 0⟩

/-- Adds a state labeled with the number of states allocated before it. -/
def allocate (builder : Builder) : Vertex × Builder :=
  (builder.graph.size, ⟨builder.graph.addState builder.count, builder.count + 1⟩)

def link (builder : Builder) (source : Vertex) (symbol : Symbol) (target : Vertex) : Builder :=
  { builder with graph := builder.graph.addTransition source ⟨symbol, target⟩ }

def linkAll (builder : Builder) (sources : List Vertex) (target : Vertex) : Builder :=
  sources.foldl (fun builder source => builder.link source Symbol.epsilon target) builder

end Builder

end RegexAutomaton
