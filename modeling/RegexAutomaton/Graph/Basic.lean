import RegexAutomaton.Symbol
import RegexAutomaton.Label

/-!
# Labeled multigraphs

A graph is an array of states, and a vertex is a position in it. A state has a label, which need not
be unique, and its transitions in the order in which they were added. Parallel transitions and
transitions from a state to itself are kept.
-/

set_option autoImplicit false

namespace RegexAutomaton

abbrev Vertex := Nat

structure Transition where
  symbol : Symbol
  target : Vertex
deriving DecidableEq, Repr

structure State where
  label : Label
  transitions : List Transition
deriving DecidableEq, Repr

structure Graph where
  states : Array State
deriving DecidableEq, Repr

namespace Graph

def empty : Graph := ⟨#[]⟩

/-- The number of states, which is also the vertex that the next state will get. -/
def size (graph : Graph) : Nat := graph.states.size

def label (graph : Graph) (vertex : Vertex) : Label :=
  match graph.states[vertex]? with
  | some state => state.label
  | none => 0

/-- The transitions that leave a vertex, oldest first. -/
def transitions (graph : Graph) (vertex : Vertex) : List Transition :=
  match graph.states[vertex]? with
  | some state => state.transitions
  | none => []

def addState (graph : Graph) (label : Label) : Graph :=
  ⟨graph.states.push ⟨label, []⟩⟩

def addTransition (graph : Graph) (source : Vertex) (transition : Transition) : Graph :=
  ⟨graph.states.modify source fun state =>
    { state with transitions := state.transitions ++ [transition] }⟩

def transitionCount (graph : Graph) : Nat :=
  graph.states.toList.foldr (fun state count => state.transitions.length + count) 0

variable (graph : Graph)

@[simp] theorem size_empty : empty.size = 0 := rfl

@[simp] theorem transitions_empty (vertex : Vertex) : empty.transitions vertex = [] := by
  simp [empty, transitions]

@[simp] theorem size_addState (label : Label) : (graph.addState label).size = graph.size + 1 := by
  simp [addState, size]

@[simp] theorem size_addTransition (source : Vertex) (transition : Transition) :
    (graph.addTransition source transition).size = graph.size := by
  simp [addTransition, size]

theorem label_addState (label : Label) (vertex : Vertex) :
    (graph.addState label).label vertex =
      if vertex = graph.size then label else graph.label vertex := by
  simp only [addState, Graph.label, size, Array.getElem?_push]
  by_cases new : vertex = graph.states.size <;> simp [new]

@[simp] theorem transitions_addState (label : Label) (vertex : Vertex) :
    (graph.addState label).transitions vertex = graph.transitions vertex := by
  simp only [addState, transitions, Array.getElem?_push]
  by_cases new : vertex = graph.states.size
  · subst new; simp
  · simp [new]

@[simp] theorem label_addTransition (source : Vertex) (transition : Transition) (vertex : Vertex) :
    (graph.addTransition source transition).label vertex = graph.label vertex := by
  simp only [addTransition, label, Array.getElem?_modify]
  by_cases here : source = vertex
  · subst here; cases graph.states[source]? <;> simp
  · simp [here]

/-- A new transition comes last at its source, and nothing else changes. -/
theorem transitions_addTransition (source : Vertex) (transition : Transition) (vertex : Vertex) :
    (graph.addTransition source transition).transitions vertex =
      if source = vertex ∧ vertex < graph.size then graph.transitions vertex ++ [transition]
      else graph.transitions vertex := by
  simp only [addTransition, transitions, size, Array.getElem?_modify]
  by_cases here : source = vertex
  · subst here
    by_cases inside : source < graph.states.size
    · simp [inside]
    · simp [inside]
  · simp [here]

end Graph

end RegexAutomaton
