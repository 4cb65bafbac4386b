import RegexAutomaton.Automaton.Basic
import RegexAutomaton.Proofs.Construction.Growth
import RegexAutomaton.Proofs.Walk.Composition

/-!
# The states of an automaton

The walk of an automaton has one root and no filter. Its states are what the initial one reaches, that one first, and
the transitions that are followed out of a state are all that it has, in order.
-/

set_option autoImplicit false

namespace RegexAutomaton.Automaton

variable (automaton : Automaton)

theorem states_eq : automaton.states = automaton.graph.closure [automaton.initial] none := rfl

theorem mem_states {vertex : Vertex} :
    vertex ∈ automaton.states ↔ automaton.graph.Reaches none automaton.initial vertex := by
  rw [states_eq, Graph.mem_closure]
  simp only [List.mem_singleton, exists_eq_left]

theorem head?_states : automaton.states.head? = some automaton.initial := by
  obtain ⟨others, starts⟩ := automaton.graph.exists_closure_singleton none automaton.initial
  rw [states_eq, starts]
  rfl

theorem departures_walk {vertex : Vertex} (isState : vertex ∈ automaton.states) :
    Walk.departures vertex automaton.walk = automaton.graph.transitions vertex := by
  rw [walk, Graph.departures_depthFirst, ← states_eq, if_pos isState, List.filter_eq_self]
  intro transition _
  rfl

theorem source_mem_states {source : Vertex} {transition : Transition}
    (followed : .followed source transition ∈ automaton.walk) : source ∈ automaton.states :=
  ((automaton.graph.followed_mem_depthFirst [automaton.initial] none).1 followed).1

/-- The transitions of the states, each with the state that it leaves. -/
def arcs : List Arc :=
  automaton.states.flatMap fun vertex =>
    (automaton.graph.transitions vertex).map fun transition => ⟨vertex, transition.symbol, transition.target⟩

theorem mem_arcs {arc : Arc} :
    arc ∈ automaton.arcs ↔
      arc.source ∈ automaton.states ∧ arc.transition ∈ automaton.graph.transitions arc.source := by
  simp only [arcs, List.mem_flatMap, List.mem_map]
  constructor
  · rintro ⟨vertex, isState, transition, leaves, rfl⟩
    exact ⟨isState, leaves⟩
  · rintro ⟨isState, leaves⟩
    exact ⟨arc.source, isState, arc.transition, leaves, rfl⟩

end RegexAutomaton.Automaton
