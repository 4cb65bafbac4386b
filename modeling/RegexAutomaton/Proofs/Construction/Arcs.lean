import RegexAutomaton.Proofs.Automaton.States
import RegexAutomaton.Proofs.Construction.Liveness

/-!
# The transitions of an automaton

The transitions of the states of an automaton, gathered state by state, are those that its walk follows. For an
automaton that has been built they are also the arcs of the layout, since all of its states are reached, each as often
as it has been added. What a construction does arc by arc thus tells of the whole automaton.
-/

set_option autoImplicit false

namespace RegexAutomaton

namespace Arc

/-- What leaves a vertex, with that vertex. -/
theorem map_leaving (vertex : Nat) (arcs : List Arc) :
    ((leaving vertex arcs).map fun transition => (⟨vertex, transition.symbol, transition.target⟩ : Arc)) =
      arcs.filter fun arc => arc.source = vertex := by
  rw [leaving, List.map_map]
  conv_rhs => rw [← List.map_id (arcs.filter _)]
  apply List.map_congr_left
  intro arc member
  obtain ⟨-, here⟩ := List.mem_filter.1 member
  cases of_decide_eq_true here
  rfl

/-- Arcs put together by their sources, in any order of these. -/
theorem flatMap_filter_perm {vertices : List Nat} (distinct : vertices.Nodup) (arcs : List Arc) :
    (vertices.flatMap fun vertex => arcs.filter fun arc => arc.source = vertex).Perm
      (arcs.filter fun arc => arc.source ∈ vertices) := by
  induction vertices with
  | nil => simp
  | cons vertex rest ih =>
      obtain ⟨notAgain, restDistinct⟩ := List.nodup_cons.1 distinct
      have split := List.filter_append_perm (fun arc : Arc => decide (arc.source = vertex))
        (arcs.filter fun arc => arc.source ∈ vertex :: rest)
      have here : ((arcs.filter fun arc => arc.source ∈ vertex :: rest).filter fun arc => arc.source = vertex) =
          arcs.filter fun arc => arc.source = vertex := by
        rw [List.filter_filter]
        apply List.filter_congr
        intro arc _
        by_cases same : arc.source = vertex <;> simp [same]
      have elsewhere : ((arcs.filter fun arc => arc.source ∈ vertex :: rest).filter fun arc =>
            !decide (arc.source = vertex)) =
          arcs.filter fun arc => arc.source ∈ rest := by
        rw [List.filter_filter]
        apply List.filter_congr
        intro arc _
        by_cases same : arc.source = vertex
        · simp [same, notAgain]
        · simp [same]
      rw [here, elsewhere] at split
      rw [List.flatMap_cons]
      exact ((ih restDistinct).append_left _).trans split

end Arc

/-- The transition that an item of a walk follows, with the vertex that it leaves. -/
def Walk.Item.arc? : Walk.Item → Option Arc
  | discovered _ => none
  | followed vertex transition => some ⟨vertex, transition.symbol, transition.target⟩

namespace Automaton

variable (automaton : Automaton)

theorem filter_followed {vertex : Vertex} (isState : vertex ∈ automaton.states) :
    ((automaton.walk.filterMap Walk.Item.arc?).filter fun arc => arc.source = vertex) =
      (automaton.graph.transitions vertex).map fun transition => ⟨vertex, transition.symbol, transition.target⟩ := by
  rw [← automaton.departures_walk isState, Walk.departures, List.map_filterMap, List.filter_filterMap]
  congr 1
  funext item
  cases item with
  | discovered found => rfl
  | followed source transition =>
      by_cases here : source = vertex
      · subst here
        simp [Walk.Item.arc?, Walk.Item.departure?]
      · simp [Walk.Item.arc?, Walk.Item.departure?, here]

/-- The walk follows the transitions of all states, each once. -/
theorem followed_perm : (automaton.walk.filterMap Walk.Item.arc?).Perm automaton.arcs := by
  have distinct : automaton.states.Nodup := Graph.nodup_closure _ _ _
  have gathered := Arc.flatMap_filter_perm distinct (automaton.walk.filterMap Walk.Item.arc?)
  have all : ((automaton.walk.filterMap Walk.Item.arc?).filter fun arc => arc.source ∈ automaton.states) =
      automaton.walk.filterMap Walk.Item.arc? := by
    apply List.filter_eq_self.2
    intro arc member
    obtain ⟨item, inWalk, follows⟩ := List.mem_filterMap.1 member
    cases item with
    | discovered vertex => cases follows
    | followed vertex transition =>
        cases follows
        exact decide_eq_true (automaton.source_mem_states inWalk)
  rw [all, List.flatMap_congr fun vertex isState => automaton.filter_followed isState] at gathered
  exact gathered.symm

end Automaton

namespace Regex

variable {regex : Regex}

theorem ends_of_mem_arcs {arc : Arc} (member : arc ∈ regex.arcs 0 1) :
    arc.source < regex.build.count ∧ arc.target < regex.build.count := by
  have within := regex.arcs_within 0 1 arc member
  have source := within.source
  have target := within.target_le_accept
  have acceptEq := regex.accept_eq_states
  rw [count_build]
  omega

/-- The transitions of the states of an automaton are the arcs of its layout. -/
theorem arcs_build_perm (regex : Regex) : regex.build.automaton.arcs.Perm (regex.arcs 0 1) := by
  have distinct : regex.build.automaton.states.Nodup := Graph.nodup_closure _ _ _
  have gathered := Arc.flatMap_filter_perm distinct (regex.arcs 0 1)
  have all : ((regex.arcs 0 1).filter fun arc => arc.source ∈ regex.build.automaton.states) = regex.arcs 0 1 := by
    apply List.filter_eq_self.2
    intro arc member
    exact decide_eq_true ((regex.mem_states_build arc.source).2 (ends_of_mem_arcs member).1)
  rw [all] at gathered
  simpa only [Automaton.arcs, transitions_build, Arc.map_leaving] using gathered

theorem labels_of_mem_arcs {arc : Arc} (member : arc ∈ regex.arcs 0 1) :
    regex.build.automaton.graph.label arc.source = arc.source ∧
      regex.build.automaton.graph.label arc.target = arc.target :=
  ⟨regex.label_build (ends_of_mem_arcs member).1, regex.label_build (ends_of_mem_arcs member).2⟩

end Regex

end RegexAutomaton
