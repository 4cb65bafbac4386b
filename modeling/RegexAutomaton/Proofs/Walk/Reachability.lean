import RegexAutomaton.Proofs.Automaton.Path

/-!
# Reachable vertices

A vertex is reached from another one along a path of transitions that all pass the filter of a walk, possibly the
empty path. A set of vertices that no passing transition leaves holds everything reached from its members.
-/

set_option autoImplicit false

namespace RegexAutomaton.Graph

/-- Whether some path of passing transitions, which may be empty, leads from one vertex to the other. -/
def Reaches (graph : Graph) (filter : Option Symbol) (source target : Vertex) : Prop :=
  ∃ path, graph.IsPath source path target ∧ ∀ transition ∈ path, transition.passes filter

/-- No passing transition leaves the set. -/
def Closed (graph : Graph) (filter : Option Symbol) (region : Vertex → Prop) : Prop :=
  ∀ source, region source → ∀ transition ∈ graph.transitions source,
    transition.passes filter → region transition.target

variable {graph : Graph} {filter : Option Symbol} {source middle target : Vertex}

theorem reaches_refl (vertex : Vertex) : graph.Reaches filter vertex vertex :=
  ⟨[], rfl, by simp⟩

theorem reaches_of_mem {transition : Transition} (member : transition ∈ graph.transitions source)
    (passes : transition.passes filter) : graph.Reaches filter source transition.target :=
  ⟨[transition], isPath_single member, by simpa using passes⟩

theorem Reaches.trans (first : graph.Reaches filter source middle)
    (rest : graph.Reaches filter middle target) : graph.Reaches filter source target := by
  obtain ⟨firstPath, firstIsPath, firstPasses⟩ := first
  obtain ⟨restPath, restIsPath, restPasses⟩ := rest
  refine ⟨firstPath ++ restPath, isPath_append firstIsPath restIsPath, ?_⟩
  intro transition member
  rcases List.mem_append.1 member with early | late
  · exact firstPasses transition early
  · exact restPasses transition late

theorem closed_reaches (source : Vertex) : graph.Closed filter (graph.Reaches filter source) := by
  intro vertex reached transition member passes
  exact reached.trans (reaches_of_mem member passes)

theorem Reaches.mem_of_closed {region : Vertex → Prop} (reached : graph.Reaches filter source target)
    (closed : graph.Closed filter region) (inside : region source) : region target := by
  obtain ⟨path, isPath, passes⟩ := reached
  induction path generalizing source with
  | nil =>
      obtain rfl : source = target := isPath
      exact inside
  | cons transition rest ih =>
      apply ih _ isPath.2
      · intro other member
        exact passes other (List.mem_cons_of_mem _ member)
      · exact closed source inside transition isPath.1 (passes transition List.mem_cons_self)

end RegexAutomaton.Graph
