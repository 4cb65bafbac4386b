import Mathlib.Algebra.BigOperators.Fin
import Mathlib.Algebra.Order.BigOperators.Group.Finset
import RegexAutomaton.Graph.Walk

/-!
# Depth-first search by recursion

The search that a walk stands for: the transitions of a vertex in order, and at each new target the whole
search from there before the next transition. The set of vertices seen so far is handed on from one
transition to the next and from one root to the next. Every recursive call has fewer transitions left to
follow: those still pending and those of the vertices not seen.
-/

set_option autoImplicit false

namespace RegexAutomaton

instance : HasSubset VertexSet :=
  ⟨fun first second => ∀ vertex ∈ first, vertex ∈ second⟩

namespace VertexSet

variable {first second third : VertexSet}

protected theorem subset_refl (set : VertexSet) : set ⊆ set :=
  fun _ member => member

protected theorem subset_trans (sub : first ⊆ second) (more : second ⊆ third) : first ⊆ third :=
  fun vertex member => more vertex (sub vertex member)

theorem subset_insert (set : VertexSet) (vertex : Vertex) : set ⊆ set.insert vertex :=
  fun _ member => (mem_insert _ _ _).2 (.inr member)

end VertexSet

namespace Graph

variable (graph : Graph)

/-- The number of transitions that leave vertices outside a set. -/
def unseenCount (seen : VertexSet) : Nat :=
  ∑ vertex ∈ Finset.range graph.size, if vertex ∈ seen then 0 else (graph.transitions vertex).length

theorem transitions_of_size_le {vertex : Nat} (outside : graph.size ≤ vertex) :
    graph.transitions vertex = [] := by
  simp only [transitions, size] at outside ⊢
  rw [Array.getElem?_eq_none outside]

theorem unseenCount_mono {seen more : VertexSet} (sub : seen ⊆ more) :
    graph.unseenCount more ≤ graph.unseenCount seen := by
  refine Finset.sum_le_sum fun vertex _ => ?_
  by_cases member : vertex ∈ seen
  · rw [if_pos member, if_pos (sub vertex member)]
  · rw [if_neg member]
    split
    · exact Nat.zero_le _
    · exact Nat.le_refl _

/-- A new vertex takes its transitions out of the count. -/
theorem unseenCount_insert {seen : VertexSet} {vertex : Nat} (new : vertex ∉ seen) :
    graph.unseenCount (seen.insert vertex) + (graph.transitions vertex).length =
      graph.unseenCount seen := by
  by_cases inside : vertex < graph.size
  · have member : vertex ∈ Finset.range graph.size := Finset.mem_range.2 inside
    simp only [unseenCount]
    rw [← Finset.sum_erase_add _ _ member, ← Finset.sum_erase_add _ _ member, if_neg new,
      if_pos ((VertexSet.mem_insert _ _ _).2 (.inl rfl)), Nat.add_zero]
    congr 1
    refine Finset.sum_congr rfl fun other otherMember => ?_
    have different : other ≠ vertex := (Finset.mem_erase.1 otherMember).1
    simp [different]
  · rw [graph.transitions_of_size_le (Nat.le_of_not_lt inside), List.length_nil, Nat.add_zero]
    refine Finset.sum_congr rfl fun other otherMember => ?_
    have different : other ≠ vertex := by
      have below := Finset.mem_range.1 otherMember
      omega
    simp [different]

theorem transitionCount_eq :
    graph.transitionCount = (graph.states.toList.map fun state => state.transitions.length).sum := by
  rw [transitionCount, List.sum_eq_foldr, List.foldr_map]

theorem unseenCount_empty : graph.unseenCount VertexSet.empty = graph.transitionCount := by
  rw [transitionCount_eq, unseenCount, Finset.sum_range, ← Fin.sum_univ_fun_getElem]
  refine Finset.sum_congr rfl fun vertex _ => ?_
  have inside : vertex.1 < graph.states.size := vertex.2
  simp [transitions, inside]

end Graph

/-- The items of a search that starts with some vertices seen, and the vertices seen at its end. -/
structure Exploration (seen : VertexSet) where
  items : List Walk.Item
  found : VertexSet
  grows : seen ⊆ found

namespace Graph

/-- The search along the pending transitions of a vertex. -/
def explore (graph : Graph) (filter : Option Symbol) (source : Vertex) (pending : List Transition)
    (seen : VertexSet) : Exploration seen :=
  match pending with
  | [] => ⟨[], seen, seen.subset_refl⟩
  | transition :: rest =>
      if transition.passes filter then
        if _ : transition.target ∉ seen then
          let inner := graph.explore filter transition.target (graph.transitions transition.target)
            (seen.insert transition.target)
          let after := graph.explore filter source rest inner.found
          ⟨.followed source transition :: .discovered transition.target ::
              (inner.items ++ after.items),
            after.found,
            VertexSet.subset_trans (seen.subset_insert _)
              (VertexSet.subset_trans inner.grows after.grows)⟩
        else
          let after := graph.explore filter source rest seen
          ⟨.followed source transition :: after.items, after.found, after.grows⟩
      else graph.explore filter source rest seen
termination_by graph.unseenCount seen + pending.length
decreasing_by
  · have counted := graph.unseenCount_insert ‹transition.target ∉ seen›
    simp only [List.length_cons]
    omega
  · exact Nat.add_lt_add_of_le_of_lt
      (graph.unseenCount_mono (VertexSet.subset_trans (seen.subset_insert _) (Exploration.grows _)))
      (Nat.lt_succ_self _)
  · simp only [List.length_cons]
    omega
  · simp only [List.length_cons]
    omega

variable (graph : Graph) (source : Vertex) (rest : List Transition)
variable {filter : Option Symbol} {transition : Transition} {seen : VertexSet}

theorem explore_nil : graph.explore filter source [] seen = ⟨[], seen, seen.subset_refl⟩ := by
  rw [explore]

/-- A transition that does not pass is left out. -/
theorem explore_cons_of_not_passes (blocked : ¬transition.passes filter) :
    graph.explore filter source (transition :: rest) seen = graph.explore filter source rest seen := by
  rw [explore, if_neg blocked]

theorem explore_append_of_not_passes {skipped : List Transition}
    (blocked : ∀ transition ∈ skipped, ¬transition.passes filter) :
    graph.explore filter source (skipped ++ rest) seen = graph.explore filter source rest seen := by
  induction skipped with
  | nil => rfl
  | cons transition skipped ih =>
      rw [List.cons_append, explore_cons_of_not_passes _ _ _ (blocked transition (by simp))]
      exact ih fun other member => blocked other (by simp [member])

/-- A search without a transition that passes ends at once. -/
theorem explore_of_not_passes {pending : List Transition}
    (blocked : ∀ transition ∈ pending, ¬transition.passes filter) :
    graph.explore filter source pending seen = ⟨[], seen, seen.subset_refl⟩ := by
  rw [← List.append_nil pending, explore_append_of_not_passes graph source [] blocked, explore_nil]

/-- A transition to a known vertex is followed and no more. -/
theorem explore_cons_of_mem (passes : transition.passes filter) (known : transition.target ∈ seen) :
    (graph.explore filter source (transition :: rest) seen).items =
        .followed source transition :: (graph.explore filter source rest seen).items ∧
      (graph.explore filter source (transition :: rest) seen).found =
        (graph.explore filter source rest seen).found := by
  rw [explore, if_pos passes, dif_neg (not_not.2 known)]
  exact ⟨rfl, rfl⟩

/-- A transition to a new vertex is followed, and the search from there comes before the rest. -/
theorem explore_cons_of_not_mem (passes : transition.passes filter)
    (new : transition.target ∉ seen) :
    let inner := graph.explore filter transition.target (graph.transitions transition.target)
      (seen.insert transition.target)
    (graph.explore filter source (transition :: rest) seen).items =
        .followed source transition :: .discovered transition.target ::
          (inner.items ++ (graph.explore filter source rest inner.found).items) ∧
      (graph.explore filter source (transition :: rest) seen).found =
        (graph.explore filter source rest inner.found).found := by
  rw [explore, if_pos passes, dif_pos new]
  exact ⟨rfl, rfl⟩

/-- The search from each of some roots in turn, but for those that have been seen. -/
def search (graph : Graph) (filter : Option Symbol) : List Vertex → VertexSet → List Walk.Item
  | [], _ => []
  | root :: rest, seen =>
      if root ∈ seen then graph.search filter rest seen
      else
        let inner := graph.explore filter root (graph.transitions root) (seen.insert root)
        .discovered root :: (inner.items ++ graph.search filter rest inner.found)

/-- The items of a depth-first search, found by recursion. -/
def depthFirstSearch (graph : Graph) (roots : List Vertex) (filter : Option Symbol) :
    List Walk.Item :=
  graph.search filter roots VertexSet.empty

/-! ## The number of items -/

/-- A search follows each transition once, and after that discovers at most one vertex. -/
theorem length_explore (graph : Graph) (filter : Option Symbol) (source : Vertex)
    (pending : List Transition) (seen : VertexSet) :
    (graph.explore filter source pending seen).items.length +
        2 * graph.unseenCount (graph.explore filter source pending seen).found ≤
      2 * pending.length + 2 * graph.unseenCount seen := by
  induction bound : graph.unseenCount seen + pending.length using Nat.strong_induction_on
    generalizing source pending seen with
  | _ bound ih =>
      cases pending with
      | nil => simp [explore_nil]
      | cons transition rest =>
          rw [List.length_cons] at bound ⊢
          by_cases passes : transition.passes filter
          · by_cases known : transition.target ∈ seen
            · obtain ⟨itemsEq, foundEq⟩ :=
                graph.explore_cons_of_mem source rest passes known
              rw [itemsEq, foundEq, List.length_cons]
              have restBound := ih _ (by omega) source rest seen rfl
              omega
            · obtain ⟨itemsEq, foundEq⟩ :=
                graph.explore_cons_of_not_mem source rest passes known
              rw [itemsEq, foundEq, List.length_cons, List.length_cons, List.length_append]
              have counted := graph.unseenCount_insert known
              have innerBound := ih _ (by omega) transition.target
                (graph.transitions transition.target) (seen.insert transition.target) rfl
              generalize graph.explore filter transition.target
                (graph.transitions transition.target) (seen.insert transition.target) = inner
                at innerBound ⊢
              have fewer := graph.unseenCount_mono inner.grows
              have restBound := ih _ (by omega) source rest inner.found rfl
              omega
          · rw [graph.explore_cons_of_not_passes source rest passes]
            have restBound := ih _ (by omega) source rest seen rfl
            omega

theorem length_search (graph : Graph) (filter : Option Symbol) (roots : List Vertex)
    (seen : VertexSet) :
    (graph.search filter roots seen).length ≤ roots.length + 2 * graph.unseenCount seen := by
  induction roots generalizing seen with
  | nil => simp [search]
  | cons root rest ih =>
      rw [search, List.length_cons]
      by_cases known : root ∈ seen
      · rw [if_pos known]
        have restBound := ih seen
        omega
      · rw [if_neg known, List.length_cons, List.length_append]
        have counted := graph.unseenCount_insert known
        have innerBound := graph.length_explore filter root (graph.transitions root)
          (seen.insert root)
        have restBound := ih (graph.explore filter root (graph.transitions root)
          (seen.insert root)).found
        omega

end Graph

end RegexAutomaton
