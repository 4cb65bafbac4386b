import RegexAutomaton.Proofs.Walk.Composition

/-!
# What a walk depends on

A walk depends on the transitions that pass its filter and leave the vertices it discovers, and on nothing else in the
graph. So a walk along one symbol is the unfiltered walk over the graph that has no other transitions, and a transition
that is added to a graph changes a walk only if it passes and its source is discovered. Then everything behind its
target is discovered as well.
-/

set_option autoImplicit false

namespace RegexAutomaton

theorem Transition.passes_some_iff {transition : Transition} {symbol : Symbol} :
    transition.passes (some symbol) ↔ transition.symbol = symbol :=
  beq_iff_eq

theorem Transition.passes_iff {transition : Transition} {filter : Option Symbol} :
    transition.passes filter ↔ ∀ symbol, filter = some symbol → transition.symbol = symbol := by
  cases filter with
  | none => simp [passes]
  | some symbol => simp [passes_some_iff]

namespace Graph

open Walk

/-- The transitions that a walk with the filter follows out of a vertex. -/
def passing (graph : Graph) (filter : Option Symbol) (vertex : Vertex) : List Transition :=
  (graph.transitions vertex).filter (Transition.passes · filter)

variable {graph other : Graph} {filter otherFilter : Option Symbol} {region : Vertex → Prop}

/-! ## Graphs that agree where a walk goes -/

/-- Two searches are the same when the graphs agree on a closed region in which the first one starts, and the pending
transitions agree up to blocked ones. -/
theorem explore_congr (closed : graph.Closed filter region)
    (agree : ∀ vertex, region vertex → graph.passing filter vertex = other.passing otherFilter vertex)
    (source : Vertex) (pending : List Transition) (seen : VertexSet) (otherPending : List Transition)
    (targets : ∀ transition ∈ pending, transition.passes filter → region transition.target)
    (same : pending.filter (Transition.passes · filter) = otherPending.filter (Transition.passes · otherFilter)) :
    (graph.explore filter source pending seen).items =
        (other.explore otherFilter source otherPending seen).items ∧
      (graph.explore filter source pending seen).found =
        (other.explore otherFilter source otherPending seen).found := by
  induction source, pending, seen using explore_induction graph filter generalizing otherPending with
  | nil source seen =>
      have blocked : ∀ transition ∈ otherPending, ¬transition.passes otherFilter :=
        List.filter_eq_nil_iff.1 same.symm
      rw [explore_nil, other.explore_of_not_passes source blocked]
      exact ⟨rfl, rfl⟩
  | blocked source transition rest seen isBlocked ih =>
      rw [List.forall_mem_cons] at targets
      rw [List.filter_cons, if_neg isBlocked] at same
      rw [graph.explore_cons_of_not_passes source rest isBlocked]
      exact ih otherPending targets.2 same
  | known source transition rest seen passes isKnown ih =>
      rw [List.forall_mem_cons] at targets
      rw [List.filter_cons, if_pos passes] at same
      obtain ⟨skipped, otherRest, rfl, blocked, otherPasses, restSame⟩ := List.filter_eq_cons_iff.1 same.symm
      obtain ⟨restItems, restFound⟩ := ih otherRest targets.2 restSame.symm
      obtain ⟨itemsEq, foundEq⟩ := graph.explore_cons_of_mem source rest passes isKnown
      obtain ⟨otherItemsEq, otherFoundEq⟩ := other.explore_cons_of_mem source otherRest otherPasses isKnown
      rw [other.explore_append_of_not_passes source _ blocked, itemsEq, foundEq, otherItemsEq, otherFoundEq,
        restItems, restFound]
      exact ⟨rfl, rfl⟩
  | new source transition rest seen passes isNew innerHolds restHolds =>
      rw [List.forall_mem_cons] at targets
      rw [List.filter_cons, if_pos passes] at same
      obtain ⟨skipped, otherRest, rfl, blocked, otherPasses, restSame⟩ := List.filter_eq_cons_iff.1 same.symm
      -- the target lies in the region, so the graphs agree on what leaves it
      have reached := targets.1 passes
      obtain ⟨innerItems, innerFound⟩ :=
        innerHolds (other.transitions transition.target) (closed _ reached) (agree _ reached)
      obtain ⟨restItems, restFound⟩ := restHolds otherRest targets.2 restSame.symm
      obtain ⟨itemsEq, foundEq⟩ := graph.explore_cons_of_not_mem source rest passes isNew
      obtain ⟨otherItemsEq, otherFoundEq⟩ := other.explore_cons_of_not_mem source otherRest otherPasses isNew
      rw [other.explore_append_of_not_passes source _ blocked, itemsEq, foundEq, otherItemsEq, otherFoundEq,
        ← innerFound, innerItems, restItems, restFound]
      exact ⟨rfl, rfl⟩

theorem search_congr (closed : graph.Closed filter region)
    (agree : ∀ vertex, region vertex → graph.passing filter vertex = other.passing otherFilter vertex)
    (roots : List Vertex) (seen : VertexSet) (inside : ∀ root ∈ roots, region root) :
    graph.search filter roots seen = other.search otherFilter roots seen := by
  induction roots generalizing seen with
  | nil => rfl
  | cons root rest ih =>
      rw [List.forall_mem_cons] at inside
      by_cases known : root ∈ seen
      · rw [search_cons_of_mem graph filter known, search_cons_of_mem other otherFilter known]
        exact ih seen inside.2
      · obtain ⟨itemsEq, foundEq⟩ := explore_congr closed agree root (graph.transitions root) (seen.insert root)
          (other.transitions root) (closed root inside.1) (agree root inside.1)
        rw [search_cons_of_not_mem graph filter known, search_cons_of_not_mem other otherFilter known,
          itemsEq, foundEq, ih _ inside.2]

variable {roots : List Vertex}

/-- Graphs that agree on what a walk follows have the same walk. -/
theorem depthFirst_congr
    (agree : ∀ vertex ∈ graph.closure roots filter, graph.passing filter vertex = other.passing otherFilter vertex) :
    graph.depthFirst roots filter = other.depthFirst roots otherFilter := by
  rw [depthFirst_eq, depthFirst_eq]
  exact search_congr (graph.closed_closure roots filter) agree roots VertexSet.empty
    fun root member => graph.mem_closure_of_mem roots filter member

/-! ## Walks along one symbol -/

/-- The graph without the transitions that carry another symbol. -/
def only (graph : Graph) (symbol : Symbol) : Graph :=
  ⟨graph.states.map fun state =>
    { state with transitions := state.transitions.filter fun transition => transition.symbol = symbol }⟩

theorem transitions_only (graph : Graph) (symbol : Symbol) (vertex : Vertex) :
    (graph.only symbol).transitions vertex =
      (graph.transitions vertex).filter fun transition => transition.symbol = symbol := by
  simp only [transitions, only, Array.getElem?_map]
  cases graph.states[vertex]? <;> rfl

theorem passing_none (graph : Graph) (vertex : Vertex) : graph.passing none vertex = graph.transitions vertex :=
  List.filter_true _

theorem passing_some (graph : Graph) (symbol : Symbol) (vertex : Vertex) :
    graph.passing (some symbol) vertex = (graph.only symbol).passing none vertex := by
  rw [passing_none, transitions_only]
  rfl

/-- A walk along a symbol, be it the void one, is the walk over the graph that has no other transitions. The walks answer
alike until they end, nothing but the symbol is followed, and it is the walk along all transitions only if these
carry no other symbol. -/
theorem walk_along_symbol (graph : Graph) (roots : List Vertex) (symbol : Symbol) :
    let items := graph.depthFirst roots (some symbol)
    items = (graph.only symbol).depthFirst roots none ∧
      (∃ ended, (Walk.start roots (some symbol)).Yields graph (items.map some ++ [none]) ended) ∧
      (∃ ended, (Walk.start roots none).Yields (graph.only symbol) (items.map some ++ [none]) ended) ∧
      (∀ source transition, .followed source transition ∈ items → transition.symbol = symbol) ∧
      (items = graph.depthFirst roots none ↔
        ∀ vertex ∈ graph.closure roots none, ∀ transition ∈ graph.transitions vertex, transition.symbol = symbol) := by
  intro items
  have restricted : items = (graph.only symbol).depthFirst roots none :=
    depthFirst_congr fun vertex _ => graph.passing_some symbol vertex
  have carries : ∀ source transition, .followed source transition ∈ items → transition.symbol = symbol := by
    intro source transition member
    exact Transition.passes_some_iff.1 ((graph.followed_mem_depthFirst roots (some symbol)).1 member).2.2
  refine ⟨restricted, graph.yields_depthFirst roots (some symbol), ?_, carries, ?_, ?_⟩
  · rw [restricted]
    exact (graph.only symbol).yields_depthFirst roots none
  · intro unfiltered vertex discovered transition member
    apply carries vertex transition
    rw [unfiltered]
    exact (graph.followed_mem_depthFirst roots none).2 ⟨discovered, member, rfl⟩
  · intro uniform
    refine (depthFirst_congr fun vertex discovered => ?_).symm
    rw [passing_none, passing_some, passing_none, transitions_only]
    exact (List.filter_eq_self.2 fun transition member => decide_eq_true (uniform vertex discovered transition member)).symm

/-! ## One more transition -/

section Addition

variable {source vertex : Vertex} {transition : Transition}

theorem mem_transitions_addTransition {leaving : Transition} :
    leaving ∈ (graph.addTransition source transition).transitions vertex ↔
      leaving ∈ graph.transitions vertex ∨ (source = vertex ∧ vertex < graph.size) ∧ leaving = transition := by
  rw [transitions_addTransition]
  by_cases here : source = vertex ∧ vertex < graph.size
  · rw [if_pos here, List.mem_append, List.mem_singleton]
    simp only [here, and_self, true_and]
  · rw [if_neg here]
    simp only [here, false_and, or_false]

/-- The whole walk stays as it is when the new transition is not one that it would follow. -/
theorem depthFirst_addTransition (apart : ¬transition.passes filter ∨ source ∉ graph.closure roots filter) :
    (graph.addTransition source transition).depthFirst roots filter = graph.depthFirst roots filter := by
  refine (depthFirst_congr fun vertex discovered => ?_).symm
  rw [passing, passing, transitions_addTransition]
  by_cases here : source = vertex ∧ vertex < graph.size
  · have blocked := apart.resolve_right (not_not.2 (here.1 ▸ discovered))
    rw [if_pos here, List.filter_append, List.filter_cons, if_neg blocked, List.filter_nil, List.append_nil]
  · rw [if_neg here]

theorem closure_subset_addTransition (roots : List Vertex) (known : vertex ∈ graph.closure roots filter) :
    vertex ∈ (graph.addTransition source transition).closure roots filter := by
  have closed : graph.Closed filter (· ∈ (graph.addTransition source transition).closure roots filter) := by
    intro vertex inside leaving member passes
    have kept : leaving ∈ (graph.addTransition source transition).transitions vertex :=
      mem_transitions_addTransition.2 (.inl member)
    exact closed_closure _ roots filter vertex inside leaving kept passes
  apply graph.closure_subset_of_closed roots filter closed _ vertex known
  intro root member
  exact mem_closure_of_mem _ roots filter member

/-- A new transition that a walk follows adds to its closure what its target reaches without it. -/
theorem mem_closure_addTransition (inside : source < graph.size) (passes : transition.passes filter)
    (reached : source ∈ graph.closure roots filter) :
    vertex ∈ (graph.addTransition source transition).closure roots filter ↔
      vertex ∈ graph.closure roots filter ∨ vertex ∈ graph.closure [transition.target] filter := by
  let grown := graph.addTransition source transition
  constructor
  · -- the two old closures together are closed, since the new transition ends in the second one
    have closed : grown.Closed filter fun vertex =>
        vertex ∈ graph.closure roots filter ∨ vertex ∈ graph.closure [transition.target] filter := by
      intro vertex known leaving member leavingPasses
      rcases mem_transitions_addTransition.1 member with old | ⟨-, rfl⟩
      · exact known.imp (fun known => graph.closed_closure roots filter vertex known leaving old leavingPasses)
          fun known => graph.closed_closure [transition.target] filter vertex known leaving old leavingPasses
      · exact .inr (graph.mem_closure_of_mem _ filter List.mem_cons_self)
    apply grown.closure_subset_of_closed roots filter closed
    intro root member
    exact .inl (graph.mem_closure_of_mem roots filter member)
  · have leaves : transition ∈ grown.transitions source :=
      mem_transitions_addTransition.2 (.inr ⟨⟨rfl, inside⟩, rfl⟩)
    have arrives : ∀ root ∈ [transition.target], root ∈ grown.closure roots filter := by
      intro root member
      rw [List.mem_singleton.1 member]
      exact grown.closed_closure roots filter source (closure_subset_addTransition roots reached) transition leaves passes
    rintro (old | behind)
    · exact closure_subset_addTransition roots old
    · exact grown.closure_subset filter arrives vertex (closure_subset_addTransition _ behind)

/-- What one more transition does to a closure, along a symbol or along all of them. If it carries another symbol or its
source is not in the closure, the closure stays the same list. Otherwise the closure of the target is joined to it,
still without repetition. -/
theorem closure_of_added (graph : Graph) (roots : List Vertex) (filter : Option Symbol) (source : Vertex)
    (transition : Transition) (inside : source < graph.size) :
    let grown := graph.addTransition source transition
    ((∃ symbol, filter = some symbol ∧ transition.symbol ≠ symbol) ∨ source ∉ graph.closure roots filter →
        grown.closure roots filter = graph.closure roots filter) ∧
      ((∀ symbol, filter = some symbol → transition.symbol = symbol) → source ∈ graph.closure roots filter →
        (grown.closure roots filter).Nodup ∧
          ∀ vertex, vertex ∈ grown.closure roots filter ↔
            vertex ∈ graph.closure roots filter ∨ vertex ∈ graph.closure [transition.target] filter) := by
  intro grown
  refine ⟨fun apart => ?_, fun carries reached => ⟨grown.nodup_closure roots filter, fun vertex => ?_⟩⟩
  · have unfollowed : ¬transition.passes filter ∨ source ∉ graph.closure roots filter := by
      refine apart.imp_left ?_
      rintro ⟨symbol, follows, differs⟩ passes
      exact differs (Transition.passes_iff.1 passes symbol follows)
    rw [closure_eq, closure_eq, depthFirst_addTransition unfollowed]
  · exact mem_closure_addTransition inside (Transition.passes_iff.2 carries) reached

/-- A void transition that closes a cycle: the void closure takes in the vertex behind it, from where a vertex is reached
that was there before. The closure along a letter stays as it is. -/
theorem closure_of_added_cycle :
    let states : List State :=
      [⟨0, [⟨Symbol.epsilon, 1⟩]⟩, ⟨1, []⟩, ⟨2, [⟨Symbol.epsilon, 0⟩, ⟨⟨"a"⟩, 1⟩]⟩]
    let graph : Graph := ⟨states.toArray⟩
    let transition : Transition := ⟨Symbol.epsilon, 2⟩
    let grown := graph.addTransition 1 transition
    1 < graph.size ∧ transition.symbol ≠ ⟨"a"⟩ ∧ 1 ∈ graph.closure [0] (some Symbol.epsilon) ∧
      grown.closure [2, 1] (some ⟨"a"⟩) = graph.closure [2, 1] (some ⟨"a"⟩) ∧
      ∀ vertex, vertex ∈ grown.closure [0] (some Symbol.epsilon) ↔ vertex ∈ [0, 1] ∨ vertex ∈ [2, 0, 1] := by
  intro states graph transition grown
  have inside : 1 < graph.size := by decide
  have differs : transition.symbol ≠ ⟨"a"⟩ := by decide
  have start : graph.closure [0] (some Symbol.epsilon) = [0, 1] := by decide
  have behind : graph.closure [transition.target] (some Symbol.epsilon) = [2, 0, 1] := by decide
  have reached : 1 ∈ graph.closure [0] (some Symbol.epsilon) := start ▸ List.mem_cons_of_mem _ List.mem_cons_self
  have apart := (graph.closure_of_added [2, 1] (some ⟨"a"⟩) 1 transition inside).1
  obtain ⟨-, joined⟩ := (graph.closure_of_added [0] (some Symbol.epsilon) 1 transition inside).2
    (fun symbol follows => Option.some.inj follows) reached
  rw [start, behind] at joined
  exact ⟨inside, differs, reached, apart (.inl ⟨_, rfl, differs⟩), joined⟩

end Addition

end Graph

end RegexAutomaton
