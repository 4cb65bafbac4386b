import RegexAutomaton.Proofs.Walk.Coverage

/-!
# Walks from several lists of roots

A walk from two lists of roots, one after the other, is the walk from the first list followed by that part of the
walk from the second list which lies outside the closure of the first. The reason is that a closed region may as
well have been seen before: a search that meets the region stays in it, and leaves the rest of the search as it was.
-/

set_option autoImplicit false

namespace RegexAutomaton

namespace VertexSet

def union (first second : VertexSet) : VertexSet :=
  ⟨first.bits ||| second.bits⟩

variable {first second : VertexSet} {vertex : Vertex}

@[simp] theorem mem_union : vertex ∈ first.union second ↔ vertex ∈ first ∨ vertex ∈ second := by
  simp only [Membership.mem, union, Nat.testBit_or, Bool.or_eq_true]

theorem empty_union (set : VertexSet) : empty.union set = set := by
  apply ext
  simp

theorem insert_union (first second : VertexSet) (vertex : Vertex) :
    (first.insert vertex).union second = (first.union second).insert vertex := by
  apply ext
  simp [or_assoc]

end VertexSet

namespace Walk

def outside (region : VertexSet) (items : List Item) : List Item :=
  items.filter fun item => item.vertex ∉ region

variable (region : VertexSet)

theorem outside_append (first rest : List Item) :
    outside region (first ++ rest) = outside region first ++ outside region rest :=
  List.filter_append ..

variable {region} {vertex : Vertex} (transition : Transition) (rest : List Item)

theorem outside_followed (out : vertex ∉ region) :
    outside region (.followed vertex transition :: rest) =
      .followed vertex transition :: outside region rest :=
  List.filter_cons_of_pos (decide_eq_true out)

theorem outside_discovered (out : vertex ∉ region) :
    outside region (.discovered vertex :: rest) = .discovered vertex :: outside region rest :=
  List.filter_cons_of_pos (decide_eq_true out)

theorem outside_discovered_of_mem (inside : vertex ∈ region) :
    outside region (.discovered vertex :: rest) = outside region rest :=
  List.filter_cons_of_neg fun kept => of_decide_eq_true kept inside

theorem outside_eq_nil {items : List Item} (inside : ∀ item ∈ items, item.vertex ∈ region) :
    outside region items = [] := by
  apply List.filter_eq_nil_iff.2
  intro item member
  simpa using inside item member

end Walk

namespace Graph

open Walk

variable (graph : Graph) (filter : Option Symbol)

/-- Induction along a search, with an assumption for the search from a new target and for the rest after it. -/
@[elab_as_elim]
theorem explore_induction {motive : Vertex → List Transition → VertexSet → Prop}
    (nil : ∀ source seen, motive source [] seen)
    (blocked : ∀ source transition rest seen, ¬transition.passes filter →
      motive source rest seen → motive source (transition :: rest) seen)
    (known : ∀ source transition rest seen, transition.passes filter → transition.target ∈ seen →
      motive source rest seen → motive source (transition :: rest) seen)
    (new : ∀ source transition rest seen, transition.passes filter → transition.target ∉ seen →
      motive transition.target (graph.transitions transition.target) (seen.insert transition.target) →
      motive source rest (graph.explore filter transition.target
        (graph.transitions transition.target) (seen.insert transition.target)).found →
      motive source (transition :: rest) seen)
    (source : Vertex) (pending : List Transition) (seen : VertexSet) : motive source pending seen := by
  apply Graph.explore.induct graph filter motive
  · exact nil
  · intro source seen transition rest passes isNew inner innerHolds restHolds _
    exact new source transition rest seen passes isNew innerHolds restHolds
  · intro source seen transition rest passes isKnown restHolds
    exact known source transition rest seen passes (not_not.1 isKnown) restHolds
  · intro source seen transition rest isBlocked restHolds
    exact blocked source transition rest seen isBlocked restHolds

/-- What a search has seen at its end: what it started with, and what it has discovered. -/
theorem mem_found (source : Vertex) (pending : List Transition) (seen : VertexSet) (vertex : Vertex) :
    vertex ∈ (graph.explore filter source pending seen).found ↔
      vertex ∈ seen ∨ vertex ∈ discoveries (graph.explore filter source pending seen).items := by
  induction source, pending, seen using explore_induction graph filter with
  | nil source seen =>
      rw [explore_nil]
      simp [discoveries]
  | blocked source transition rest seen isBlocked ih =>
      rw [graph.explore_cons_of_not_passes source rest isBlocked]
      exact ih
  | known source transition rest seen passes isKnown ih =>
      obtain ⟨itemsEq, foundEq⟩ := graph.explore_cons_of_mem source rest passes isKnown
      rw [itemsEq, foundEq, discoveries_followed]
      exact ih
  | new source transition rest seen passes isNew innerHolds restHolds =>
      obtain ⟨itemsEq, foundEq⟩ := graph.explore_cons_of_not_mem source rest passes isNew
      rw [itemsEq, foundEq, restHolds, innerHolds, discoveries_followed,
        discoveries_discovered, discoveries_append, VertexSet.mem_insert, List.mem_cons,
        List.mem_append, or_assoc, or_assoc, or_left_comm]

theorem explore_stays {region : Vertex → Prop} (closed : graph.Closed filter region)
    (source : Vertex) (pending : List Transition) (seen : VertexSet) (inside : region source)
    (targets : ∀ transition ∈ pending, transition.passes filter → region transition.target) :
    ∀ item ∈ (graph.explore filter source pending seen).items, region item.vertex := by
  induction source, pending, seen using explore_induction graph filter with
  | nil source seen =>
      rw [explore_nil]
      simp
  | blocked source transition rest seen isBlocked ih =>
      rw [List.forall_mem_cons] at targets
      rw [graph.explore_cons_of_not_passes source rest isBlocked]
      exact ih inside targets.2
  | known source transition rest seen passes isKnown ih =>
      rw [List.forall_mem_cons] at targets
      rw [(graph.explore_cons_of_mem source rest passes isKnown).1, List.forall_mem_cons]
      exact ⟨inside, ih inside targets.2⟩
  | new source transition rest seen passes isNew innerHolds restHolds =>
      rw [List.forall_mem_cons] at targets
      have reached := targets.1 passes
      rw [(graph.explore_cons_of_not_mem source rest passes isNew).1, List.forall_mem_cons,
        List.forall_mem_cons]
      refine ⟨inside, reached, ?_⟩
      intro item member
      rcases List.mem_append.1 member with inner | after
      · exact innerHolds reached (closed _ reached) item inner
      · exact restHolds inside targets.2 item after

variable {region : VertexSet}

/-- Nothing of a search from a vertex of a closed region counts outside the region. -/
theorem outside_explore (closed : graph.Closed filter (· ∈ region)) {vertex : Vertex}
    (inside : vertex ∈ region) (seen : VertexSet) :
    let inner := graph.explore filter vertex (graph.transitions vertex) (seen.insert vertex)
    outside region inner.items = [] ∧ inner.found.union region = seen.union region := by
  intro inner
  have stays : ∀ item ∈ inner.items, item.vertex ∈ region :=
    graph.explore_stays filter closed vertex _ _ inside (closed vertex inside)
  refine ⟨outside_eq_nil stays, ?_⟩
  apply VertexSet.ext
  intro other
  have discovered : other ∈ discoveries inner.items → other ∈ region := fun found =>
    stays _ (mem_discoveries.1 found)
  rw [VertexSet.mem_union, VertexSet.mem_union, mem_found, VertexSet.mem_insert]
  constructor
  · rintro (((rfl | known) | found) | member)
    · exact .inr inside
    · exact .inl known
    · exact .inr (discovered found)
    · exact .inr member
  · exact Or.imp_left fun known => .inl (.inr known)

/-- A search for which a closed region counts as seen gives the items outside the region. -/
theorem explore_union (closed : graph.Closed filter (· ∈ region)) (source : Vertex)
    (pending : List Transition) (seen : VertexSet) (out : source ∉ region) :
    (graph.explore filter source pending (seen.union region)).items =
        outside region (graph.explore filter source pending seen).items ∧
      (graph.explore filter source pending (seen.union region)).found =
        (graph.explore filter source pending seen).found.union region := by
  induction source, pending, seen using explore_induction graph filter with
  | nil source seen =>
      rw [explore_nil, explore_nil]
      exact ⟨rfl, rfl⟩
  | blocked source transition rest seen isBlocked ih =>
      rw [graph.explore_cons_of_not_passes source rest isBlocked,
        graph.explore_cons_of_not_passes source rest isBlocked]
      exact ih out
  | known source transition rest seen passes isKnown ih =>
      have unionKnown : transition.target ∈ seen.union region := VertexSet.mem_union.2 (.inl isKnown)
      obtain ⟨itemsEq, foundEq⟩ := graph.explore_cons_of_mem source rest passes isKnown
      obtain ⟨unionItemsEq, unionFoundEq⟩ :=
        graph.explore_cons_of_mem source rest passes unionKnown
      rw [itemsEq, foundEq, unionItemsEq, unionFoundEq, outside_followed _ _ out,
        (ih out).1, (ih out).2]
      exact ⟨rfl, rfl⟩
  | new source transition rest seen passes isNew innerHolds restHolds =>
      obtain ⟨itemsEq, foundEq⟩ := graph.explore_cons_of_not_mem source rest passes isNew
      rw [itemsEq, foundEq, outside_followed _ _ out]
      obtain ⟨restItems, restFound⟩ := restHolds out
      by_cases crossing : transition.target ∈ region
      · -- the search goes into the region and comes back without having seen anything outside
        have unionKnown : transition.target ∈ seen.union region := VertexSet.mem_union.2 (.inr crossing)
        obtain ⟨unionItemsEq, unionFoundEq⟩ :=
          graph.explore_cons_of_mem source rest passes unionKnown
        obtain ⟨innerOutside, innerFound⟩ := graph.outside_explore filter closed crossing seen
        rw [unionItemsEq, unionFoundEq, ← restFound, outside_discovered_of_mem _ crossing,
          outside_append, innerOutside, List.nil_append, ← restItems, innerFound]
        exact ⟨rfl, rfl⟩
      · have unionNew : transition.target ∉ seen.union region := by
          rw [VertexSet.mem_union, not_or]
          exact ⟨isNew, crossing⟩
        obtain ⟨unionItemsEq, unionFoundEq⟩ :=
          graph.explore_cons_of_not_mem source rest passes unionNew
        obtain ⟨innerItems, innerFound⟩ := innerHolds crossing
        rw [VertexSet.insert_union] at innerItems innerFound
        rw [unionItemsEq, unionFoundEq, outside_discovered _ crossing, outside_append,
          innerItems, innerFound, restItems, restFound]
        exact ⟨rfl, rfl⟩

/-! ## Roots -/

theorem search_cons_of_not_mem {root : Vertex} {rest : List Vertex} {seen : VertexSet}
    (new : root ∉ seen) :
    graph.search filter (root :: rest) seen =
      .discovered root ::
        ((graph.explore filter root (graph.transitions root) (seen.insert root)).items ++
          graph.search filter rest
            (graph.explore filter root (graph.transitions root) (seen.insert root)).found) := by
  rw [search, if_neg new]

theorem search_cons_of_mem {root : Vertex} {rest : List Vertex} {seen : VertexSet}
    (known : root ∈ seen) :
    graph.search filter (root :: rest) seen = graph.search filter rest seen := by
  rw [search, if_pos known]

theorem search_union (closed : graph.Closed filter (· ∈ region)) (roots : List Vertex)
    (seen : VertexSet) :
    graph.search filter roots (seen.union region) = outside region (graph.search filter roots seen) := by
  induction roots generalizing seen with
  | nil => rfl
  | cons root rest ih =>
      by_cases known : root ∈ seen
      · rw [search_cons_of_mem graph filter known,
          search_cons_of_mem graph filter (VertexSet.mem_union.2 (.inl known))]
        exact ih seen
      · rw [search_cons_of_not_mem graph filter known]
        by_cases crossing : root ∈ region
        · obtain ⟨innerOutside, innerFound⟩ := graph.outside_explore filter closed crossing seen
          rw [search_cons_of_mem graph filter (VertexSet.mem_union.2 (.inr crossing)),
            outside_discovered_of_mem _ crossing, outside_append, innerOutside, List.nil_append,
            ← ih, innerFound]
        · have unionNew : root ∉ seen.union region := by
            rw [VertexSet.mem_union, not_or]
            exact ⟨known, crossing⟩
          obtain ⟨innerItems, innerFound⟩ :=
            graph.explore_union filter closed root (graph.transitions root) (seen.insert root) crossing
          rw [VertexSet.insert_union] at innerItems innerFound
          rw [search_cons_of_not_mem graph filter unionNew, outside_discovered _ crossing,
            outside_append, ← ih, innerItems, innerFound]

theorem search_append (first second : List Vertex) (seen : VertexSet) :
    ∃ found, graph.search filter (first ++ second) seen =
        graph.search filter first seen ++ graph.search filter second found ∧
      ∀ vertex, vertex ∈ found ↔
        vertex ∈ seen ∨ vertex ∈ discoveries (graph.search filter first seen) := by
  induction first generalizing seen with
  | nil => exact ⟨seen, rfl, by simp [search, discoveries]⟩
  | cons root rest ih =>
      rw [List.cons_append]
      by_cases known : root ∈ seen
      · rw [search_cons_of_mem graph filter known, search_cons_of_mem graph filter known]
        exact ih seen
      · rw [search_cons_of_not_mem graph filter known, search_cons_of_not_mem graph filter known]
        obtain ⟨found, split, members⟩ := ih
          (graph.explore filter root (graph.transitions root) (seen.insert root)).found
        refine ⟨found, ?_, ?_⟩
        · rw [split, List.cons_append, List.append_assoc]
        · intro vertex
          rw [members, mem_found, VertexSet.mem_insert, discoveries_discovered,
            discoveries_append, List.mem_cons, List.mem_append, or_assoc, or_assoc, or_left_comm]

variable (first second roots : List Vertex)

theorem depthFirst_append :
    graph.depthFirst (first ++ second) filter =
      graph.depthFirst first filter ++
        (graph.depthFirst second filter).filter fun item =>
          item.vertex ∉ graph.closure first filter := by
  -- what the first roots leave behind as seen is closed, so the second search is pruned at it
  simp only [closure_eq, depthFirst_eq, depthFirstSearch]
  obtain ⟨found, split, members⟩ := graph.search_append filter first second VertexSet.empty
  have isClosure : ∀ vertex, vertex ∈ found ↔
      vertex ∈ discoveries (graph.search filter first VertexSet.empty) := by
    intro vertex
    simpa using members vertex
  have closed : graph.Closed filter (· ∈ found) := by
    intro source inside transition member passes
    have stays := graph.closed_closure first filter source
    rw [closure_eq, depthFirst_eq] at stays
    exact (isClosure _).2 (stays ((isClosure source).1 inside) transition member passes)
  have pruned := graph.search_union filter closed second VertexSet.empty
  rw [VertexSet.empty_union] at pruned
  rw [split, pruned, outside]
  simp only [isClosure]

theorem discoveries_filter (keep : Vertex → Bool) (items : List Item) :
    discoveries (items.filter fun item => keep item.vertex) = (discoveries items).filter keep := by
  induction items with
  | nil => rfl
  | cons item rest ih =>
      rw [List.filter_cons]
      cases item with
      | discovered vertex => cases kept : keep vertex <;> simp [kept, ih]
      | followed source transition => cases kept : keep source <;> simp [kept, ih]

theorem closure_append :
    graph.closure (first ++ second) filter =
      graph.closure first filter ++
        (graph.closure second filter).filter (· ∉ graph.closure first filter) := by
  rw [closure_eq, depthFirst_append, discoveries_append, ← closure_eq]
  congr 1
  exact discoveries_filter (fun vertex => vertex ∉ graph.closure first filter) _

theorem closure_nil : graph.closure [] filter = [] := by
  rw [closure_eq, depthFirst_eq]
  rfl

theorem exists_closure_singleton (root : Vertex) :
    ∃ others, graph.closure [root] filter = root :: others := by
  rw [closure_eq, depthFirst_eq, depthFirstSearch,
    search_cons_of_not_mem graph filter (VertexSet.not_mem_empty root)]
  exact ⟨_, rfl⟩

variable {first second}

theorem closure_subset (inside : ∀ root ∈ second, root ∈ graph.closure first filter) :
    ∀ vertex ∈ graph.closure second filter, vertex ∈ graph.closure first filter :=
  graph.closure_subset_of_closed second filter (graph.closed_closure first filter) inside

/-- Roots that have been discovered before add nothing. -/
theorem closure_append_of_subset (inside : ∀ root ∈ second, root ∈ graph.closure first filter) :
    graph.closure (first ++ second) filter = graph.closure first filter := by
  have nothing : (graph.closure second filter).filter (· ∉ graph.closure first filter) = [] := by
    apply List.filter_eq_nil_iff.2
    intro vertex reached
    simpa using graph.closure_subset filter inside vertex reached
  rw [closure_append, nothing, List.append_nil]

/-- The vertices that one more root adds to a closure have the same closure as the root, up to what is there. -/
theorem closure_filter_closure {root : Vertex} (new : root ∉ graph.closure roots filter) :
    graph.closure ((graph.closure [root] filter).filter (· ∉ graph.closure roots filter)) filter =
      graph.closure [root] filter := by
  obtain ⟨others, starts⟩ := graph.exists_closure_singleton filter root
  have kept : (graph.closure [root] filter).filter (· ∉ graph.closure roots filter) =
      [root] ++ others.filter (· ∉ graph.closure roots filter) := by
    rw [starts, List.filter_cons_of_pos (by simpa using new)]
    rfl
  rw [kept]
  apply graph.closure_append_of_subset filter
  intro vertex member
  rw [starts]
  exact List.mem_cons_of_mem _ (List.mem_filter.1 member).1

theorem closure_closure :
    graph.closure (graph.closure roots filter) filter = graph.closure roots filter := by
  -- from the end of the list, since a root adds to the closure of the roots before it
  induction roots using List.reverseRecOn with
  | nil => rw [closure_nil, closure_nil]
  | append_singleton roots root ih =>
      by_cases known : root ∈ graph.closure roots filter
      · rw [graph.closure_append_of_subset filter (by simpa using known)]
        exact ih
      · rw [closure_append, closure_append, ih, graph.closure_filter_closure filter roots known]

/-- Lists of roots compose. The walk goes on where it has not been, so closures are joined without repetition; they
depend on which roots there are up to order, and the closure of a closure is the same list. -/
theorem walks_compose (first second : List Vertex) :
    graph.depthFirst (first ++ second) filter =
        graph.depthFirst first filter ++
          (graph.depthFirst second filter).filter
            (fun item => item.vertex ∉ graph.closure first filter) ∧
      graph.closure (first ++ second) filter =
        graph.closure first filter ++
          (graph.closure second filter).filter (· ∉ graph.closure first filter) ∧
      (∀ others : List Vertex, (∀ root, root ∈ others ↔ root ∈ first) →
        ∀ vertex, vertex ∈ graph.closure others filter ↔ vertex ∈ graph.closure first filter) ∧
      graph.closure (graph.closure first filter) filter = graph.closure first filter := by
  refine ⟨graph.depthFirst_append filter first second, graph.closure_append filter first second, ?_,
    graph.closure_closure filter first⟩
  intro others same vertex
  rw [mem_closure, mem_closure]
  simp only [same]

/-- Two vertices on a cycle, a third one that both reach, and one that reaches the cycle: the second list of roots
goes through all of them, and the roots of the first may be repeated in any order. -/
theorem walks_compose_cycle :
    let states : List State :=
      [⟨0, [⟨⟨"a"⟩, 1⟩]⟩, ⟨1, [⟨⟨"a"⟩, 0⟩, ⟨⟨"b"⟩, 2⟩, ⟨⟨"a"⟩, 2⟩]⟩, ⟨2, []⟩, ⟨3, [⟨⟨"a"⟩, 1⟩]⟩]
    let graph : Graph := ⟨states.toArray⟩
    (∀ root, root ∈ [2, 1, 2] ↔ root ∈ [1, 2]) ∧
      (∀ vertex, vertex ∈ graph.closure [2, 1, 2] (some ⟨"a"⟩) ↔
        vertex ∈ graph.closure [1, 2] (some ⟨"a"⟩)) ∧
      graph.closure ([1, 2] ++ [3]) (some ⟨"a"⟩) = [1, 0, 2] ++ [3] := by
  intro states graph
  have same : ∀ root, root ∈ [2, 1, 2] ↔ root ∈ [1, 2] := by
    intro root
    simp only [List.mem_cons, List.not_mem_nil]
    tauto
  obtain ⟨-, joined, permuted, -⟩ := graph.walks_compose (some ⟨"a"⟩) [1, 2] [3]
  refine ⟨same, permuted [2, 1, 2] same, ?_⟩
  rw [joined]
  decide

end Graph

end RegexAutomaton
