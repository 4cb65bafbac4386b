import RegexAutomaton.Proofs.Walk.Order
import RegexAutomaton.Proofs.Walk.Reachability

/-!
# What a walk covers

A walk ends, and then it has discovered exactly the vertices that its roots reach, each once, and followed each of
their passing transitions once. No vertex is discovered outside a closed set that holds the roots, and what has been
discovered at the end is such a set itself, since every target of a transition that was followed is discovered.
-/

set_option autoImplicit false

namespace RegexAutomaton.Walk

variable {graph : Graph} {filter : Option Symbol} {roots : List Vertex} {items : List Item}
variable {walk later : Walk} {answer : Option Item} {answers : List (Option Item)}

/-- Everything that the walk knows of lies in the region. -/
structure StaysIn (region : Vertex → Prop) (walk : Walk) : Prop where
  roots : ∀ root ∈ walk.roots, region root
  seen : ∀ vertex ∈ walk.seen, region vertex
  arrival : ∀ vertex, walk.arrival = some vertex → region vertex

theorem StaysIn.discover {region : Vertex → Prop} (stays : walk.StaysIn region) {vertex : Vertex}
    (inside : region vertex) : (walk.discover vertex).StaysIn region where
  roots := stays.roots
  seen other known := by
    rcases (VertexSet.mem_insert _ _ _).1 known with rfl | known
    · exact inside
    · exact stays.seen other known
  arrival other arrived := by cases arrived

theorem Step.staysIn {region : Vertex → Prop} (step : walk.Step graph answer later)
    (closed : graph.Closed walk.filter region) (valid : walk.Valid) (stays : walk.StaysIn region) :
    later.StaysIn region := by
  cases step with
  | arrive vertex arrived =>
      exact stays.discover (stays.arrival vertex (Option.filter_eq_some_iff.1 arrived).1)
  | follow source transition frames settled resumed =>
      refine ⟨stays.roots, stays.seen, ?_⟩
      intro vertex arrived
      cases arrived
      obtain ⟨left, position, outer, skipped, more, framesEq, -, split, -, passes, -⟩ :=
        split_of_resume resumed
      have known : source ∈ walk.seen := by
        apply valid.seen
        rw [framesEq]
        simp
      have member : transition ∈ graph.transitions source := by
        apply List.mem_of_mem_drop (i := position)
        rw [split]
        simp
      exact closed source (stays.seen source known) transition member passes
  | enter root rest settled stuck found =>
      obtain ⟨skipped, split, -⟩ := split_of_nextRoot found
      have inside := stays.roots
      rw [split] at inside
      have cleared : StaysIn region { walk with roots := rest, frames := [] } := by
        refine ⟨?_, stays.seen, stays.arrival⟩
        intro other member
        exact inside other (List.mem_append_right _ (List.mem_cons_of_mem _ member))
      exact cleared.discover (inside root (by simp))
  | finish settled stuck rootless =>
      refine ⟨?_, stays.seen, fun vertex arrived => by cases arrived⟩
      intro root member
      cases member

theorem Yields.staysIn {region : Vertex → Prop}
    (yields : (start roots filter).Yields graph answers later)
    (closed : graph.Closed filter region) (inside : ∀ root ∈ roots, region root) :
    later.StaysIn region := by
  induction yields with
  | nil =>
      refine ⟨inside, ?_, fun vertex arrived => by cases arrived⟩
      intro vertex known
      exact absurd known (VertexSet.not_mem_empty vertex)
  | snoc earlier step ih =>
      apply step.staysIn _ (earlier.valid (valid_start roots filter)) ih
      rw [earlier.recorded.filter_eq]
      exact closed

end RegexAutomaton.Walk

namespace RegexAutomaton.Graph

open Walk

variable (graph : Graph) (roots : List Vertex) (filter : Option Symbol)

theorem closure_eq : graph.closure roots filter = discoveries (graph.depthFirst roots filter) := rfl

/-- The state in which the whole walk ends, with everything that the items tell of it. -/
theorem exists_ended :
    ∃ ended : Walk, ended.Finished ∧ ended.Recorded graph filter (graph.depthFirst roots filter) ∧
      (Walk.start roots filter).Yields graph ((graph.depthFirst roots filter).map some ++ [none])
        ended := by
  obtain ⟨ended, yields⟩ := graph.yields_depthFirst roots filter
  refine ⟨ended, yields.finished (by simp), ?_, yields⟩
  have recorded := yields.recorded
  rw [List.reduceOption_append, reduceOption_map_some] at recorded
  simpa using recorded

theorem nodup_closure : (graph.closure roots filter).Nodup := by
  obtain ⟨ended, -, recorded, -⟩ := graph.exists_ended roots filter
  exact recorded.nodup

/-- Every discovered vertex has all its passing transitions followed, each as often as it is there. -/
theorem departures_depthFirst (vertex : Vertex) :
    departures vertex (graph.depthFirst roots filter) =
      if vertex ∈ graph.closure roots filter then
        (graph.transitions vertex).filter (Transition.passes · filter)
      else [] := by
  obtain ⟨ended, finished, recorded, -⟩ := graph.exists_ended roots filter
  by_cases discovered : vertex ∈ graph.closure roots filter
  · rw [if_pos discovered]
    apply recorded.left
    rintro (unseen | framed)
    · rw [recorded.seen_iff] at unseen
      exact unseen discovered
    · rw [finished.frames] at framed
      cases framed
  · rw [if_neg discovered]
    apply recorded.unseen
    rw [recorded.seen_iff]
    exact discovered

theorem followed_mem_depthFirst {source : Vertex} {transition : Transition} :
    .followed source transition ∈ graph.depthFirst roots filter ↔
      source ∈ graph.closure roots filter ∧ transition ∈ graph.transitions source ∧ transition.passes filter := by
  rw [← mem_departures, departures_depthFirst]
  by_cases discovered : source ∈ graph.closure roots filter
  · rw [if_pos discovered, List.mem_filter]
    exact (and_iff_right discovered).symm
  · rw [if_neg discovered]
    simp [discovered]

theorem mem_closure_of_mem {root : Vertex} (member : root ∈ roots) :
    root ∈ graph.closure roots filter := by
  obtain ⟨ended, finished, recorded, yields⟩ := graph.exists_ended roots filter
  rcases yields.traced.pending root member with seen | waiting
  · exact (recorded.seen_iff root).1 seen
  · rw [finished.roots] at waiting
    cases waiting

theorem closed_closure : graph.Closed filter (· ∈ graph.closure roots filter) := by
  intro source discovered transition member passes
  have followed := (graph.followed_mem_depthFirst roots filter).2 ⟨discovered, member, passes⟩
  obtain ⟨before, after, split⟩ := List.append_of_mem followed
  rw [closure_eq, mem_discoveries, split]
  -- the target was known when the transition was followed, or it is what comes next
  by_cases known : .discovered transition.target ∈ before
  · exact List.mem_append_left _ known
  · obtain ⟨rest, rfl⟩ :=
      (graph.orderly_depthFirst roots filter).discovered_next before source transition after split known
    simp

theorem closure_subset_of_closed {region : Vertex → Prop} (closed : graph.Closed filter region)
    (inside : ∀ root ∈ roots, region root) : ∀ vertex ∈ graph.closure roots filter, region vertex := by
  intro vertex discovered
  obtain ⟨ended, -, recorded, yields⟩ := graph.exists_ended roots filter
  apply (yields.staysIn closed inside).seen
  exact (recorded.seen_iff vertex).2 discovered

theorem mem_closure {vertex : Vertex} :
    vertex ∈ graph.closure roots filter ↔ ∃ root ∈ roots, graph.Reaches filter root vertex := by
  constructor
  · have closed : graph.Closed filter fun vertex => ∃ root ∈ roots, graph.Reaches filter root vertex := by
      rintro source ⟨root, member, reached⟩ transition leaves passes
      exact ⟨root, member, closed_reaches root source reached transition leaves passes⟩
    apply graph.closure_subset_of_closed roots filter closed
    intro root member
    exact ⟨root, member, reaches_refl root⟩
  · rintro ⟨root, member, reached⟩
    apply reached.mem_of_closed (graph.closed_closure roots filter)
    exact graph.mem_closure_of_mem roots filter member

/-- The walk ends, has discovered what the roots reach and followed what leaves there, each exactly once, and the
order of its items is strict. -/
theorem depthFirst_covers :
    (∃ ended, (Walk.start roots filter).Yields graph
      ((graph.depthFirst roots filter).map some ++ [none]) ended) ∧
    (graph.closure roots filter).Nodup ∧
    (∀ vertex, vertex ∈ graph.closure roots filter ↔
      ∃ root ∈ roots, graph.Reaches filter root vertex) ∧
    (∀ vertex, departures vertex (graph.depthFirst roots filter) =
      if vertex ∈ graph.closure roots filter then
        (graph.transitions vertex).filter (Transition.passes · filter)
      else []) ∧
    Orderly roots (graph.depthFirst roots filter) := by
  refine ⟨graph.yields_depthFirst roots filter, graph.nodup_closure roots filter, ?_,
    graph.departures_depthFirst roots filter, graph.orderly_depthFirst roots filter⟩
  intro vertex
  exact graph.mem_closure roots filter

end RegexAutomaton.Graph
