import RegexAutomaton.Graph.Walk

/-!
# The steps of a walk

The four things that a walk can do next, with everything that each of them does. A walk keeps its frames at
different vertices, all of them seen. A vertex stays open until the walk has run out of its transitions: it has
not been discovered, or its frame has not been left. What is open once was open before.
-/

set_option autoImplicit false

namespace RegexAutomaton.Walk

/-- The target of the transition that was followed last, unless it is known. -/
def newArrival (walk : Walk) : Option Vertex :=
  walk.arrival.filter fun vertex => vertex ∉ walk.seen

/-- One answer of a walk to the request for an item, and the walk after it. -/
inductive Step (graph : Graph) (walk : Walk) : Option Item → Walk → Prop
  | arrive (vertex : Vertex) (arrived : walk.newArrival = some vertex) :
      Step graph walk (some (.discovered vertex)) (walk.discover vertex)
  | follow (vertex : Vertex) (transition : Transition) (frames : List Frame)
      (settled : walk.newArrival = none)
      (resumed : resume graph walk.filter walk.frames = some (vertex, transition, frames)) :
      Step graph walk (some (.followed vertex transition))
        { walk with frames, arrival := some transition.target }
  | enter (root : Vertex) (roots : List Vertex) (settled : walk.newArrival = none)
      (exhausted : resume graph walk.filter walk.frames = none)
      (found : nextRoot walk.seen walk.roots = some (root, roots)) :
      Step graph walk (some (.discovered root)) ({ walk with roots, frames := [] }.discover root)
  | finish (settled : walk.newArrival = none)
      (exhausted : resume graph walk.filter walk.frames = none)
      (rootless : nextRoot walk.seen walk.roots = none) :
      Step graph walk none { walk with roots := [], frames := [], arrival := none }

variable {graph : Graph} {filter : Option Symbol} {walk later : Walk} {answer : Option Item}

theorem step_next (graph : Graph) (walk : Walk) :
    walk.Step graph (walk.next graph).1 (walk.next graph).2 := by
  unfold next
  split
  · rename_i vertex arrived
    exact .arrive vertex arrived
  · rename_i settled
    split
    · rename_i vertex transition frames resumed
      exact .follow vertex transition frames settled resumed
    · rename_i exhausted
      split
      · rename_i root roots found
        exact .enter root roots settled exhausted found
      · rename_i rootless
        exact .finish settled exhausted rootless

theorem Step.next_eq (step : walk.Step graph answer later) : walk.next graph = (answer, later) := by
  unfold next
  cases step with
  | arrive vertex arrived =>
      unfold newArrival at arrived
      rw [arrived]
  | follow vertex transition frames settled resumed =>
      unfold newArrival at settled
      rw [settled, resumed]
  | enter root roots settled exhausted found =>
      unfold newArrival at settled
      rw [settled, exhausted, found]
  | finish settled exhausted rootless =>
      unfold newArrival at settled
      rw [settled, exhausted, rootless]

/-! ## Seen vertices and frames -/

theorem not_mem_of_newArrival {vertex : Vertex} (arrived : walk.newArrival = some vertex) :
    vertex ∉ walk.seen := by
  have passes := (Option.filter_eq_some_iff.1 arrived).2
  simpa using passes

theorem not_mem_of_nextRoot {seen : VertexSet} {root : Vertex} {roots rest : List Vertex}
    (found : nextRoot seen roots = some (root, rest)) : root ∉ seen := by
  induction roots with
  | nil => cases found
  | cons first others ih =>
      rw [nextRoot] at found
      by_cases known : first ∈ seen
      · rw [if_pos known] at found
        exact ih found
      · rw [if_neg known] at found
        cases found
        exact known

/-- The frames that are left belong to the outer ones of the frames before. -/
theorem suffix_of_resume {frames rest : List Frame} {vertex : Vertex} {transition : Transition}
    (resumed : resume graph filter frames = some (vertex, transition, rest)) :
    rest.map Frame.vertex <:+ frames.map Frame.vertex := by
  induction frames with
  | nil => cases resumed
  | cons frame outer ih =>
      rw [resume] at resumed
      split at resumed
      · cases resumed
        exact List.suffix_rfl
      · rw [List.map_cons]
        exact (ih resumed).trans (List.suffix_cons _ _)

/-- The frames are at different vertices, which have all been seen. -/
structure Valid (walk : Walk) : Prop where
  nodup : (walk.frames.map Frame.vertex).Nodup
  seen : ∀ vertex ∈ walk.frames.map Frame.vertex, vertex ∈ walk.seen

theorem valid_start (roots : List Vertex) (filter : Option Symbol) : (start roots filter).Valid where
  nodup := List.nodup_nil
  seen := by simp [start]

theorem Valid.discover (valid : walk.Valid) {vertex : Vertex} (new : vertex ∉ walk.seen) :
    (walk.discover vertex).Valid where
  nodup := by
    simp only [Walk.discover, List.map_cons, List.nodup_cons]
    exact ⟨fun member => new (valid.seen vertex member), valid.nodup⟩
  seen := by
    simp only [Walk.discover, List.map_cons, List.forall_mem_cons, VertexSet.mem_insert]
    exact ⟨.inl trivial, fun other member => .inr (valid.seen other member)⟩

theorem Step.valid (step : walk.Step graph answer later) (valid : walk.Valid) : later.Valid := by
  cases step with
  | arrive vertex arrived => exact valid.discover (not_mem_of_newArrival arrived)
  | follow vertex transition frames settled resumed =>
      have suffix := suffix_of_resume resumed
      exact ⟨valid.nodup.sublist suffix.sublist, fun other member =>
        valid.seen other (suffix.subset member)⟩
  | enter root roots settled exhausted found =>
      have cleared : Valid { walk with roots, frames := [] } := ⟨List.nodup_nil, by simp⟩
      exact cleared.discover (not_mem_of_nextRoot found)
  | finish settled exhausted rootless => exact ⟨List.nodup_nil, by simp⟩

/-! ## Open vertices -/

/-- The walk has not run out of the transitions of a vertex: it is undiscovered, or its frame is still there. -/
def Open (walk : Walk) (vertex : Vertex) : Prop :=
  vertex ∉ walk.seen ∨ vertex ∈ walk.frames.map Frame.vertex

instance (walk : Walk) (vertex : Vertex) : Decidable (walk.Open vertex) :=
  inferInstanceAs (Decidable (_ ∨ _))

theorem open_of_discover {vertex other : Vertex} (new : vertex ∉ walk.seen)
    (stillOpen : (walk.discover vertex).Open other) : walk.Open other := by
  rcases stillOpen with unseen | framed
  · simp only [Walk.discover, VertexSet.mem_insert, not_or] at unseen
    exact .inl unseen.2
  · simp only [Walk.discover, List.map_cons, List.mem_cons] at framed
    rcases framed with rfl | framed
    · exact .inl new
    · exact .inr framed

/-- No vertex is opened again. -/
theorem Step.open_of_open (step : walk.Step graph answer later) {vertex : Vertex}
    (stillOpen : later.Open vertex) : walk.Open vertex := by
  cases step with
  | arrive arrived isNew => exact open_of_discover (not_mem_of_newArrival isNew) stillOpen
  | follow source transition frames settled resumed =>
      exact stillOpen.imp_right fun framed => (suffix_of_resume resumed).subset framed
  | enter root roots settled exhausted found =>
      have cleared : Open { walk with roots, frames := [] } vertex :=
        open_of_discover (not_mem_of_nextRoot found) stillOpen
      rcases cleared with unseen | framed
      · exact .inl unseen
      · cases framed
  | finish settled exhausted rootless =>
      rcases stillOpen with unseen | framed
      · exact .inl unseen
      · cases framed

/-! ## Finished walks -/

/-- Nothing is left to do, whatever the graph. -/
structure Finished (walk : Walk) : Prop where
  roots : walk.roots = []
  frames : walk.frames = []
  arrival : walk.arrival = none

theorem Step.finished (step : walk.Step graph none later) : later.Finished := by
  cases step with
  | finish settled exhausted rootless => exact ⟨rfl, rfl, rfl⟩

theorem Finished.next_eq (finished : walk.Finished) (graph : Graph) :
    walk.next graph = (none, walk) := by
  obtain ⟨filter, roots, seen, frames, arrival⟩ := walk
  obtain rfl : roots = [] := finished.roots
  obtain rfl : frames = [] := finished.frames
  obtain rfl : arrival = none := finished.arrival
  rfl

/-! ## Several steps -/

/-- A walk over a graph that stands still gives some answers, one after the other. -/
inductive Yields (graph : Graph) (walk : Walk) : List (Option Item) → Walk → Prop
  | nil : Yields graph walk [] walk
  | snoc {answers : List (Option Item)} {later last : Walk} {answer : Option Item}
      (earlier : Yields graph walk answers later) (step : later.Step graph answer last) :
      Yields graph walk (answers ++ [answer]) last

variable {answers : List (Option Item)} {last : Walk}

theorem Step.yields (step : walk.Step graph answer later) (yields : Yields graph later answers last) :
    Yields graph walk (answer :: answers) last := by
  induction yields with
  | nil => exact .snoc .nil step
  | snoc earlier final ih => exact .snoc ih final

theorem Yields.valid (yields : Yields graph walk answers later) (valid : walk.Valid) :
    later.Valid := by
  induction yields with
  | nil => exact valid
  | snoc earlier step ih => exact step.valid ih

/-- A walk that has said once that there are no more items has nothing left to do. -/
theorem Yields.finished (yields : Yields graph walk answers later) (ended : none ∈ answers) :
    later.Finished := by
  induction yields with
  | nil => cases ended
  | snoc earlier step ih =>
      rcases List.mem_append.1 ended with before | now
      · have finished := ih before
        have next := step.next_eq
        rw [finished.next_eq] at next
        cases next
        exact finished
      · rw [List.mem_singleton] at now
        subst now
        exact step.finished

end RegexAutomaton.Walk
