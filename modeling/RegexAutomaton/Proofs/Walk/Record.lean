import RegexAutomaton.Proofs.Walk.Recursion

/-!
# The record of a walk

The items that a walk has given so far tell what it has done: the seen vertices are those that were discovered, each
once, and the transitions followed out of a vertex are the passing ones among those that its frame has looked at.
When a frame is left these are all of its passing transitions. Every step of a walk keeps to this.
-/

set_option autoImplicit false

namespace RegexAutomaton.Walk

def discoveries (items : List Item) : List Vertex :=
  items.filterMap Item.discovery?

/-- The transition that an item follows out of a vertex, if it does. -/
def Item.departure? (vertex : Vertex) : Item → Option Transition
  | discovered _ => none
  | followed source transition => if source = vertex then some transition else none

def departures (vertex : Vertex) (items : List Item) : List Transition :=
  items.filterMap (Item.departure? vertex)

variable {vertex source : Vertex} {transition : Transition} {items : List Item}

@[simp] theorem vertex_discovered (vertex : Vertex) : (Item.discovered vertex).vertex = vertex := rfl

@[simp] theorem vertex_followed (source : Vertex) (transition : Transition) :
    (Item.followed source transition).vertex = source := rfl

@[simp] theorem discoveries_append (first rest : List Item) :
    discoveries (first ++ rest) = discoveries first ++ discoveries rest :=
  List.filterMap_append

@[simp] theorem discoveries_nil : discoveries [] = [] := rfl

@[simp] theorem discoveries_discovered (vertex : Vertex) (rest : List Item) :
    discoveries (.discovered vertex :: rest) = vertex :: discoveries rest := rfl

@[simp] theorem discoveries_followed (source : Vertex) (transition : Transition) (rest : List Item) :
    discoveries (.followed source transition :: rest) = discoveries rest := rfl

theorem discoveries_append_followed (items : List Item) (source : Vertex) (transition : Transition) :
    discoveries (items ++ [.followed source transition]) = discoveries items := by
  simp

theorem mem_discoveries : vertex ∈ discoveries items ↔ .discovered vertex ∈ items := by
  rw [discoveries, List.mem_filterMap]
  constructor
  · rintro ⟨item, member, discovers⟩
    cases item with
    | discovered found =>
        cases discovers
        exact member
    | followed source transition => cases discovers
  · intro member
    exact ⟨.discovered vertex, member, rfl⟩

@[simp] theorem departures_append (vertex : Vertex) (first rest : List Item) :
    departures vertex (first ++ rest) = departures vertex first ++ departures vertex rest :=
  List.filterMap_append

theorem departures_append_discovered (vertex found : Vertex) (items : List Item) :
    departures vertex (items ++ [.discovered found]) = departures vertex items := by
  rw [departures_append]
  exact List.append_nil _

theorem departures_followed (vertex source : Vertex) (transition : Transition) :
    departures vertex [.followed source transition] = if source = vertex then [transition] else [] := by
  by_cases here : source = vertex <;> simp [departures, Item.departure?, here]

theorem mem_departures : transition ∈ departures vertex items ↔ .followed vertex transition ∈ items := by
  rw [departures, List.mem_filterMap]
  constructor
  · rintro ⟨item, member, departs⟩
    cases item with
    | discovered found => cases departs
    | followed source other =>
        by_cases here : source = vertex
        · subst here
          rw [Item.departure?, if_pos rfl] at departs
          cases departs
          exact member
        · rw [Item.departure?, if_neg here] at departs
          cases departs
  · intro member
    refine ⟨.followed vertex transition, member, ?_⟩
    rw [Item.departure?, if_pos rfl]

/-! ## Frames that are left -/

variable {graph : Graph} {filter : Option Symbol} {frames rest : List Frame} {walk later : Walk}

/-- No transition that the frame has not looked at passes. -/
def Frame.Exhausted (graph : Graph) (filter : Option Symbol) (frame : Frame) : Prop :=
  ∀ transition ∈ frame.pending graph, ¬transition.passes filter

theorem exhausted_of_resume_eq_none (stuck : resume graph filter frames = none) :
    ∀ frame ∈ frames, frame.Exhausted graph filter := by
  induction frames with
  | nil => simp
  | cons frame outer ih =>
      rw [resume] at stuck
      cases found : firstPassing filter (frame.pending graph) frame.position with
      | some result =>
          rw [found] at stuck
          cases stuck
      | none =>
          rw [found] at stuck
          rw [List.forall_mem_cons]
          exact ⟨firstPassing_eq_none.1 found, ih stuck⟩

/-- The frame that goes on, behind exhausted ones, and what it looks at on the way to its next transition. -/
theorem split_of_resume (resumed : resume graph filter frames = some (vertex, transition, rest)) :
    ∃ left position outer skipped more,
      frames = left ++ ⟨vertex, position⟩ :: outer ∧
      (∀ frame ∈ left, frame.Exhausted graph filter) ∧
      (graph.transitions vertex).drop position = skipped ++ transition :: more ∧
      (∀ other ∈ skipped, ¬other.passes filter) ∧ transition.passes filter ∧
      rest = ⟨vertex, position + skipped.length + 1⟩ :: outer := by
  induction frames with
  | nil => cases resumed
  | cons frame outer ih =>
      rw [resume] at resumed
      cases found : firstPassing filter (frame.pending graph) frame.position with
      | some result =>
          obtain ⟨next, position⟩ := result
          rw [found] at resumed
          cases resumed
          obtain ⟨skipped, more, split, blocked, passes, rfl⟩ := firstPassing_eq_some found
          exact ⟨[], frame.position, outer, skipped, more, rfl, by simp, split, blocked, passes, rfl⟩
      | none =>
          rw [found] at resumed
          obtain ⟨left, position, inner, skipped, more, rfl, gone, split, blocked, passes, rfl⟩ :=
            ih resumed
          refine ⟨frame :: left, position, inner, skipped, more, rfl, ?_, split, blocked, passes, rfl⟩
          rw [List.forall_mem_cons]
          exact ⟨firstPassing_eq_none.1 found, gone⟩

/-- The passing transitions that a frame has looked at. -/
def Frame.done (graph : Graph) (filter : Option Symbol) (frame : Frame) : List Transition :=
  ((graph.transitions frame.vertex).take frame.position).filter (Transition.passes · filter)

theorem Frame.done_zero (vertex : Vertex) : Frame.done graph filter ⟨vertex, 0⟩ = [] := by
  simp [Frame.done]

theorem Frame.done_of_exhausted {frame : Frame} (exhausted : frame.Exhausted graph filter) :
    frame.done graph filter =
      (graph.transitions frame.vertex).filter (Transition.passes · filter) := by
  have none : (frame.pending graph).filter (Transition.passes · filter) = [] :=
    List.filter_eq_nil_iff.2 exhausted
  conv_rhs => rw [← List.take_append_drop frame.position (graph.transitions frame.vertex)]
  rw [List.filter_append]
  change _ = frame.done graph filter ++ (frame.pending graph).filter (Transition.passes · filter)
  rw [none, List.append_nil]

theorem Frame.done_next {position : Nat} {skipped more : List Transition}
    (split : (graph.transitions vertex).drop position = skipped ++ transition :: more)
    (blocked : ∀ other ∈ skipped, ¬other.passes filter) (passes : transition.passes filter) :
    Frame.done graph filter ⟨vertex, position + skipped.length + 1⟩ =
      Frame.done graph filter ⟨vertex, position⟩ ++ [transition] := by
  have none : skipped.filter (Transition.passes · filter) = [] := List.filter_eq_nil_iff.2 blocked
  have looked : ((graph.transitions vertex).drop position).take (skipped.length + 1) =
      skipped ++ [transition] := by
    rw [split, List.take_append]
    simp
  simp only [Frame.done]
  rw [Nat.add_assoc, List.take_add, looked, List.filter_append, List.filter_append, none]
  simp [passes]

/-! ## What the items so far tell -/

/-- The walk has given these items. -/
structure Recorded (graph : Graph) (filter : Option Symbol) (items : List Item) (walk : Walk) : Prop where
  filter_eq : walk.filter = filter
  seen_iff : ∀ vertex, vertex ∈ walk.seen ↔ vertex ∈ discoveries items
  nodup : (discoveries items).Nodup
  framed : ∀ frame ∈ walk.frames, departures frame.vertex items = frame.done graph filter
  left : ∀ vertex, ¬walk.Open vertex →
    departures vertex items = (graph.transitions vertex).filter (Transition.passes · filter)
  unseen : ∀ vertex, vertex ∉ walk.seen → departures vertex items = []

theorem recorded_start (graph : Graph) (roots : List Vertex) (filter : Option Symbol) :
    (start roots filter).Recorded graph filter [] where
  filter_eq := rfl
  seen_iff vertex := by simp [start, discoveries]
  nodup := List.nodup_nil
  framed frame member := by cases member
  left vertex closed := absurd (.inl (VertexSet.not_mem_empty vertex)) closed
  unseen vertex _ := rfl

theorem Recorded.discover (recorded : walk.Recorded graph filter items) (new : vertex ∉ walk.seen) :
    (walk.discover vertex).Recorded graph filter (items ++ [.discovered vertex]) where
  filter_eq := recorded.filter_eq
  seen_iff other := by
    simp only [Walk.discover, VertexSet.mem_insert, recorded.seen_iff, discoveries_append,
      discoveries_discovered, discoveries_nil, List.mem_append, List.mem_singleton]
    exact or_comm
  nodup := by
    rw [discoveries_append, discoveries_discovered, discoveries_nil]
    apply recorded.nodup.append (List.nodup_singleton vertex)
    rw [List.disjoint_singleton, ← recorded.seen_iff]
    exact new
  framed frame member := by
    rw [departures_append_discovered]
    rcases List.mem_cons.1 member with rfl | member
    · rw [recorded.unseen vertex new, Frame.done_zero]
    · exact recorded.framed frame member
  left other closed := by
    rw [departures_append_discovered]
    apply recorded.left
    -- an unseen vertex stays open, also the one that is discovered here: it has a frame from now on
    rintro (unseen | framed)
    · refine closed (.inl ?_)
      simp only [Walk.discover, VertexSet.mem_insert, not_or]
      refine ⟨?_, unseen⟩
      rintro rfl
      exact closed (.inr (by simp [Walk.discover]))
    · exact closed (.inr (by simp [Walk.discover, framed]))
  unseen other unknown := by
    rw [departures_append_discovered]
    apply recorded.unseen
    intro known
    exact unknown ((VertexSet.mem_insert _ _ _).2 (.inr known))

theorem Recorded.leave {frame : Frame} (recorded : walk.Recorded graph filter items)
    (member : frame ∈ walk.frames) (exhausted : frame.Exhausted graph filter) :
    departures frame.vertex items =
      (graph.transitions frame.vertex).filter (Transition.passes · filter) := by
  rw [recorded.framed frame member, Frame.done_of_exhausted exhausted]

/-- All frames may be left at once when none has a transition to follow. -/
theorem Recorded.leaveAll (recorded : walk.Recorded graph filter items) (roots : List Vertex)
    (arrival : Option Vertex) (stuck : resume graph filter walk.frames = none) :
    Recorded graph filter items { walk with roots, frames := [], arrival } where
  filter_eq := recorded.filter_eq
  seen_iff := recorded.seen_iff
  nodup := recorded.nodup
  framed frame member := by cases member
  left vertex closed := by
    by_cases isOpen : walk.Open vertex
    · rcases isOpen with unseen | framed
      · exact absurd (.inl unseen) closed
      · obtain ⟨frame, member, rfl⟩ := List.mem_map.1 framed
        exact recorded.leave member (exhausted_of_resume_eq_none stuck frame member)
    · exact recorded.left vertex isOpen
  unseen := recorded.unseen

theorem Recorded.follow (recorded : walk.Recorded graph filter items) (valid : walk.Valid)
    (resumed : resume graph filter walk.frames = some (source, transition, rest)) :
    Recorded graph filter (items ++ [.followed source transition])
      { walk with frames := rest, arrival := some transition.target } := by
  obtain ⟨left, position, outer, skipped, more, framesEq, gone, split, blocked, passes, rfl⟩ :=
    split_of_resume resumed
  have here : ⟨source, position⟩ ∈ walk.frames := by simp [framesEq]
  have nodup := valid.nodup
  rw [framesEq, List.map_append, List.map_cons, List.nodup_append, List.nodup_cons] at nodup
  have elsewhere : ∀ vertex, vertex ≠ source →
      departures vertex (items ++ [.followed source transition]) = departures vertex items := by
    intro vertex different
    rw [departures_append, departures_followed, if_neg different.symm, List.append_nil]
  refine ⟨recorded.filter_eq, ?_, ?_, ?_, ?_, ?_⟩
  · intro vertex
    rw [discoveries_append_followed]
    exact recorded.seen_iff vertex
  · rw [discoveries_append_followed]
    exact recorded.nodup
  · intro frame member
    rcases List.mem_cons.1 member with rfl | member
    · rw [departures_append, departures_followed, if_pos rfl, Frame.done_next split blocked passes,
        ← recorded.framed _ here]
    · -- frames are of different vertices, so an outer frame has followed nothing
      have different : frame.vertex ≠ source := by
        intro same
        have framed : frame.vertex ∈ outer.map Frame.vertex := List.mem_map_of_mem member
        rw [same] at framed
        exact nodup.2.1.1 framed
      rw [elsewhere _ different]
      exact recorded.framed frame (by simp [framesEq, member])
  · intro vertex closed
    have different : vertex ≠ source := by
      rintro rfl
      exact closed (.inr (by simp))
    rw [elsewhere vertex different]
    by_cases isOpen : walk.Open vertex
    · -- the vertex was open and is not any more, so one of the frames that were left is its frame
      rcases isOpen with unseen | framed
      · exact absurd (.inl unseen) closed
      · obtain ⟨frame, member, rfl⟩ := List.mem_map.1 framed
        have isLeft : frame ∈ left := by
          rw [framesEq] at member
          rcases List.mem_append.1 member with isLeft | kept
          · exact isLeft
          · rcases List.mem_cons.1 kept with rfl | kept
            · exact absurd rfl different
            · exact absurd (.inr (List.mem_cons_of_mem _ (List.mem_map_of_mem kept))) closed
        exact recorded.leave member (gone frame isLeft)
    · exact recorded.left vertex isOpen
  · intro vertex unseen
    have different : vertex ≠ source := by
      rintro rfl
      exact unseen (valid.seen vertex (List.mem_map_of_mem here))
    rw [elsewhere vertex different]
    exact recorded.unseen vertex unseen

theorem Step.recorded {answer : Option Item} (step : walk.Step graph answer later)
    (valid : walk.Valid) (recorded : walk.Recorded graph filter items) :
    later.Recorded graph filter (items ++ answer.toList) := by
  obtain rfl := recorded.filter_eq
  cases step with
  | arrive vertex arrived => exact recorded.discover (not_mem_of_newArrival arrived)
  | follow source transition frames settled resumed => exact recorded.follow valid resumed
  | enter root roots settled stuck found =>
      have cleared := recorded.leaveAll roots walk.arrival stuck
      exact cleared.discover (not_mem_of_nextRoot found)
  | finish settled stuck rootless =>
      rw [Option.toList_none, List.append_nil]
      exact recorded.leaveAll [] none stuck

theorem Yields.recorded {roots : List Vertex} {answers : List (Option Item)}
    (yields : (start roots filter).Yields graph answers later) :
    later.Recorded graph filter answers.reduceOption := by
  induction yields with
  | nil => exact recorded_start graph roots filter
  | @snoc answers later last answer earlier step ih =>
      have recorded := step.recorded (earlier.valid (valid_start roots filter)) ih
      rw [List.reduceOption_append]
      cases answer <;> exact recorded

end RegexAutomaton.Walk
