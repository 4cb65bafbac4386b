import RegexAutomaton.Proofs.Walk.Recursion

/-!
# Walks over a graph that grows

Between two items of a walk states and transitions may be added to the graph. The walk then gives the items of
the walk over one graph that stands still: the one with every transition that was added while the walk still
had its source open. The reason is that a step looks at open vertices only, that what it has looked at at a
vertex that stays open is a first part of its transitions, and that a vertex is left for good.
-/

set_option autoImplicit false

namespace RegexAutomaton.Walk

variable {graph other : Graph} {filter : Option Symbol} {walk later last : Walk}
variable {answer : Option Item}

/-! ## What a step depends on -/

theorem firstPassing_of_isPrefix {transitions more : List Transition} {position : Nat}
    {result : Transition × Nat} (found : firstPassing filter transitions position = some result)
    (isPrefix : transitions <+: more) : firstPassing filter more position = some result := by
  obtain ⟨rest, rfl⟩ := isPrefix
  induction transitions generalizing position with
  | nil => cases found
  | cons first transitions ih =>
      rw [firstPassing] at found
      rw [List.cons_append, firstPassing]
      by_cases passes : first.passes filter
      · rw [if_pos passes] at found ⊢
        exact found
      · rw [if_neg passes] at found ⊢
        exact ih found

theorem resume_congr {frames : List Frame}
    (same : ∀ vertex ∈ frames.map Frame.vertex, graph.transitions vertex = other.transitions vertex) :
    resume graph filter frames = resume other filter frames := by
  induction frames with
  | nil => rfl
  | cons frame outer ih =>
      rw [List.map_cons, List.forall_mem_cons] at same
      have pendingEq : frame.pending graph = frame.pending other := by
        rw [Frame.pending, Frame.pending, same.1]
      rw [resume, resume, pendingEq, ih same.2]

/-- A frame that is left needs the same transitions, and one that stays may have more at the end. -/
theorem resume_of_isPrefix {frames rest : List Frame} {vertex : Vertex} {transition : Transition}
    (nodup : (frames.map Frame.vertex).Nodup)
    (resumed : resume graph filter frames = some (vertex, transition, rest))
    (agree : ∀ framed ∈ frames.map Frame.vertex,
      graph.transitions framed = other.transitions framed ∨
        framed ∈ rest.map Frame.vertex ∧ graph.transitions framed <+: other.transitions framed) :
    resume other filter frames = some (vertex, transition, rest) := by
  induction frames with
  | nil => cases resumed
  | cons frame outer ih =>
      rw [List.map_cons, List.forall_mem_cons] at agree
      rw [List.map_cons, List.nodup_cons] at nodup
      rw [resume] at resumed ⊢
      cases found : firstPassing filter (frame.pending graph) frame.position with
      | some result =>
          have isPrefix : graph.transitions frame.vertex <+: other.transitions frame.vertex := by
            rcases agree.1 with same | more
            · rw [same]
            · exact more.2
          have alsoFound := firstPassing_of_isPrefix found (isPrefix.drop frame.position)
          rw [found] at resumed
          unfold Frame.pending
          rw [alsoFound]
          exact resumed
      | none =>
          rw [found] at resumed
          -- the frame is left, and no outer frame is at its vertex
          have left : frame.vertex ∉ rest.map Frame.vertex := fun framed =>
            nodup.1 ((suffix_of_resume resumed).subset framed)
          have same := agree.1.resolve_right fun more => left more.1
          have pendingEq : frame.pending other = frame.pending graph := by
            rw [Frame.pending, Frame.pending, same]
          rw [pendingEq, found]
          exact ih nodup.2 resumed agree.2

/-- Two graphs that agree on the open vertices, but for more transitions at the end where a vertex stays open,
give the same step. -/
theorem Step.congr (step : walk.Step graph answer later) (valid : walk.Valid)
    (agree : ∀ vertex, walk.Open vertex → graph.transitions vertex = other.transitions vertex ∨
      later.Open vertex ∧ graph.transitions vertex <+: other.transitions vertex) :
    walk.Step other answer later := by
  cases step with
  | arrive vertex arrived => exact .arrive vertex arrived
  | follow vertex transition frames settled resumed =>
      refine .follow vertex transition frames settled
        (resume_of_isPrefix valid.nodup resumed fun framed member => ?_)
      rcases agree framed (.inr member) with same | ⟨unseen | stays, more⟩
      · exact .inl same
      · exact absurd (valid.seen framed member) unseen
      · exact .inr ⟨stays, more⟩
  | enter root roots settled exhausted found =>
      refine .enter root roots settled ?_ found
      rw [← exhausted]
      refine (resume_congr fun framed member => ?_).symm
      have known := valid.seen framed member
      refine (agree framed (.inr member)).resolve_right fun more => ?_
      rcases more.1 with unseen | stays
      · exact unseen ((VertexSet.mem_insert _ _ _).2 (.inr known))
      · obtain rfl : framed = root := by simpa [Walk.discover] using stays
        exact not_mem_of_nextRoot found known
  | finish settled exhausted rootless =>
      refine .finish settled ?_ rootless
      rw [← exhausted]
      refine (resume_congr fun framed member => ?_).symm
      refine (agree framed (.inr member)).resolve_right fun more => ?_
      rcases more.1 with unseen | stays
      · exact unseen (valid.seen framed member)
      · cases stays

/-! ## Several steps -/

variable {answers : List (Option Item)}

/-- Earlier steps do not depend on what is added to the vertices that are still open. -/
theorem Yields.congr (yields : Yields graph walk answers later) (valid : walk.Valid)
    (agree : ∀ vertex, graph.transitions vertex = other.transitions vertex ∨
      later.Open vertex ∧ graph.transitions vertex <+: other.transitions vertex) :
    Yields other walk answers later := by
  induction yields with
  | nil => exact .nil
  | snoc earlier step ih =>
      have earlierAgree := ih fun vertex =>
        (agree vertex).imp_right fun more => ⟨step.open_of_open more.1, more.2⟩
      exact .snoc earlierAgree (step.congr (earlier.valid valid) fun vertex _ => agree vertex)

end RegexAutomaton.Walk

namespace RegexAutomaton

/-! ## Walks under which the graph grows -/

/-- A walk under way, the graph below it, and what it has answered so far. -/
structure GrowingWalk where
  graph : Graph
  /-- The graph without the transitions that were added after the walk had run out of their source. -/
  kept : Graph
  walk : Walk
  answers : List (Option Walk.Item)

namespace GrowingWalk

/-- What happens between two moments. -/
inductive Event where
  | next
  | addState (label : Label)
  | addTransition (source : Vertex) (transition : Transition)
deriving DecidableEq, Repr

def start (graph : Graph) (roots : List Vertex) (filter : Option Symbol) : GrowingWalk :=
  ⟨graph, graph, Walk.start roots filter, []⟩

def step (state : GrowingWalk) : Event → GrowingWalk
  | .next =>
      let (answer, walk) := state.walk.next state.graph
      { state with walk, answers := state.answers ++ [answer] }
  | .addState label =>
      { state with graph := state.graph.addState label, kept := state.kept.addState label }
  | .addTransition source transition =>
      { state with
        graph := state.graph.addTransition source transition
        kept := if state.walk.Open source then state.kept.addTransition source transition
          else state.kept }

def run (state : GrowingWalk) (events : List Event) : GrowingWalk :=
  events.foldl step state

/-- The items delivered so far. -/
def items (state : GrowingWalk) : List Walk.Item :=
  state.answers.reduceOption

variable {state : GrowingWalk} {roots : List Vertex} {filter : Option Symbol}

/-- The walk is one over the kept transitions, which are all transitions where it has not run out. -/
structure Faithful (roots : List Vertex) (filter : Option Symbol) (state : GrowingWalk) : Prop where
  size_eq : state.kept.size = state.graph.size
  open_eq : ∀ vertex, state.walk.Open vertex →
    state.kept.transitions vertex = state.graph.transitions vertex
  yields : (Walk.start roots filter).Yields state.kept state.answers state.walk

theorem faithful_start (graph : Graph) (roots : List Vertex) (filter : Option Symbol) :
    (start graph roots filter).Faithful roots filter :=
  ⟨rfl, fun _ _ => rfl, .nil⟩

theorem Faithful.next (faithful : state.Faithful roots filter) :
    (state.step .next).Faithful roots filter := by
  have step := state.walk.step_next state.graph
  have valid := faithful.yields.valid (Walk.valid_start roots filter)
  refine ⟨faithful.size_eq, fun vertex stillOpen => ?_, ?_⟩
  · exact faithful.open_eq vertex (step.open_of_open stillOpen)
  · refine .snoc faithful.yields (step.congr valid fun vertex isOpen => .inl ?_)
    exact (faithful.open_eq vertex isOpen).symm

theorem Faithful.addState (faithful : state.Faithful roots filter) (label : Label) :
    (state.step (.addState label)).Faithful roots filter := by
  have valid := Walk.valid_start roots filter
  refine ⟨?_, fun vertex isOpen => ?_, ?_⟩
  · simp [step, faithful.size_eq]
  · simpa [step] using faithful.open_eq vertex isOpen
  · refine faithful.yields.congr valid fun vertex => .inl ?_
    exact (state.kept.transitions_addState label vertex).symm

/-- A transition is kept as long as its source is open, and nothing of the walk depends on it afterwards. -/
theorem Faithful.addTransition (faithful : state.Faithful roots filter) (source : Vertex)
    (transition : Transition) :
    (state.step (.addTransition source transition)).Faithful roots filter := by
  have valid := Walk.valid_start roots filter
  by_cases isOpen : state.walk.Open source
  · simp only [step, if_pos isOpen]
    refine ⟨?_, fun vertex stillOpen => ?_, ?_⟩
    · simp [faithful.size_eq]
    · have same := faithful.open_eq vertex stillOpen
      simp only [Graph.transitions_addTransition, faithful.size_eq, same]
    · refine faithful.yields.congr valid fun vertex => ?_
      rw [Graph.transitions_addTransition]
      by_cases here : source = vertex ∧ vertex < state.kept.size
      · rw [if_pos here]
        exact .inr ⟨here.1 ▸ isOpen, List.prefix_append _ _⟩
      · rw [if_neg here]
        exact .inl rfl
  · simp only [step, if_neg isOpen]
    refine ⟨?_, fun vertex stillOpen => ?_, faithful.yields⟩
    · simp [faithful.size_eq]
    · have elsewhere : source ≠ vertex := fun here => isOpen (here ▸ stillOpen)
      rw [Graph.transitions_addTransition, if_neg fun here => elsewhere here.1]
      exact faithful.open_eq vertex stillOpen

theorem Faithful.step (faithful : state.Faithful roots filter) (event : Event) :
    (state.step event).Faithful roots filter := by
  cases event with
  | next => exact faithful.next
  | addState label => exact faithful.addState label
  | addTransition source transition => exact faithful.addTransition source transition

theorem Faithful.run (faithful : state.Faithful roots filter) (events : List Event) :
    (state.run events).Faithful roots filter := by
  induction events generalizing state with
  | nil => exact faithful
  | cons event events ih => exact ih (faithful.step event)

theorem Faithful.depthFirst_eq (faithful : state.Faithful roots filter) :
    state.kept.depthFirst roots filter = state.items ++ state.walk.remaining state.kept := by
  rw [Graph.depthFirst_eq, ← Walk.remaining_start, faithful.yields.remaining_eq, items]

/-! ## Answers -/

theorem answers_prefix_step (state : GrowingWalk) (event : Event) :
    state.answers <+: (state.step event).answers := by
  cases event with
  | next => exact List.prefix_append _ _
  | addState label => exact List.prefix_rfl
  | addTransition source transition => exact List.prefix_rfl

theorem answers_prefix_run (state : GrowingWalk) (events : List Event) :
    state.answers <+: (state.run events).answers := by
  induction events generalizing state with
  | nil => exact List.prefix_rfl
  | cons event events ih => exact (state.answers_prefix_step event).trans (ih _)

theorem items_prefix_run (state : GrowingWalk) (events : List Event) :
    state.items <+: (state.run events).items := by
  obtain ⟨more, answersEq⟩ := state.answers_prefix_run events
  rw [items, items, ← answersEq, List.reduceOption_append]
  exact List.prefix_append _ _

/-- A finished walk only goes on to say that there are no more items, whatever is added. -/
theorem answers_run_of_finished (state : GrowingWalk) (finished : state.walk.Finished)
    (events : List Event) :
    ∃ count, (state.run events).answers = state.answers ++ List.replicate count none := by
  induction events generalizing state with
  | nil => exact ⟨0, (List.append_nil _).symm⟩
  | cons event events ih =>
      cases event with
      | next =>
          have next := finished.next_eq state.graph
          have same : (state.step .next).walk = state.walk := congrArg Prod.snd next
          have answered : (state.step .next).answers = state.answers ++ [none] :=
            congrArg (fun pair => state.answers ++ [pair.1]) next
          obtain ⟨count, answersEq⟩ := ih (state.step .next) (same ▸ finished)
          refine ⟨count + 1, ?_⟩
          rw [List.replicate_succ, List.append_cons, ← answered]
          exact answersEq
      | addState label => exact ih (state.step (.addState label)) finished
      | addTransition source transition =>
          exact ih (state.step (.addTransition source transition)) finished

/-- At every moment the items of the walk are the first ones of the whole walk over the kept transitions, those
that are still to be kept included. Once the walk says that there are no more items, they are all of them, and it
never gives another. -/
theorem run_delivers_kept (graph : Graph) (roots : List Vertex) (filter : Option Symbol)
    (before after : List Event) :
    let earlier := (start graph roots filter).run before
    let later := earlier.run after
    earlier.items <+: later.kept.depthFirst roots filter ∧
      (none ∈ earlier.answers →
        earlier.items = later.kept.depthFirst roots filter ∧
          ∃ count, later.answers = earlier.answers ++ List.replicate count none) := by
  intro earlier later
  have faithful : earlier.Faithful roots filter := (faithful_start graph roots filter).run before
  have laterFaithful : later.Faithful roots filter := faithful.run after
  refine ⟨?_, fun ended => ?_⟩
  · rw [laterFaithful.depthFirst_eq]
    exact (earlier.items_prefix_run after).trans (List.prefix_append _ _)
  · obtain ⟨count, answersEq⟩ := earlier.answers_run_of_finished (faithful.yields.finished ended) after
    have laterEnded : none ∈ later.answers := (earlier.answers_prefix_run after).subset ended
    have finished := laterFaithful.yields.finished laterEnded
    refine ⟨?_, count, answersEq⟩
    rw [laterFaithful.depthFirst_eq, finished.remaining_eq, List.append_nil, items, items, answersEq,
      List.reduceOption_append, List.reduceOption_replicate_none, List.append_nil]

/-- A loop that is added in time is followed, and one that is added after the end is not kept. -/
theorem run_delivers_kept_loop :
    let earlier := (start (Graph.empty.addState 0) [0] none).run
      [.next, .addTransition 0 ⟨⟨"a"⟩, 0⟩, .next, .next]
    let later := earlier.run [.addTransition 0 ⟨⟨"b"⟩, 0⟩, .next]
    none ∈ earlier.answers ∧
      earlier.items = [.discovered 0, .followed 0 ⟨⟨"a"⟩, 0⟩] ∧
      earlier.items = later.kept.depthFirst [0] none := by
  intro earlier later
  have ended : none ∈ earlier.answers := by decide
  exact ⟨ended, by decide, ((run_delivers_kept _ _ _ _ _).2 ended).1⟩

end GrowingWalk

end RegexAutomaton
