import Mathlib.Data.List.ReduceOption
import RegexAutomaton.Proofs.Walk.Exploration
import RegexAutomaton.Proofs.Walk.Step

/-!
# The walk and the search

A walk under way stands for the items that are still to come while the graph does not change: the search along
what its frames have left, innermost first, and then the search from the other roots. Every step of the walk
gives the first of these items and stands for the others afterwards, so the whole walk is the search.
-/

set_option autoImplicit false

namespace RegexAutomaton.Walk

/-- The items that come out of some frames and then of some roots. -/
def itemsOf (graph : Graph) (filter : Option Symbol) (roots : List Vertex) :
    List Frame → VertexSet → List Item
  | [], seen => graph.search filter roots seen
  | frame :: outer, seen =>
      let inner := graph.explore filter frame.vertex (frame.pending graph) seen
      inner.items ++ itemsOf graph filter roots outer inner.found

/-- The items still to come. -/
def remaining (graph : Graph) (walk : Walk) : List Item :=
  match walk.newArrival with
  | some vertex =>
      .discovered vertex ::
        itemsOf graph walk.filter walk.roots (⟨vertex, 0⟩ :: walk.frames) (walk.seen.insert vertex)
  | none => itemsOf graph walk.filter walk.roots walk.frames walk.seen

variable {graph : Graph} {filter : Option Symbol} {roots : List Vertex} {frames : List Frame}
variable {seen : VertexSet}

/-! ## What a step looks for -/

theorem firstPassing_eq_some {transitions : List Transition} {position next : Nat}
    {transition : Transition}
    (found : firstPassing filter transitions position = some (transition, next)) :
    ∃ skipped rest, transitions = skipped ++ transition :: rest ∧
      (∀ other ∈ skipped, ¬other.passes filter) ∧ transition.passes filter ∧
      next = position + skipped.length + 1 := by
  induction transitions generalizing position with
  | nil => simp [firstPassing] at found
  | cons first rest ih =>
      rw [firstPassing] at found
      by_cases passes : first.passes filter
      · rw [if_pos passes] at found
        cases found
        exact ⟨[], rest, rfl, by simp, passes, rfl⟩
      · rw [if_neg passes] at found
        obtain ⟨skipped, later, rfl, blocked, passing, rfl⟩ := ih found
        refine ⟨first :: skipped, later, rfl, ?_, passing, ?_⟩
        · exact List.forall_mem_cons.2 ⟨passes, blocked⟩
        · rw [List.length_cons]
          omega

theorem firstPassing_eq_none {transitions : List Transition} {position : Nat} :
    firstPassing filter transitions position = none ↔
      ∀ transition ∈ transitions, ¬transition.passes filter := by
  induction transitions generalizing position with
  | nil => simp [firstPassing]
  | cons first rest ih =>
      rw [firstPassing, List.forall_mem_cons]
      by_cases passes : first.passes filter
      · simp [passes]
      · simp [passes, ih]

theorem itemsOf_cons_of_firstPassing_eq_none {frame : Frame}
    (exhausted : firstPassing filter (frame.pending graph) frame.position = none) :
    itemsOf graph filter roots (frame :: frames) seen = itemsOf graph filter roots frames seen := by
  rw [itemsOf, graph.explore_of_not_passes frame.vertex (firstPassing_eq_none.1 exhausted)]
  rfl

theorem itemsOf_of_resume_eq_none (exhausted : resume graph filter frames = none) :
    itemsOf graph filter roots frames seen = graph.search filter roots seen := by
  induction frames generalizing seen with
  | nil => rfl
  | cons frame outer ih =>
      rw [resume] at exhausted
      cases found : firstPassing filter (frame.pending graph) frame.position with
      | some result =>
          rw [found] at exhausted
          cases exhausted
      | none =>
          rw [found] at exhausted
          rw [itemsOf_cons_of_firstPassing_eq_none found]
          exact ih exhausted

/-- The next transition comes first. A new target is discovered and has its search before the rest. -/
theorem itemsOf_of_resume_eq_some {vertex : Vertex} {transition : Transition} {later : List Frame}
    (resumed : resume graph filter frames = some (vertex, transition, later)) :
    itemsOf graph filter roots frames seen =
      .followed vertex transition ::
        (if transition.target ∈ seen then itemsOf graph filter roots later seen
        else .discovered transition.target ::
          itemsOf graph filter roots (⟨transition.target, 0⟩ :: later)
            (seen.insert transition.target)) := by
  induction frames generalizing seen with
  | nil => cases resumed
  | cons frame outer ih =>
      rw [resume] at resumed
      cases found : firstPassing filter (frame.pending graph) frame.position with
      | none =>
          rw [found] at resumed
          rw [itemsOf_cons_of_firstPassing_eq_none found]
          exact ih resumed
      | some result =>
          obtain ⟨transition, next⟩ := result
          rw [found] at resumed
          cases resumed
          obtain ⟨skipped, rest, split, blocked, passes, rfl⟩ := firstPassing_eq_some found
          have restEq : Frame.pending graph ⟨frame.vertex, frame.position + skipped.length + 1⟩ =
              rest := by
            have dropped := congrArg (List.drop (skipped.length + 1)) split
            rw [Frame.pending, List.drop_drop, ← Nat.add_assoc] at dropped
            rw [Frame.pending, dropped, List.append_cons, List.drop_left']
            simp
          have start : Frame.pending graph ⟨transition.target, 0⟩ = graph.transitions transition.target := by
            rw [Frame.pending, List.drop_zero]
          rw [itemsOf, split, Graph.explore_append_of_not_passes _ _ _ blocked]
          by_cases known : transition.target ∈ seen
          · obtain ⟨itemsEq, foundEq⟩ := graph.explore_cons_of_mem frame.vertex rest passes known
            rw [if_pos known, itemsOf, restEq]
            dsimp only
            rw [itemsEq, foundEq, List.cons_append]
          · obtain ⟨itemsEq, foundEq⟩ := graph.explore_cons_of_not_mem frame.vertex rest passes known
            rw [if_neg known, itemsOf, itemsOf, start, restEq]
            dsimp only
            rw [itemsEq, foundEq]
            simp only [List.cons_append, List.append_assoc]

theorem search_of_nextRoot_eq_none (rootless : nextRoot seen roots = none) :
    graph.search filter roots seen = [] := by
  induction roots with
  | nil => rfl
  | cons root rest ih =>
      rw [nextRoot] at rootless
      by_cases known : root ∈ seen
      · rw [if_pos known] at rootless
        rw [Graph.search, if_pos known]
        exact ih rootless
      · rw [if_neg known] at rootless
        cases rootless

theorem search_of_nextRoot_eq_some {root : Vertex} {rest : List Vertex}
    (next : nextRoot seen roots = some (root, rest)) :
    graph.search filter roots seen =
      .discovered root :: itemsOf graph filter rest [⟨root, 0⟩] (seen.insert root) := by
  induction roots with
  | nil => cases next
  | cons first others ih =>
      rw [nextRoot] at next
      by_cases known : first ∈ seen
      · rw [if_pos known] at next
        rw [Graph.search, if_pos known]
        exact ih next
      · rw [if_neg known] at next
        cases next
        rw [Graph.search, if_neg known, itemsOf, Frame.pending, List.drop_zero]
        rfl

/-! ## The steps of a walk -/

theorem remaining_arrival (walk : Walk) (later : List Frame) (target : Vertex) :
    remaining graph { walk with frames := later, arrival := some target } =
      (if target ∈ walk.seen then itemsOf graph walk.filter walk.roots later walk.seen
      else .discovered target ::
        itemsOf graph walk.filter walk.roots (⟨target, 0⟩ :: later) (walk.seen.insert target)) := by
  by_cases known : target ∈ walk.seen
  · have stale : newArrival { walk with frames := later, arrival := some target } = none := by
      simp [newArrival, Option.filter, known]
    rw [remaining, stale, if_pos known]
  · have fresh : newArrival { walk with frames := later, arrival := some target } = some target := by
      simp [newArrival, Option.filter, known]
    rw [remaining, fresh, if_neg known]

/-- Every answer of the walk is the first of the items still to come, or says that there is none. -/
theorem Step.remaining_eq {walk later : Walk} {answer : Option Item}
    (step : walk.Step graph answer later) :
    walk.remaining graph = answer.toList ++ later.remaining graph := by
  cases step with
  | arrive vertex arrived =>
      rw [remaining, arrived]
      rfl
  | follow vertex transition frames settled resumed =>
      rw [remaining, settled, remaining_arrival]
      dsimp only
      rw [itemsOf_of_resume_eq_some resumed]
      rfl
  | enter root roots settled exhausted found =>
      rw [remaining, settled]
      dsimp only
      rw [itemsOf_of_resume_eq_none exhausted, search_of_nextRoot_eq_some found]
      rfl
  | finish settled exhausted rootless =>
      rw [remaining, settled]
      dsimp only
      rw [itemsOf_of_resume_eq_none exhausted, search_of_nextRoot_eq_none rootless]
      rfl

theorem Finished.remaining_eq {walk : Walk} (finished : walk.Finished) (graph : Graph) :
    walk.remaining graph = [] := by
  rw [remaining, newArrival, finished.arrival, finished.frames, finished.roots]
  rfl

theorem remaining_start (graph : Graph) (roots : List Vertex) (filter : Option Symbol) :
    (start roots filter).remaining graph = graph.depthFirstSearch roots filter := rfl

/-- Collecting items gives those still to come, up to the limit. -/
theorem toList_collect (graph : Graph) (limit : Nat) (walk : Walk) (items : Array Item) :
    (collect graph limit walk items).toList =
      items.toList ++ (walk.remaining graph).take limit := by
  induction limit generalizing walk items with
  | zero => simp [collect]
  | succ limit ih =>
      rw [collect]
      have step := walk.step_next graph
      split
      · rename_i item later next
        rw [next] at step
        rw [ih, step.remaining_eq, Array.toList_push, List.append_assoc]
        rfl
      · rename_i later next
        rw [next] at step
        rw [step.remaining_eq, step.finished.remaining_eq]
        simp

theorem Yields.remaining_eq {walk later : Walk} {answers : List (Option Item)}
    (yields : Yields graph walk answers later) :
    walk.remaining graph = answers.reduceOption ++ later.remaining graph := by
  induction yields with
  | nil => rfl
  | @snoc answers later last answer earlier step ih =>
      rw [ih, step.remaining_eq, List.reduceOption_append, List.append_assoc]
      cases answer <;> rfl

/-- As long as the graph stays as it is, a walk answers with the items still to come and then with none. -/
theorem exists_yields (graph : Graph) (walk : Walk) :
    ∃ ended, walk.Yields graph ((walk.remaining graph).map some ++ [none]) ended := by
  induction items : walk.remaining graph generalizing walk with
  | nil =>
      have step := walk.step_next graph
      have answered := step.remaining_eq
      rw [items] at answered
      have silent : (walk.next graph).1 = none := by
        simpa using (List.append_eq_nil_iff.1 answered.symm).1
      rw [silent] at step
      exact ⟨_, step.yields .nil⟩
  | cons item rest ih =>
      have step := walk.step_next graph
      have answered := step.remaining_eq
      rw [items] at answered
      cases given : (walk.next graph).1 with
      | none =>
          rw [given] at step answered
          rw [step.finished.remaining_eq] at answered
          cases answered
      | some first =>
          rw [given] at step answered
          obtain ⟨rfl, restEq⟩ := List.cons.inj answered
          obtain ⟨ended, yields⟩ := ih _ restEq.symm
          exact ⟨ended, step.yields yields⟩

end RegexAutomaton.Walk

namespace RegexAutomaton.Graph

theorem depthFirst_eq (graph : Graph) (roots : List Vertex) (filter : Option Symbol) :
    graph.depthFirst roots filter = graph.depthFirstSearch roots filter := by
  have bound := graph.length_search filter roots VertexSet.empty
  rw [unseenCount_empty] at bound
  rw [depthFirst, Walk.toList_collect, Walk.remaining_start, depthFirstSearch,
    List.take_of_length_le bound]
  rfl

/-- The walk is the search: its answers, one after the other, are the items of the search followed by the answer
that there are no more. -/
theorem walk_yields_search (graph : Graph) (roots : List Vertex) (filter : Option Symbol) :
    graph.depthFirst roots filter = graph.depthFirstSearch roots filter ∧
      ∃ ended, (Walk.start roots filter).Yields graph
        ((graph.depthFirstSearch roots filter).map some ++ [none]) ended :=
  ⟨graph.depthFirst_eq roots filter, Walk.exists_yields graph (Walk.start roots filter)⟩

end RegexAutomaton.Graph
