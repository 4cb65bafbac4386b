import RegexAutomaton.Proofs.Walk.Record

/-!
# The order of the items

The order of the items of a walk is strict: a vertex is discovered before anything is followed out of it, at once
when a transition first leads to it, and never without such a transition unless it is a root. This is read off the
step that gives an item, and what the items before it tell of the walk at that moment.
-/

set_option autoImplicit false

namespace RegexAutomaton.Walk

variable {graph : Graph} {filter : Option Symbol} {roots : List Vertex} {items : List Item}
variable {walk later last : Walk} {answer : Option Item}

/-! ## Where vertices come from -/

theorem split_of_nextRoot {seen : VertexSet} {pending rest : List Vertex} {root : Vertex}
    (found : nextRoot seen pending = some (root, rest)) :
    ∃ skipped, pending = skipped ++ root :: rest ∧ ∀ known ∈ skipped, known ∈ seen := by
  induction pending with
  | nil => cases found
  | cons first others ih =>
      rw [nextRoot] at found
      by_cases known : first ∈ seen
      · rw [if_pos known] at found
        obtain ⟨skipped, rfl, allKnown⟩ := ih found
        exact ⟨first :: skipped, rfl, List.forall_mem_cons.2 ⟨known, allKnown⟩⟩
      · rw [if_neg known] at found
        cases found
        exact ⟨[], rfl, by simp⟩

theorem mem_of_nextRoot_eq_none {seen : VertexSet} {pending : List Vertex}
    (rootless : nextRoot seen pending = none) : ∀ root ∈ pending, root ∈ seen := by
  induction pending with
  | nil => simp
  | cons first others ih =>
      rw [nextRoot] at rootless
      by_cases known : first ∈ seen
      · rw [if_pos known] at rootless
        exact List.forall_mem_cons.2 ⟨known, ih rootless⟩
      · rw [if_neg known] at rootless
        cases rootless

/-- The walk has taken its vertices from the roots, and from the transition that it followed last. -/
structure Traced (roots : List Vertex) (items : List Item) (walk : Walk) : Prop where
  roots_subset : ∀ root ∈ walk.roots, root ∈ roots
  pending : ∀ root ∈ roots, root ∈ walk.seen ∨ root ∈ walk.roots
  arrival : ∀ vertex, walk.arrival = some vertex →
    ∃ earlier source transition,
      items = earlier ++ [.followed source transition] ∧ transition.target = vertex

theorem traced_start (roots : List Vertex) (filter : Option Symbol) :
    (start roots filter).Traced roots [] where
  roots_subset root member := member
  pending root member := .inr member
  arrival vertex arrived := by cases arrived

theorem Step.traced (step : walk.Step graph answer later) (traced : walk.Traced roots items) :
    later.Traced roots (items ++ answer.toList) := by
  cases step with
  | arrive vertex arrived =>
      refine ⟨traced.roots_subset, ?_, fun vertex arrived => by cases arrived⟩
      intro root member
      exact (traced.pending root member).imp_left fun known =>
        (VertexSet.mem_insert _ _ _).2 (.inr known)
  | follow source transition frames settled resumed =>
      refine ⟨traced.roots_subset, traced.pending, ?_⟩
      intro vertex arrived
      cases arrived
      exact ⟨items, source, transition, rfl, rfl⟩
  | enter root rest settled stuck found =>
      obtain ⟨skipped, split, known⟩ := split_of_nextRoot found
      have subset := traced.roots_subset
      have pending := traced.pending
      rw [split] at subset pending
      refine ⟨?_, ?_, fun vertex arrived => by cases arrived⟩
      · intro other member
        exact subset other (List.mem_append_right _ (List.mem_cons_of_mem _ member))
      · intro other member
        simp only [Walk.discover, VertexSet.mem_insert]
        rcases pending other member with seen | waiting
        · exact .inl (.inr seen)
        · rcases List.mem_append.1 waiting with isSkipped | kept
          · exact .inl (.inr (known other isSkipped))
          · exact (List.mem_cons.1 kept).imp_left .inl
  | finish settled stuck rootless =>
      refine ⟨?_, ?_, fun vertex arrived => by cases arrived⟩
      · intro root member
        cases member
      · intro root member
        rcases traced.pending root member with seen | waiting
        · exact .inl seen
        · exact .inl (mem_of_nextRoot_eq_none rootless root waiting)

/-! ## Several steps -/

variable {answers : List (Option Item)}

theorem Yields.traced (yields : (start roots filter).Yields graph answers later) :
    later.Traced roots answers.reduceOption := by
  induction yields with
  | nil => exact traced_start roots filter
  | @snoc answers later last answer earlier step ih =>
      have traced := step.traced ih
      rw [List.reduceOption_append]
      cases answer <;> exact traced

theorem Yields.eq_of_nil (yields : walk.Yields graph [] last) : last = walk := by
  -- the cases need the answers as a variable
  generalize empty : ([] : List (Option Item)) = answers at yields
  cases yields with
  | nil => rfl
  | snoc earlier step => simp at empty

theorem Yields.unsnoc (yields : walk.Yields graph (answers ++ [answer]) last) :
    ∃ later, walk.Yields graph answers later ∧ later.Step graph answer last := by
  generalize split : answers ++ [answer] = all at yields
  cases yields with
  | nil => simp at split
  | snoc earlier step =>
      obtain ⟨rfl, same⟩ := List.append_inj' split rfl
      obtain rfl := List.singleton_inj.1 same
      exact ⟨_, earlier, step⟩

/-- The moment of one answer among others. -/
theorem Yields.split {after : List (Option Item)}
    (yields : walk.Yields graph (answers ++ answer :: after) last) :
    ∃ middle later, walk.Yields graph answers middle ∧ middle.Step graph answer later ∧
      later.Yields graph after last := by
  induction after using List.reverseRecOn generalizing last with
  | nil =>
      obtain ⟨middle, before, step⟩ := yields.unsnoc
      exact ⟨middle, last, before, step, .nil⟩
  | append_singleton after final ih =>
      rw [← List.cons_append, ← List.append_assoc] at yields
      obtain ⟨almost, earlier, finalStep⟩ := yields.unsnoc
      obtain ⟨middle, later, before, step, rest⟩ := ih earlier
      exact ⟨middle, later, before, step, .snoc rest finalStep⟩

theorem Yields.uncons (yields : walk.Yields graph (answer :: answers) last) :
    ∃ later, walk.Step graph answer later ∧ later.Yields graph answers last := by
  rw [← List.nil_append (answer :: answers)] at yields
  obtain ⟨middle, later, before, step, rest⟩ := yields.split
  rw [before.eq_of_nil] at step
  exact ⟨later, step, rest⟩

/-! ## The order of the items -/

/-- The items come in the order of a walk from these roots. -/
structure Orderly (roots : List Vertex) (items : List Item) : Prop where
  /-- A vertex is discovered before all transitions that are followed out of it. -/
  discovered_before : ∀ before source transition after,
    items = before ++ .followed source transition :: after → .discovered source ∈ before
  /-- A target that has not been discovered is discovered at once. -/
  discovered_next : ∀ before source transition after,
    items = before ++ .followed source transition :: after → .discovered transition.target ∉ before →
    ∃ rest, after = .discovered transition.target :: rest
  /-- Unless it is a root, a vertex is discovered right after a transition to it. -/
  followed_last : ∀ before vertex after,
    items = before ++ .discovered vertex :: after → vertex ∉ roots →
    ∃ earlier source transition,
      before = earlier ++ [.followed source transition] ∧ transition.target = vertex

theorem reduceOption_map_some (items : List Item) : (items.map some).reduceOption = items := by
  rw [List.reduceOption, List.filterMap_map]
  exact List.filterMap_some

theorem Yields.orderly {ended : Walk}
    (yields : (start roots filter).Yields graph (items.map some ++ [none]) ended) :
    Orderly roots items := by
  have splitAt : ∀ before item after, items = before ++ item :: after →
      ∃ middle later, (start roots filter).Yields graph (before.map some) middle ∧
        middle.Step graph (some item) later ∧
        later.Yields graph (after.map some ++ [none]) ended := by
    intro before item after split
    rw [split, List.map_append, List.map_cons, List.append_assoc, List.cons_append] at yields
    exact yields.split
  refine ⟨?_, ?_, ?_⟩
  · intro before source transition after split
    -- the frame that goes on is of a seen vertex, and what is seen has been discovered
    obtain ⟨middle, later, earlier, step, -⟩ := splitAt before _ after split
    have valid := earlier.valid (valid_start roots filter)
    have recorded := earlier.recorded
    rw [reduceOption_map_some] at recorded
    cases step with
    | follow _ _ frames settled resumed =>
        obtain ⟨left, position, outer, -, -, framesEq, -⟩ := split_of_resume resumed
        rw [← mem_discoveries, ← recorded.seen_iff]
        apply valid.seen
        rw [framesEq]
        simp
  · intro before source transition after split new
    obtain ⟨middle, later, earlier, step, rest⟩ := splitAt before _ after split
    have recorded := earlier.recorded
    rw [reduceOption_map_some] at recorded
    rw [← mem_discoveries, ← recorded.seen_iff] at new
    cases step with
    | follow _ _ frames settled resumed =>
        -- the target has arrived and is not known, so no other step is possible
        have arrived : newArrival { middle with frames, arrival := some transition.target } =
            some transition.target := by
          simp [newArrival, Option.filter, new]
        have arrives : Step graph _ _ _ := .arrive transition.target arrived
        have next := arrives.next_eq
        cases after with
        | nil =>
            obtain ⟨_, silent, -⟩ := rest.uncons
            rw [silent.next_eq] at next
            cases next
        | cons item after =>
            obtain ⟨_, answered, -⟩ := rest.uncons
            rw [answered.next_eq] at next
            cases next
            exact ⟨after, rfl⟩
  · intro before vertex after split notRoot
    obtain ⟨middle, later, earlier, step, -⟩ := splitAt before _ after split
    have traced := earlier.traced
    rw [reduceOption_map_some] at traced
    cases step with
    | arrive _ arrived => exact traced.arrival vertex (Option.filter_eq_some_iff.1 arrived).1
    | enter _ rest settled stuck found =>
        obtain ⟨skipped, pendingEq, -⟩ := split_of_nextRoot found
        refine absurd (traced.roots_subset vertex ?_) notRoot
        rw [pendingEq]
        simp

end RegexAutomaton.Walk

namespace RegexAutomaton.Graph

open Walk

variable (graph : Graph) (roots : List Vertex) (filter : Option Symbol)

theorem yields_depthFirst :
    ∃ ended, (Walk.start roots filter).Yields graph ((graph.depthFirst roots filter).map some ++ [none])
      ended := by
  rw [depthFirst_eq]
  exact exists_yields graph (Walk.start roots filter)

theorem orderly_depthFirst : Orderly roots (graph.depthFirst roots filter) := by
  obtain ⟨ended, yields⟩ := graph.yields_depthFirst roots filter
  exact yields.orderly

end RegexAutomaton.Graph
