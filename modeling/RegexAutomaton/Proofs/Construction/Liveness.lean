import RegexAutomaton.Proofs.Construction.Layout
import RegexAutomaton.Proofs.Walk.Coverage

/-!
# No state is idle

Every state that a construction allocates is reached from the initial state and reaches the accept state. Along the
arcs of a fragment its start reaches all of its vertices and all of them reach its end, whatever else the graph has.
The states of an automaton are found by a walk, so they are all that were allocated, and their labels are 0, 1, 2 and
so on up to that of the accept state.
-/

set_option autoImplicit false

namespace RegexAutomaton

open Construction

theorem Arc.mem_leaving {arcs : List Arc} {arc : Arc} (member : arc ∈ arcs) :
    arc.transition ∈ Arc.leaving arc.source arcs := by
  apply List.mem_map_of_mem
  simpa using member

/-- The graph has the arcs, and maybe others. -/
def Graph.Holds (graph : Graph) (arcs : List Arc) : Prop :=
  ∀ arc ∈ arcs, arc.transition ∈ graph.transitions arc.source

namespace Graph

variable {graph : Graph}

theorem holds_append {first rest : List Arc} :
    graph.Holds (first ++ rest) ↔ graph.Holds first ∧ graph.Holds rest :=
  List.forall_mem_append

theorem holds_cons {arc : Arc} {rest : List Arc} :
    graph.Holds (arc :: rest) ↔ arc.transition ∈ graph.transitions arc.source ∧ graph.Holds rest :=
  List.forall_mem_cons

theorem reaches_arc {arc : Arc} (held : arc.transition ∈ graph.transitions arc.source) :
    graph.Reaches none arc.source arc.target :=
  reaches_of_mem held rfl

end Graph

namespace Regex

def OnTheWay (graph : Graph) (start accept vertex : Nat) : Prop :=
  graph.Reaches none start vertex ∧ graph.Reaches none vertex accept

/-- Wherever the fragment of the expression is, all of its vertices lie on the way through it. -/
def Connects (regex : Regex) : Prop :=
  ∀ (graph : Graph) (start base : Nat), graph.Holds (regex.arcs start base) →
    ∀ vertex, base ≤ vertex → vertex ≤ regex.accept base →
      OnTheWay graph start (regex.accept base) vertex

variable {graph : Graph} {start base vertex : Nat}

theorem Connects.reaches_accept {regex : Regex} (connects : regex.Connects)
    (holds : graph.Holds (regex.arcs start base)) : graph.Reaches none start (regex.accept base) :=
  (connects graph start base holds _ (regex.le_accept base) (Nat.le_refl _)).1

theorem onTheWay_branches (parts : List Regex) (connects : ∀ part ∈ parts, part.Connects)
    (holds : graph.Holds (branchArcs parts start base)) (above : base ≤ vertex)
    (below : vertex < base + statesOfAll parts + parts.length) :
    ∃ last ∈ branchEnds parts base, OnTheWay graph start last vertex := by
  induction parts generalizing base with
  | nil =>
      simp only [statesOfAll, List.length_nil] at below
      omega
  | cons regex rest ih =>
      rw [List.forall_mem_cons] at connects
      rw [branchArcs, Graph.holds_append, Graph.holds_cons] at holds
      obtain ⟨⟨entry, inner⟩, others⟩ := holds
      have entered : graph.Reaches none start base := Graph.reaches_arc entry
      have endEq := regex.accept_succ (base + 1)
      simp only [statesOfAll, List.length_cons] at below
      by_cases early : vertex < base + 1 + regex.states
      · refine ⟨regex.accept (base + 1), List.mem_cons_self, ?_⟩
        by_cases here : vertex = base
        · subst here
          exact ⟨entered, connects.1.reaches_accept inner⟩
        · have onTheWay := connects.1 graph base (base + 1) inner vertex (by omega) (by omega)
          exact ⟨entered.trans onTheWay.1, onTheWay.2⟩
      · obtain ⟨last, isEnd, onTheWay⟩ := ih connects.2 others (by omega) (by omega)
        exact ⟨last, List.mem_cons_of_mem _ isEnd, onTheWay⟩

theorem onTheWay_chain (regex : Regex) (rest : List Regex)
    (connects : ∀ part ∈ regex :: rest, part.Connects)
    (holds : graph.Holds (chainArcs (regex :: rest) start base)) (above : base ≤ vertex)
    (below : vertex ≤ base + statesOfAll (regex :: rest) - 1) :
    OnTheWay graph start (base + statesOfAll (regex :: rest) - 1) vertex := by
  induction rest generalizing regex start base vertex with
  | nil =>
      simp only [chainArcs, statesOfAll, List.append_nil, Nat.add_zero] at holds below ⊢
      exact connects regex (by simp) graph start base holds vertex above below
  | cons next rest ih =>
      rw [List.forall_mem_cons] at connects
      rw [chainArcs, Graph.holds_append] at holds
      have endEq := regex.accept_succ base
      have nextPos := next.states_pos
      have bound : base + statesOfAll (regex :: next :: rest) - 1 =
          base + regex.states + statesOfAll (next :: rest) - 1 := by
        simp only [statesOfAll]
        omega
      have restPos : 0 < statesOfAll (next :: rest) := by
        simp only [statesOfAll]
        omega
      rw [bound] at below ⊢
      have through := connects.1.reaches_accept holds.1
      by_cases early : vertex < base + regex.states
      · have inFirst := connects.1 graph start base holds.1 vertex above (by omega)
        have restThrough : OnTheWay graph (regex.accept base) _
            (base + regex.states + statesOfAll (next :: rest) - 1) :=
          ih next connects.2 holds.2 (by omega) (Nat.le_refl _)
        exact ⟨inFirst.1, inFirst.2.trans restThrough.1⟩
      · have inRest := ih next connects.2 holds.2 (by omega) below
        exact ⟨through.trans inRest.1, inRest.2⟩

theorem connects (regex : Regex) : regex.Connects := by
  induction regex using Regex.induction with
  | empty =>
      intro graph start base holds vertex above below
      obtain rfl : vertex = base := Nat.le_antisymm below above
      exact ⟨Graph.reaches_arc (holds _ List.mem_cons_self), Graph.reaches_refl _⟩
  | text letter =>
      intro graph start base holds vertex above below
      obtain rfl : vertex = base := Nat.le_antisymm below above
      exact ⟨Graph.reaches_arc (holds _ List.mem_cons_self), Graph.reaches_refl _⟩
  | alternation first others ih =>
      intro graph start base holds vertex above below
      rw [arcs_alternation, Graph.holds_append] at holds
      have closing : ∀ last ∈ branchEnds (first :: others) base,
          graph.Reaches none last ((alternation first others).accept base) := by
        intro last isEnd
        exact Graph.reaches_arc (holds.2 _ (List.mem_map_of_mem isEnd))
      have inside : ∀ inner, base ≤ inner → inner < (alternation first others).accept base →
          OnTheWay graph start ((alternation first others).accept base) inner := by
        intro inner innerAbove innerBelow
        rw [accept_alternation] at innerBelow
        obtain ⟨last, isEnd, onTheWay⟩ :=
          onTheWay_branches (first :: others) ih holds.1 innerAbove innerBelow
        exact ⟨onTheWay.1, onTheWay.2.trans (closing last isEnd)⟩
      rcases Nat.lt_or_eq_of_le below with before | rfl
      · exact inside vertex above before
      · -- the end itself is reached through any inner vertex, for instance the first one
        have entry := inside base (Nat.le_refl _) (by rw [accept_alternation, List.length_cons]; omega)
        exact ⟨entry.1.trans entry.2, Graph.reaches_refl _⟩
  | sequence first others ih =>
      intro graph start base holds vertex above below
      rw [arcs_sequence] at holds
      exact onTheWay_chain first others ih holds above below
  | repetition mode body ih =>
      intro graph start base holds vertex above below
      rw [arcs, Graph.holds_append, Graph.holds_cons] at holds
      obtain ⟨⟨entry, inner⟩, closing⟩ := holds
      have entered : graph.Reaches none start base := Graph.reaches_arc entry
      have through := ih.reaches_accept inner
      have endEq := body.accept_succ (base + 1)
      have acceptEq := accept_repetition mode body base
      have left : graph.Reaches none (body.accept (base + 1)) ((repetition mode body).accept base) := by
        rw [acceptEq]
        exact Graph.reaches_arc (closing _ (mem_closingArcs.2 (.inr (.inl rfl))))
      rcases Nat.lt_or_eq_of_le below with before | rfl
      · rcases Nat.lt_or_eq_of_le above with after | rfl
        · have onTheWay := ih graph base (base + 1) inner vertex after (by omega)
          exact ⟨entered.trans onTheWay.1, onTheWay.2.trans left⟩
        · exact ⟨entered, through.trans left⟩
      · exact ⟨entered.trans (through.trans left), Graph.reaches_refl _⟩

/-! ## The automaton of an expression -/

variable (regex : Regex)

theorem holds_build : regex.build.automaton.graph.Holds (regex.arcs 0 1) := by
  intro arc member
  rw [transitions_build]
  exact Arc.mem_leaving member

theorem count_build : regex.build.count = regex.states + 1 :=
  regex.grows_build.count.trans (Nat.add_comm 1 regex.states)

theorem size_build : regex.build.automaton.graph.size = regex.build.count :=
  regex.grows_build.size.trans regex.grows_build.count.symm

theorem accept_eq_states : regex.accept 1 = regex.states := by
  have endEq := regex.accept_succ 1
  omega

theorem label_build {vertex : Nat} (allocated : vertex < regex.build.count) :
    regex.build.automaton.graph.label vertex = vertex := by
  rw [count_build] at allocated
  cases vertex with
  | zero => exact regex.grows_build.oldLabel 0 Nat.one_pos
  | succ index =>
      have labeled := regex.grows_build.newLabel index (by omega)
      have sizeEq : Builder.empty.allocate.2.graph.size = 1 := rfl
      have countEq : Builder.empty.allocate.2.count = 1 := rfl
      rw [sizeEq, countEq, Nat.add_comm] at labeled
      exact labeled

theorem onTheWay_build {vertex : Nat} (allocated : vertex < regex.build.count) :
    OnTheWay regex.build.automaton.graph 0 (regex.accept 1) vertex := by
  rw [count_build] at allocated
  have acceptEq := regex.accept_eq_states
  have through := regex.connects.reaches_accept regex.holds_build
  cases vertex with
  | zero => exact ⟨Graph.reaches_refl 0, through⟩
  | succ index =>
      exact regex.connects _ 0 1 regex.holds_build (index + 1) (by omega) (by omega)

theorem mem_states_build (vertex : Vertex) :
    vertex ∈ regex.build.automaton.states ↔ vertex < regex.build.count := by
  have acceptEq := regex.accept_eq_states
  constructor
  · have closed : regex.build.automaton.graph.Closed none (· < regex.build.count) := by
      intro source _ transition leaves _
      rw [count_build, ← acceptEq]
      exact Nat.lt_succ_of_le (target_build leaves).2
    apply Graph.closure_subset_of_closed _ _ _ closed
    intro root member
    obtain rfl := List.mem_singleton.1 member
    change 0 < regex.build.count
    rw [count_build]
    exact Nat.succ_pos _
  · intro allocated
    apply (Graph.mem_closure _ _ _).2
    exact ⟨0, List.mem_singleton_self 0, (regex.onTheWay_build allocated).1⟩

theorem states_build_perm : regex.build.automaton.states.Perm (List.range regex.build.count) := by
  apply (List.perm_ext_iff_of_nodup (Graph.nodup_closure _ _ _) List.nodup_range).2
  intro vertex
  rw [List.mem_range]
  exact regex.mem_states_build vertex

theorem labels_build_perm :
    (regex.build.automaton.states.map regex.build.automaton.graph.label).Perm
      ((List.range regex.build.count).map fun index : Nat => (index : Label)) := by
  have mapped := regex.states_build_perm.map regex.build.automaton.graph.label
  have same : (List.range regex.build.count).map regex.build.automaton.graph.label =
      (List.range regex.build.count).map fun index : Nat => (index : Label) := by
    apply List.map_congr_left
    intro vertex member
    exact regex.label_build (List.mem_range.1 member)
  rw [same] at mapped
  exact mapped

end Regex

namespace Automaton

variable {automaton : Automaton} {label : Label}

theorem state_eq_ok (present : ∃ vertex ∈ automaton.states, automaton.graph.label vertex = label) :
    ∃ vertex ∈ automaton.states,
      automaton.state label = .ok vertex ∧ automaton.graph.label vertex = label := by
  obtain ⟨vertex, member, labeled⟩ := present
  cases found : automaton.state? label with
  | none =>
      have absent := List.find?_eq_none.1 found vertex member
      simp [labeled] at absent
  | some first =>
      refine ⟨first, List.mem_of_find?_eq_some found, ?_, ?_⟩
      · simp only [state, found]
      · simpa using List.find?_some found

theorem state_eq_error (absent : ∀ vertex ∈ automaton.states, automaton.graph.label vertex ≠ label) :
    automaton.state label = .error label := by
  have missing : automaton.state? label = none := by
    apply List.find?_eq_none.2
    intro vertex member
    simpa using absent vertex member
  simp only [state, missing]

end Automaton

namespace Tree

open Regex

/-- An automaton that has been built has no state that is not reached or leads nowhere. Its labels count the states
in the order of their allocation, the initial state first and the accept state last, and a label leads to its state;
any other integer is reported as missing. -/
theorem build_live {tree : Tree} {built : Built} (success : tree.build = .ok built) :
    built.automaton.graph.size = built.count ∧
      (built.automaton.states.map built.automaton.graph.label).Perm
        ((List.range built.count).map fun index : Nat => (index : Label)) ∧
      (built.automaton.initial ∈ built.automaton.states ∧
        built.automaton.graph.label built.automaton.initial = 0) ∧
      (built.automaton.accept ∈ built.automaton.states ∧
        built.automaton.graph.label built.automaton.accept = built.count - 1) ∧
      (∀ vertex ∈ built.automaton.states,
        ∃ path, built.automaton.graph.IsPath vertex path built.automaton.accept) ∧
      (∀ label : Label, 0 ≤ label → label < built.count →
        ∃ vertex ∈ built.automaton.states, built.automaton.state label = .ok vertex ∧
          built.automaton.graph.label vertex = label) ∧
      ∀ label : Label, label < 0 ∨ built.count ≤ label →
        built.automaton.state label = .error label := by
  obtain ⟨regex, -, rfl⟩ := regex_of_build success
  have countEq := regex.count_build
  have acceptEq := regex.accept_eq_states
  have initialAllocated : 0 < regex.build.count := by omega
  have acceptAllocated : regex.accept 1 < regex.build.count := by omega
  refine ⟨regex.size_build, regex.labels_build_perm, ?_, ?_, ?_, ?_, ?_⟩
  · rw [initial_build]
    exact ⟨(regex.mem_states_build 0).2 initialAllocated, regex.label_build initialAllocated⟩
  · rw [accept_build]
    refine ⟨(regex.mem_states_build _).2 acceptAllocated, ?_⟩
    rw [regex.label_build acceptAllocated, countEq, acceptEq]
    simp
  · intro vertex member
    obtain ⟨path, isPath, -⟩ := (regex.onTheWay_build ((regex.mem_states_build vertex).1 member)).2
    rw [accept_build]
    exact ⟨path, isPath⟩
  · intro label nonneg below
    obtain ⟨index, rfl⟩ := Int.eq_ofNat_of_zero_le nonneg
    have allocated : index < regex.build.count := Int.ofNat_lt.1 below
    exact Automaton.state_eq_ok
      ⟨index, (regex.mem_states_build index).2 allocated, regex.label_build allocated⟩
  · intro label outside
    apply Automaton.state_eq_error
    intro vertex member same
    have allocated := (regex.mem_states_build vertex).1 member
    rw [regex.label_build allocated] at same
    subst same
    rcases outside with negative | beyond
    · exact absurd negative (Int.not_lt.2 (Int.natCast_nonneg vertex))
    · exact absurd (Int.ofNat_le.1 beyond) (Nat.not_le.2 allocated)

/-- A loop around a choice has nine states, whichever way the walk finds them. -/
theorem build_live_star :
    let tree := repetition .star (alternation [text "a", sequence [text "b", empty]])
    ∃ built, tree.build = .ok built ∧
      (built.automaton.states.map built.automaton.graph.label).Perm
        ((List.range 9).map fun index : Nat => (index : Label)) ∧
      (∃ vertex ∈ built.automaton.states, built.automaton.state 8 = .ok vertex ∧
        built.automaton.graph.label vertex = 8) ∧
      built.automaton.state 9 = .error 9 ∧ built.automaton.state (-1) = .error (-1) := by
  intro tree
  have stands : ∃ regex, tree.regex = .ok regex ∧ regex.build.count = 9 := ⟨_, rfl, rfl⟩
  obtain ⟨regex, stands, count⟩ := stands
  have success : tree.build = .ok regex.build := by
    rw [build_eq_regex, stands]
    rfl
  obtain ⟨-, labels, -, -, -, present, missing⟩ := build_live success
  rw [count] at labels present missing
  exact ⟨regex.build, success, labels, present 8 (by decide) (by decide),
    missing 9 (.inr (by decide)), missing (-1) (.inl (by decide))⟩

end Tree

end RegexAutomaton
