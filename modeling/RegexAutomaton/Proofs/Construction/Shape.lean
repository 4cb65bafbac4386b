import RegexAutomaton.Proofs.Construction.Hosting
import RegexAutomaton.Proofs.Construction.Liveness
import RegexAutomaton.Proofs.Regex.Nodes

/-!
# The shape of an automaton

A state either reads one letter on its only transition or leaves by void transitions only, since it never starts one
part of an expression and ends another but where the second comes right after the first. There are at most two of
these, or as many as a choice has parts. Nothing leads back to the initial state and nothing leaves the accept state.
-/

set_option autoImplicit false

namespace RegexAutomaton

/-- One letter or void transitions, at least one and not more than the bound. -/
structure Transition.Shaped (bound : Nat) (transitions : List Transition) : Prop where
  nonempty : transitions ≠ []
  uniform : (∃ letter : Letter, ∃ target, transitions = [⟨letter.symbol, target⟩]) ∨
    ∀ transition ∈ transitions, transition.symbol = Symbol.epsilon
  bounded : transitions.length ≤ bound

open Transition

theorem Transition.shaped_of_void {bound : Nat} {first : Transition} {rest : List Transition}
    (void : ∀ transition ∈ first :: rest, transition.symbol = Symbol.epsilon)
    (bounded : (first :: rest).length ≤ bound) : Shaped bound (first :: rest) :=
  ⟨List.cons_ne_nil _ _, .inr void, bounded⟩

namespace Regex

/-- Wherever the fragment of the expression is, what leaves its start and its vertices before the end has the shape. -/
def KeepsShape (bound : Nat) (regex : Regex) : Prop :=
  ∀ (graph : Graph) (start base : Nat), start < base →
    graph.Hosts (regex.arcs start base) start base (regex.accept base) →
    Shaped bound (Arc.leaving start (regex.arcs start base)) ∧
      ∀ vertex, base ≤ vertex → vertex < regex.accept base → Shaped bound (graph.transitions vertex)

variable {graph : Graph} {bound start base : Nat}

theorem void_leaving_choice (parts : List Regex) (accept : Nat) (before : start < base)
    (hosts : graph.Hosts (choiceArcs parts start base accept) start base
      (base + statesOfAll parts + parts.length)) :
    (∀ transition ∈ Arc.leaving start (choiceArcs parts start base accept), transition.symbol = Symbol.epsilon) ∧
      (Arc.leaving start (choiceArcs parts start base accept)).length = parts.length := by
  induction parts generalizing base with
  | nil => simp [choiceArcs, branchArcs, closingBranches, branchEnds]
  | cons regex rest ih =>
      have branch := hostsBranch before hosts
      obtain ⟨void, length⟩ := ih (by omega) branch.rest
      rw [branch.leavingStart, List.forall_mem_cons, List.length_cons, length]
      exact ⟨⟨rfl, void⟩, rfl⟩

theorem shaped_choice (enough : 2 ≤ bound) (parts : List Regex) (shaped : ∀ part ∈ parts, part.KeepsShape bound)
    (accept : Nat) (before : start < base)
    (hosts : graph.Hosts (choiceArcs parts start base accept) start base
      (base + statesOfAll parts + parts.length)) :
    ∀ vertex, base ≤ vertex → vertex < base + statesOfAll parts + parts.length →
      Shaped bound (graph.transitions vertex) := by
  induction parts generalizing base with
  | nil =>
      intro vertex above below
      simp only [statesOfAll, List.length_nil] at below
      omega
  | cons regex rest ih =>
      intro vertex above below
      rw [List.forall_mem_cons] at shaped
      have branch := hostsBranch before hosts
      have endEq := regex.accept_succ (base + 1)
      obtain ⟨atEntry, inside⟩ := shaped.1 graph base (base + 1) (by omega) branch.part
      simp only [statesOfAll, List.length_cons] at below
      -- the entry of the first part, its vertices, its end, and what belongs to the other parts
      rcases Nat.lt_or_eq_of_le above with above | rfl
      · rcases Nat.lt_trichotomy vertex (regex.accept (base + 1)) with early | rfl | late
        · exact inside vertex above early
        · rw [branch.last]
          exact shaped_of_void (by simp) (by simp only [List.length_singleton]; omega)
        · exact ih shaped.2 (by omega) branch.rest vertex (by omega) (by omega)
      · rw [branch.first]
        exact atEntry

theorem shaped_chain (regex : Regex) (rest : List Regex) (shaped : ∀ part ∈ regex :: rest, part.KeepsShape bound)
    (before : start < base)
    (hosts : graph.Hosts (chainArcs (regex :: rest) start base) start base
      (base + statesOfAll (regex :: rest) - 1)) :
    Shaped bound (Arc.leaving start (chainArcs (regex :: rest) start base)) ∧
      ∀ vertex, base ≤ vertex → vertex < base + statesOfAll (regex :: rest) - 1 →
        Shaped bound (graph.transitions vertex) := by
  induction rest generalizing regex start base with
  | nil =>
      simp only [chainArcs, statesOfAll, List.append_nil, Nat.add_zero] at hosts ⊢
      exact shaped regex (by simp) graph start base before hosts
  | cons next rest ih =>
      rw [List.forall_mem_cons] at shaped
      have link := hostsLink before hosts
      have endEq := regex.accept_succ base
      obtain ⟨atStart, inside⟩ := shaped.1 graph start base before link.first
      obtain ⟨atMiddle, later⟩ := ih next shaped.2 (by omega) link.rest
      refine ⟨by rw [link.leavingStart]; exact atStart, ?_⟩
      intro vertex above below
      rcases Nat.lt_trichotomy vertex (regex.accept base) with early | rfl | late
      · exact inside vertex above early
      · rw [link.middle]
        exact atMiddle
      · apply later vertex (by omega)
        simp only [statesOfAll] at below ⊢
        omega

theorem shaped_body {mode : Repetition} {body : Regex} (enough : 2 ≤ bound) (shaped : body.KeepsShape bound)
    (before : start < base)
    (hosts : graph.Hosts ((repetition mode body).arcs start base) start base ((repetition mode body).accept base)) :
    Shaped bound (Arc.leaving start ((repetition mode body).arcs start base)) ∧
      ∀ vertex, base ≤ vertex → vertex < (repetition mode body).accept base →
        Shaped bound (graph.transitions vertex) := by
  have inner := hostsBody before hosts
  have endEq := body.accept_succ (base + 1)
  have acceptEq := accept_repetition mode body base
  obtain ⟨atEntry, inside⟩ := shaped graph base (base + 1) (by omega) inner.part
  constructor
  · rw [inner.leavingStart]
    cases mode.skips with
    | true => exact shaped_of_void (by simp) enough
    | false => exact shaped_of_void (by simp) (Nat.le_of_succ_le enough)
  · intro vertex above below
    rcases Nat.lt_or_eq_of_le above with above | rfl
    · rcases Nat.lt_or_ge vertex (body.accept (base + 1)) with early | late
      · exact inside vertex above early
      · obtain rfl : vertex = body.accept (base + 1) := by omega
        rw [inner.last]
        cases mode.loops with
        | true => exact shaped_of_void (by simp) enough
        | false => exact shaped_of_void (by simp) (Nat.le_of_succ_le enough)
    · rw [inner.first]
      exact atEntry

/-- No choice in the expression has more parts. -/
def Narrow (bound : Nat) (regex : Regex) : Prop :=
  ∀ first others, alternation first others ∈ regex.nodes → (first :: others).length ≤ bound

theorem Narrow.part {regex part : Regex} {parts : List Regex} (narrow : regex.Narrow bound)
    (nodesEq : regex.nodes = regex :: parts.flatMap nodes) (member : part ∈ parts) : part.Narrow bound := by
  intro first others below
  apply narrow
  rw [nodesEq]
  exact List.mem_cons_of_mem _ (List.mem_flatMap.2 ⟨part, member, below⟩)

theorem keepsShape (enough : 2 ≤ bound) (regex : Regex) (narrow : regex.Narrow bound) :
    regex.KeepsShape bound := by
  induction regex using Regex.induction with
  | empty =>
      intro graph start base before hosts
      have leaving : Arc.leaving start (empty.arcs start base) = [⟨Symbol.epsilon, base⟩] := by
        simp [arcs, Arc.leaving, Arc.transition]
      rw [leaving]
      refine ⟨shaped_of_void (by simp) (Nat.le_of_succ_le enough), ?_⟩
      intro vertex above below
      exact absurd below (Nat.not_lt.2 above)
  | text letter =>
      intro graph start base before hosts
      have leaving : Arc.leaving start ((text letter).arcs start base) = [⟨letter.symbol, base⟩] := by
        simp [arcs, Arc.leaving, Arc.transition]
      rw [leaving]
      refine ⟨⟨List.cons_ne_nil _ _, .inl ⟨letter, base, rfl⟩, Nat.le_of_succ_le enough⟩, ?_⟩
      intro vertex above below
      exact absurd below (Nat.not_lt.2 above)
  | alternation first others ih =>
      intro graph start base before hosts
      have shaped : ∀ part ∈ first :: others, part.KeepsShape bound := fun part member =>
        ih part member (narrow.part (nodes_alternation first others) member)
      have parts : (first :: others).length ≤ bound := by
        apply narrow
        rw [nodes_alternation]
        exact List.mem_cons_self
      rw [arcs_alternation, accept_alternation] at hosts
      rw [arcs_alternation, accept_alternation]
      obtain ⟨void, length⟩ := void_leaving_choice (first :: others) _ before hosts
      refine ⟨⟨?_, .inr void, ?_⟩, shaped_choice enough (first :: others) shaped _ before hosts⟩
      · rw [← List.length_pos_iff]
        change 0 < (Arc.leaving start (choiceArcs _ _ _ _)).length
        rw [length, List.length_cons]
        exact Nat.succ_pos _
      · exact Nat.le_trans (Nat.le_of_eq length) parts
  | sequence first others ih =>
      intro graph start base before hosts
      have shaped : ∀ part ∈ first :: others, part.KeepsShape bound := fun part member =>
        ih part member (narrow.part (nodes_sequence first others) member)
      rw [arcs_sequence] at hosts ⊢
      exact shaped_chain first others shaped before hosts
  | repetition mode body ih =>
      intro graph start base before hosts
      have shaped : body.KeepsShape bound :=
        ih (narrow.part (nodes_repetition mode body) (List.mem_singleton_self body))
      exact shaped_body enough shaped before hosts

/-! ## The automaton of an expression -/

theorem shaped_build (enough : 2 ≤ bound) (regex : Regex) (narrow : regex.Narrow bound) {vertex : Nat}
    (before : vertex < regex.accept 1) : Shaped bound (regex.build.automaton.graph.transitions vertex) := by
  obtain ⟨atStart, inside⟩ := regex.keepsShape enough narrow _ 0 1 Nat.one_pos regex.hosts_build
  cases vertex with
  | zero =>
      rw [transitions_build]
      exact atStart
  | succ index => exact inside (index + 1) (Nat.succ_le_succ (Nat.zero_le index)) before

end Regex

namespace Tree

/-- The number of parts that a choice has. No other node branches. -/
def branches : Tree → Nat
  | node kind _ parts _ =>
      match Kind.ofValue? kind with
      | some .alternation => (parts.getD []).length
      | _ => 0

/-- The greatest number of parts of a choice among the nodes that are looked at. -/
def width (tree : Tree) : Nat :=
  (tree.visited.map branches).max?.getD 0

theorem branches_of_regex {tree : Tree} {first : Regex} {others : List Regex}
    (stands : tree.regex = .ok (.alternation first others)) : tree.branches = (first :: others).length := by
  cases stands_of_regex stands with
  | alternation named stand =>
      rw [branches, named, ← length_regexes stand]
      rfl

theorem narrow_width {tree : Tree} {regex : Regex} (stands : tree.regex = .ok regex) :
    regex.Narrow tree.width := by
  intro first others member
  have standing : Except.ok (.alternation first others) ∈ tree.visited.map Tree.regex := by
    rw [map_regex_visited stands]
    exact List.mem_map_of_mem member
  obtain ⟨node, visited, nodeStands⟩ := List.mem_map.1 standing
  rw [← branches_of_regex nodeStands]
  exact List.le_max?_getD_of_mem (List.mem_map_of_mem visited)

/-- Nothing leads back to the initial state of an automaton that has been built and nothing leaves its accept state,
which is another one. The others either read one letter or have void transitions only, at least one and at most two or
as many as a choice has parts. -/
theorem build_shaped {tree : Tree} {built : Built} (success : tree.build = .ok built) :
    let graph := built.automaton.graph
    (∀ vertex, ∀ transition ∈ graph.transitions vertex, transition.target ≠ built.automaton.initial) ∧
      (graph.transitions built.automaton.accept = [] ∧ built.automaton.accept ≠ built.automaton.initial) ∧
      (∀ vertex < graph.size, vertex ≠ built.automaton.accept → graph.transitions vertex ≠ []) ∧
      ∀ vertex,
        ((∃ letter : Letter, ∃ target, graph.transitions vertex = [⟨letter.symbol, target⟩]) ∨
            ∀ transition ∈ graph.transitions vertex, transition.symbol = Symbol.epsilon) ∧
          (graph.transitions vertex).length ≤ max 2 tree.width := by
  intro graph
  obtain ⟨regex, stands, rfl⟩ := regex_of_build success
  have narrow : regex.Narrow (max 2 tree.width) := fun first others member =>
    Nat.le_trans (narrow_width stands first others member) (Nat.le_max_right _ _)
  have shaped : ∀ vertex < regex.accept 1, Shaped (max 2 tree.width) (graph.transitions vertex) :=
    fun vertex before => regex.shaped_build (Nat.le_max_left _ _) narrow before
  have endAbove := regex.le_accept 1
  refine ⟨?_, ⟨regex.transitions_build_eq_nil (Nat.le_of_eq regex.accept_build.symm), ?_⟩, ?_, ?_⟩
  · intro vertex transition member
    exact Nat.ne_of_gt (Regex.target_build member).1
  · rw [Regex.accept_build]
    exact Nat.ne_of_gt endAbove
  · intro vertex inside notEnd
    have sizeEq : graph.size = regex.accept 1 + 1 := by
      rw [regex.accept_eq_states, ← regex.count_build]
      exact regex.size_build
    rw [Regex.accept_build] at notEnd
    exact (shaped vertex (by omega)).nonempty
  · intro vertex
    rcases Nat.lt_or_ge vertex (regex.accept 1) with before | atEnd
    · exact ⟨(shaped vertex before).uniform, (shaped vertex before).bounded⟩
    · have nothing : graph.transitions vertex = [] := regex.transitions_build_eq_nil atEnd
      rw [nothing]
      exact ⟨.inr (by simp), Nat.zero_le _⟩

/-- A choice of three parts under a loop: its start has three transitions, which is the most. -/
theorem build_shaped_choice :
    let tree := repetition .star (alternation [text "a", empty, repetition .optional (text "b")])
    ∃ built, tree.build = .ok built ∧ tree.width = 3 ∧
      built.automaton.graph.transitions built.automaton.accept = [] ∧
      ∀ vertex, (built.automaton.graph.transitions vertex).length ≤ 3 := by
  intro tree
  have stands : ∃ regex, tree.regex = .ok regex := ⟨_, rfl⟩
  obtain ⟨regex, stands⟩ := stands
  have success : tree.build = .ok regex.build := by
    rw [build_eq_regex, stands]
    rfl
  have width : tree.width = 3 := rfl
  obtain ⟨-, ⟨atEnd, -⟩, -, each⟩ := build_shaped success
  rw [width] at each
  exact ⟨regex.build, success, width, atEnd, fun vertex => (each vertex).2⟩

end Tree

end RegexAutomaton
