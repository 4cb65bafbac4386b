import RegexAutomaton.Proofs.Construction.Arcs
import RegexAutomaton.Proofs.Regex.Nodes

/-!
# Where an automaton turns back

States are numbered as they are allocated, and nearly all transitions lead to a later state. The others close the loops
of the stars and pluses, one for each: a void transition from the end of the body back to the state that the body is
attached to, from where the way through the body leads on to it. So an automaton has a cycle only if the expression has
a loop.
-/

set_option autoImplicit false

namespace RegexAutomaton

open Construction

/-! ## Paths that lead on -/

namespace Graph

variable {graph : Graph}

/-- When all transitions lead on, all paths do. -/
theorem lt_of_isPath (onward : ∀ vertex, ∀ transition ∈ graph.transitions vertex, vertex < transition.target)
    {source target : Vertex} {path : List Transition} (isPath : graph.IsPath source path target)
    (nonempty : path ≠ []) : source < target := by
  induction path generalizing source with
  | nil => exact absurd rfl nonempty
  | cons transition rest ih =>
      have first : source < transition.target := onward source transition isPath.1
      by_cases ended : rest = []
      · subst ended
        obtain rfl : transition.target = target := isPath.2
        exact first
      · exact Nat.lt_trans first (ih isPath.2 ended)

end Graph

/-! ## Arcs that lead back -/

/-- A void arc to an earlier vertex, from where some way leads to its source again. -/
structure Arc.Returns (graph : Graph) (arc : Arc) : Prop where
  earlier : arc.target < arc.source
  void : arc.symbol = Symbol.epsilon
  around : graph.Reaches none arc.target arc.source

/-- So many of the arcs return, and all others lead to later vertices. -/
structure Graph.Turns (graph : Graph) (arcs : List Arc) (count : Nat) : Prop where
  each : ∀ arc ∈ arcs, arc.source < arc.target ∨ arc.Returns graph
  countP_eq : arcs.countP (fun arc => arc.target < arc.source) = count

namespace Graph

variable {graph : Graph}

theorem turns_of_onward {arcs : List Arc} (onward : ∀ arc ∈ arcs, arc.source < arc.target) : graph.Turns arcs 0 where
  each arc member := .inl (onward arc member)
  countP_eq := by
    apply List.countP_eq_zero.2
    intro arc member
    have later := onward arc member
    simpa using Nat.le_of_lt later

theorem turns_of_returns {arc : Arc} (returns : arc.Returns graph) : graph.Turns [arc] 1 where
  each other member := by
    obtain rfl := List.mem_singleton.1 member
    exact .inr returns
  countP_eq := by simp [returns.earlier]

theorem Turns.append {first rest : List Arc} {count more : Nat} (turns : graph.Turns first count)
    (restTurns : graph.Turns rest more) : graph.Turns (first ++ rest) (count + more) where
  each := List.forall_mem_append.2 ⟨turns.each, restTurns.each⟩
  countP_eq := by rw [List.countP_append, turns.countP_eq, restTurns.countP_eq]

theorem Turns.cons {arc : Arc} {rest : List Arc} {count : Nat} (turns : graph.Turns rest count)
    (onward : arc.source < arc.target) : graph.Turns (arc :: rest) count where
  each := List.forall_mem_cons.2 ⟨.inl onward, turns.each⟩
  countP_eq := by
    rw [List.countP_cons_of_neg (by simpa using Nat.le_of_lt onward)]
    exact turns.countP_eq

end Graph

namespace Regex

def isLoop : Regex → Bool
  | repetition mode _ => mode.loops
  | _ => false

/-- The number of stars and pluses in an expression. -/
def loops (regex : Regex) : Nat :=
  regex.nodes.countP isLoop

theorem countP_flatMap_nodes (parts : List Regex) : (parts.flatMap nodes).countP isLoop = (parts.map loops).sum :=
  List.countP_flatMap

theorem loops_alternation (first : Regex) (others : List Regex) :
    (alternation first others).loops = ((first :: others).map loops).sum := by
  rw [loops, nodes_alternation, List.countP_cons_of_neg (by simp [isLoop]), countP_flatMap_nodes]

theorem loops_sequence (first : Regex) (others : List Regex) :
    (sequence first others).loops = ((first :: others).map loops).sum := by
  rw [loops, nodes_sequence, List.countP_cons_of_neg (by simp [isLoop]), countP_flatMap_nodes]

theorem loops_repetition (mode : Repetition) (body : Regex) :
    (repetition mode body).loops = body.loops + if mode.loops then 1 else 0 := by
  rw [loops, nodes, List.countP_cons]
  rfl

/-- Wherever the fragment of an expression is, one arc returns for each star and plus. -/
theorem turns_arcs {graph : Graph} (regex : Regex) (start base : Nat) (before : start < base)
    (holds : graph.Holds (regex.arcs start base)) : graph.Turns (regex.arcs start base) regex.loops := by
  induction regex, start, base, before using Regex.layoutInduction
    (fun parts start base =>
      graph.Holds (branchArcs parts start base) → graph.Turns (branchArcs parts start base) (parts.map loops).sum)
    (fun parts start base =>
      graph.Holds (chainArcs parts start base) → graph.Turns (chainArcs parts start base) (parts.map loops).sum) with
  | empty start base before => exact Graph.turns_of_onward (List.forall_mem_singleton.2 before)
  | text letter start base before => exact Graph.turns_of_onward (List.forall_mem_singleton.2 before)
  | noBranch start base _ => exact Graph.turns_of_onward (by simp [branchArcs])
  | branch regex rest start base before ih restInduction holds =>
      rw [branchArcs, Graph.holds_append, Graph.holds_cons] at holds
      obtain ⟨⟨-, inner⟩, others⟩ := holds
      rw [branchArcs, List.map_cons, List.sum_cons]
      exact ((ih inner).cons before).append (restInduction others)
  | alternation first others start base before ih =>
      rw [arcs_alternation, Graph.holds_append] at holds
      have closing : ∀ arc ∈ closingBranches (first :: others) base ((alternation first others).accept base),
          arc.source < arc.target := by
        intro arc member
        obtain ⟨last, isEnd, rfl⟩ := List.mem_map.1 member
        rw [accept_alternation]
        exact (branchEnds_lt _ _ last isEnd).2
      rw [arcs_alternation, loops_alternation]
      exact (ih holds.1).append (Graph.turns_of_onward closing)
  | noLink start base _ _ => exact Graph.turns_of_onward (by simp [chainArcs])
  | link regex rest start base before ih restInduction holds =>
      rw [chainArcs, Graph.holds_append] at holds
      rw [chainArcs, List.map_cons, List.sum_cons]
      exact (ih holds.1).append (restInduction holds.2)
  | sequence first others start base before ih =>
      rw [arcs_sequence] at holds ⊢
      rw [loops_sequence]
      exact ih holds
  | repetition mode body start base before ih =>
      rw [arcs, Graph.holds_append, Graph.holds_cons] at holds
      obtain ⟨⟨-, inner⟩, -⟩ := holds
      have through := body.connects.reaches_accept inner
      have endAbove := body.le_accept (base + 1)
      have endEq := body.accept_succ (base + 1)
      have entering : graph.Turns (⟨start, Symbol.epsilon, base⟩ :: body.arcs base (base + 1)) body.loops :=
        (ih inner).cons before
      have back : graph.Turns (if mode.loops then [⟨body.accept (base + 1), Symbol.epsilon, base⟩] else [])
          (if mode.loops then 1 else 0) := by
        cases mode.loops with
        | true => exact Graph.turns_of_returns ⟨endAbove, rfl, through⟩
        | false => exact Graph.turns_of_onward (by simp)
      have leaving : graph.Turns ([⟨body.accept (base + 1), Symbol.epsilon, base + 1 + body.states⟩] ++
          (if mode.skips then [⟨start, Symbol.epsilon, base + 1 + body.states⟩] else [])) 0 := by
        apply Graph.turns_of_onward
        cases mode.skips <;> simp <;> omega
      rw [arcs, loops_repetition, closingArcs, List.append_assoc]
      exact entering.append (back.append leaving)

/-! ## The automaton of an expression -/

variable (regex : Regex)

theorem turns_build : regex.build.automaton.graph.Turns (regex.arcs 0 1) regex.loops :=
  regex.turns_arcs 0 1 Nat.one_pos regex.holds_build

/-- An automaton has a cycle exactly when some arc returns. -/
theorem exists_cycle_iff :
    (∃ vertex ∈ regex.build.automaton.states, ∃ path, path ≠ [] ∧
        regex.build.automaton.graph.IsPath vertex path vertex) ↔ 0 < regex.loops := by
  constructor
  · rintro ⟨vertex, -, path, nonempty, isPath⟩
    apply Nat.pos_of_ne_zero
    intro none
    have noneBack := regex.turns_build.countP_eq.trans none
    rw [List.countP_eq_zero] at noneBack
    refine Nat.lt_irrefl vertex (Graph.lt_of_isPath ?_ isPath nonempty)
    intro source transition leaves
    rw [transitions_build] at leaves
    obtain ⟨arc, member, rfl⟩ := List.mem_map.1 leaves
    obtain ⟨isArc, here⟩ := List.mem_filter.1 member
    obtain rfl := of_decide_eq_true here
    have notBack := noneBack arc isArc
    rcases regex.turns_build.each arc isArc with onward | returns
    · exact onward
    · exact absurd (decide_eq_true returns.earlier) notBack
  · intro some
    rw [← regex.turns_build.countP_eq, List.countP_pos_iff] at some
    obtain ⟨arc, isArc, back⟩ := some
    have earlier := of_decide_eq_true back
    rcases regex.turns_build.each arc isArc with onward | returns
    · exact absurd onward (Nat.lt_asymm earlier)
    · obtain ⟨path, isPath, -⟩ := returns.around
      have closing := Graph.isPath_single (regex.holds_build arc isArc)
      exact ⟨arc.source, (regex.mem_states_build arc.source).2 (ends_of_mem_arcs isArc).1, _, List.cons_ne_nil _ _,
        Graph.isPath_append closing isPath⟩

end Regex

namespace Tree

/-- Whether a node is a star or a plus. -/
def isLoop : Tree → Bool
  | node kind _ _ _ =>
      match Kind.ofValue? kind with
      | some (.repetition mode) => mode.loops
      | _ => false

theorem isLoop_of_regex {tree : Tree} {regex : Regex} (stands : tree.regex = .ok regex) :
    tree.isLoop = regex.isLoop := by
  cases stands_of_regex stands with
  | empty named => rw [isLoop, named]; rfl
  | text named spelled => rw [isLoop, named]; rfl
  | alternation named stand => rw [isLoop, named]; rfl
  | sequence named stand => rw [isLoop, named]; rfl
  | repetition named bodyStands => rw [isLoop, named]; rfl

theorem countP_isLoop_visited {tree : Tree} {regex : Regex} (stands : tree.regex = .ok regex) :
    tree.visited.countP isLoop = regex.loops := by
  have marks := congrArg (List.countP id) (map_visited isLoop_of_regex stands)
  rw [List.countP_map, List.countP_map] at marks
  exact marks

/-- No transition of an automaton that has been built leads back to its own state. The transitions to a smaller label
are void and as many as there are stars and pluses among the nodes that are looked at, and all others lead to a greater
label. So there is a cycle if and only if there is a star or a plus. -/
theorem build_turns {tree : Tree} {built : Built} (success : tree.build = .ok built) :
    let graph := built.automaton.graph
    (∀ arc ∈ built.automaton.arcs, arc.target ≠ arc.source) ∧
      (built.automaton.arcs.countP fun arc => graph.label arc.target < graph.label arc.source) =
        tree.visited.countP isLoop ∧
      (∀ arc ∈ built.automaton.arcs,
        (graph.label arc.target < graph.label arc.source ∧ arc.symbol = Symbol.epsilon) ∨
          graph.label arc.source < graph.label arc.target) ∧
      ((∃ vertex ∈ built.automaton.states, ∃ path, path ≠ [] ∧ graph.IsPath vertex path vertex) ↔
        ∃ node ∈ tree.visited, node.isLoop = true) := by
  intro graph
  obtain ⟨regex, stands, rfl⟩ := regex_of_build success
  have turns := regex.turns_build
  have arcs := regex.arcs_build_perm
  have labels : ∀ arc ∈ regex.arcs 0 1, graph.label arc.source = arc.source ∧ graph.label arc.target = arc.target :=
    fun arc isArc => Regex.labels_of_mem_arcs isArc
  have runs : ∀ arc ∈ regex.build.automaton.arcs, arc.source < arc.target ∨ arc.Returns graph :=
    fun arc member => turns.each arc (arcs.mem_iff.1 member)
  refine ⟨?_, ?_, ?_, ?_⟩
  · intro arc member
    rcases runs arc member with onward | returns
    · exact Nat.ne_of_gt onward
    · exact Nat.ne_of_lt returns.earlier
  · rw [arcs.countP_eq, countP_isLoop_visited stands, ← turns.countP_eq]
    apply List.countP_congr
    intro arc isArc
    rw [(labels arc isArc).1, (labels arc isArc).2]
    simp
  · intro arc member
    obtain ⟨source, target⟩ := labels arc (arcs.mem_iff.1 member)
    rw [source, target, Int.ofNat_lt, Int.ofNat_lt]
    rcases runs arc member with onward | returns
    · exact .inr onward
    · exact .inl ⟨returns.earlier, returns.void⟩
  · rw [regex.exists_cycle_iff, ← countP_isLoop_visited stands, List.countP_pos_iff]

/-- Three loops, two of them inside the third, and a star in a field that is not looked at. -/
theorem build_turns_nested :
    let unused := repetition .star (text "a")
    let tree := repetition .star (sequence [repetition .plus (.node (.text "text") (some "a") none (some unused)),
      repetition .optional (repetition .star empty)])
    ∃ built, tree.build = .ok built ∧
      (built.automaton.arcs.countP fun arc =>
        built.automaton.graph.label arc.target < built.automaton.graph.label arc.source) = 3 ∧
      ∃ vertex ∈ built.automaton.states, ∃ path, path ≠ [] ∧ built.automaton.graph.IsPath vertex path vertex := by
  intro unused tree
  have stands : ∃ regex, tree.regex = .ok regex := ⟨_, rfl⟩
  obtain ⟨regex, stands⟩ := stands
  have success := build_of_regex stands
  have loops : tree.visited.countP isLoop = 3 := rfl
  obtain ⟨-, back, -, cycle⟩ := build_turns success
  refine ⟨regex.build, success, back.trans loops, cycle.2 ?_⟩
  exact List.countP_pos_iff.1 (Nat.lt_of_lt_of_eq (by decide) loops.symm)

end Tree

end RegexAutomaton
