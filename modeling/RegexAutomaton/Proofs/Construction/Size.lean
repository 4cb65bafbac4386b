import RegexAutomaton.Proofs.Automaton.Outline
import RegexAutomaton.Proofs.Construction.Arcs
import RegexAutomaton.Proofs.Construction.Relocation
import RegexAutomaton.Proofs.Label.Padding
import RegexAutomaton.Proofs.Regex.Nodes

/-!
# The size of an automaton

How many states and transitions an automaton has can be told from the tree: every node adds some of its own to those
of its parts. Nothing is shared and nothing is left out, whatever the walk through the finished graph looks like.
-/

set_option autoImplicit false

namespace RegexAutomaton

namespace Kind

/-- The states that a node of a kind with some parts adds to those of its parts. -/
def ownStates : Kind → Nat → Nat
  | empty, _ => 1
  | text, _ => 1
  | alternation, parts => parts + 1
  | sequence, _ => 0
  | repetition _, _ => 2

/-- The transitions that a node of a kind with some parts adds to those of its parts. -/
def ownArcs : Kind → Nat → Nat
  | empty, _ => 1
  | text, _ => 1
  | alternation, parts => 2 * parts
  | sequence, _ => 0
  | repetition .star, _ => 4
  | repetition .plus, _ => 3
  | repetition .optional, _ => 3

end Kind

namespace Tree

variable (own : Kind → Nat → Nat)

mutual

/-- What a node adds and what the nodes add that are looked at below it. -/
def total : Tree → Nat
  | node kind _ parts sub =>
      match Kind.ofValue? kind with
      | none => 0
      | some .empty => own .empty 0
      | some .text => own .text 0
      | some .alternation => own .alternation (parts.getD []).length + totalParts parts
      | some .sequence => own .sequence (parts.getD []).length + totalParts parts
      | some (.repetition mode) => own (.repetition mode) 1 + totalSub sub

def totalParts : Option (List Tree) → Nat
  | none => 0
  | some parts => totalAll parts

def totalSub : Option Tree → Nat
  | none => 0
  | some sub => total sub

def totalAll : List Tree → Nat
  | [] => 0
  | tree :: rest => total tree + totalAll rest

end

end Tree

namespace Regex

section Total

variable (own : Kind → Nat → Nat)

mutual

def total : Regex → Nat
  | empty => own .empty 0
  | text _ => own .text 0
  | alternation first others => own .alternation (others.length + 1) + (first.total + totalOfAll others)
  | sequence first others => own .sequence (others.length + 1) + (first.total + totalOfAll others)
  | repetition mode body => own (.repetition mode) 1 + body.total

def totalOfAll : List Regex → Nat
  | [] => 0
  | regex :: rest => regex.total + totalOfAll rest

end

end Total

theorem statesOfAll_eq_total (parts : List Regex) (each : ∀ part ∈ parts, part.states = part.total Kind.ownStates) :
    statesOfAll parts = totalOfAll Kind.ownStates parts := by
  induction parts with
  | nil => rfl
  | cons regex rest ih =>
      rw [List.forall_mem_cons] at each
      rw [statesOfAll, totalOfAll, each.1, ih each.2]

theorem states_eq_total (regex : Regex) : regex.states = regex.total Kind.ownStates := by
  induction regex using Regex.induction with
  | empty => rfl
  | text letter => rfl
  | alternation first others ih =>
      have parts := statesOfAll_eq_total (first :: others) ih
      simp only [statesOfAll, totalOfAll] at parts
      simp only [states, total, Kind.ownStates]
      omega
  | sequence first others ih =>
      have parts := statesOfAll_eq_total (first :: others) ih
      simp only [statesOfAll, totalOfAll] at parts
      simp only [states, total, Kind.ownStates]
      omega
  | repetition mode body ih =>
      simp only [states, total, Kind.ownStates]
      omega

theorem length_branchEnds (parts : List Regex) (base : Nat) : (branchEnds parts base).length = parts.length := by
  induction parts generalizing base with
  | nil => rfl
  | cons regex rest ih => rw [branchEnds, List.length_cons, List.length_cons, ih]

/-- Wherever the fragment of an expression is, it has as many arcs as the nodes add. -/
theorem length_arcs (regex : Regex) (start base : Nat) (before : start < base) :
    (regex.arcs start base).length = regex.total Kind.ownArcs := by
  induction regex, start, base, before using Regex.layoutInduction
    (fun parts start base =>
      (branchArcs parts start base).length = parts.length + totalOfAll Kind.ownArcs parts)
    (fun parts start base => (chainArcs parts start base).length = totalOfAll Kind.ownArcs parts) with
  | empty start base before => rfl
  | text letter start base before => rfl
  | noBranch start base => rfl
  | branch regex rest start base before first others =>
      simp only [branchArcs, totalOfAll, List.length_append, List.length_cons]
      omega
  | alternation first others start base before parts =>
      rw [arcs_alternation, List.length_append, parts, closingBranches, List.length_map, length_branchEnds]
      simp only [total, totalOfAll, Kind.ownArcs, List.length_cons]
      omega
  | noLink start base before => rfl
  | link regex rest start base before first others =>
      rw [chainArcs, totalOfAll, List.length_append, first, others]
  | sequence first others start base before parts =>
      rw [arcs_sequence, parts]
      simp only [total, totalOfAll, Kind.ownArcs, Nat.zero_add]
  | repetition mode body start base before inner =>
      rw [arcs, List.length_append, List.length_cons, inner, total]
      cases mode <;> simp only [Construction.closingArcs, Repetition.loops, Repetition.skips, Kind.ownArcs] <;>
        simp <;> omega

/-! ## What the construction says of itself -/

theorem note_build (regex : Regex) :
    regex.build.note =
      "Built " ++ toString regex.build.count ++ " states from (0) to (" ++ toString (regex.build.count - 1) ++ ")" := by
  have count := regex.count_build
  have accept : regex.build.automaton.accept = regex.build.count - 1 := by
    rw [regex.accept_build, regex.accept_eq_states, count, Nat.add_sub_cancel]
  have first : regex.build.automaton.graph.label 0 = (0 : Nat) := regex.label_build (by omega)
  have last : regex.build.automaton.graph.label (regex.build.count - 1) = (regex.build.count - 1 : Nat) :=
    regex.label_build (by omega)
  unfold Built.note Graph.stateName
  dsimp only
  rw [initial_build, accept, first, last, Label.padded_one, Label.padded_one]
  simp [← String.toList_inj]

end Regex

namespace Tree

variable {own : Kind → Nat → Nat}

theorem totalAll_of_regexes {trees : List Tree} {parts : List Regex} (stand : regexes trees = .ok parts)
    (each : ∀ tree ∈ trees, ∀ {regex}, tree.regex = .ok regex → tree.total own = regex.total own) :
    totalAll own trees = Regex.totalOfAll own parts := by
  induction trees generalizing parts with
  | nil =>
      cases stand
      rfl
  | cons tree rest ih =>
      rw [List.forall_mem_cons] at each
      obtain ⟨first, others, rfl, firstStands, othersStand⟩ := regexes_cons stand
      rw [totalAll, Regex.totalOfAll, each.1 firstStands, ih othersStand each.2]

/-- The parts of a choice or a sequence, together with what the node itself adds. -/
theorem totalParts_of_regexes (kind : Kind) {trees : List Tree} {first : Regex} {others : List Regex}
    (stand : regexes trees = .ok (first :: others))
    (each : ∀ tree ∈ trees, ∀ {regex}, tree.regex = .ok regex → tree.total own = regex.total own) :
    own kind trees.length + totalParts own (some trees) =
      own kind (others.length + 1) + (first.total own + Regex.totalOfAll own others) := by
  rw [totalParts, totalAll_of_regexes stand each, Regex.totalOfAll, length_regexes stand, List.length_cons]

theorem total_of_regex {tree : Tree} {regex : Regex} (stands : tree.regex = .ok regex) :
    tree.total own = regex.total own := by
  induction tree using Tree.induction generalizing regex with
  | node kind literal parts sub partsInduction subInduction =>
      rw [total]
      cases stands_of_regex stands with
      | empty named => rw [named, Regex.total]
      | text named spelled => rw [named, Regex.total]
      | alternation named stand =>
          rw [named, Regex.total]
          exact totalParts_of_regexes .alternation stand (partsInduction _ rfl)
      | sequence named stand =>
          rw [named, Regex.total]
          exact totalParts_of_regexes .sequence stand (partsInduction _ rfl)
      | repetition named bodyStands =>
          rw [named, Regex.total]
          exact congrArg _ (subInduction _ rfl bodyStands)

end Tree

/-! ## The size of an automaton and of its export -/

namespace Automaton

variable (automaton : Automaton)

theorem size_eq : automaton.size = (automaton.states.length, automaton.arcs.length) := by
  have transitions : ∀ states : List Vertex,
      states.foldr (fun vertex count => (automaton.graph.transitions vertex).length + count) 0 =
        (states.flatMap fun vertex => (automaton.graph.transitions vertex).map fun transition =>
          (⟨vertex, transition.symbol, transition.target⟩ : Arc)).length := by
    intro states
    induction states with
    | nil => rfl
    | cons vertex rest ih => rw [List.foldr_cons, ih, List.flatMap_cons, List.length_append, List.length_map]
  rw [size, arcs, transitions]

theorem length_nodes_toExport (split : Bool) :
    (automaton.toExport split).nodes.length = automaton.states.length := by
  rw [nodes_toExport, elements, List.filter_map, List.length_map, states, List.length_filterMap_eq_countP,
    List.countP_eq_length_filter]
  congr 2
  funext item
  cases item <;> rfl

theorem length_edges_toExport (split : Bool) :
    (automaton.toExport split).edges.length = automaton.arcs.length := by
  rw [edges_toExport, elements, List.filter_map, List.length_map, ← automaton.followed_perm.length_eq,
    List.length_filterMap_eq_countP, List.countP_eq_length_filter]
  congr 2
  funext item
  cases item <;> rfl

end Automaton

namespace Tree

/-- An automaton that has been built has one state more than the nodes of its tree add, and the transitions that they
add. This is what the construction counts and reports, and how many nodes and edges an export has. -/
theorem build_sizes {tree : Tree} {built : Built} (success : tree.build = .ok built) :
    let states := 1 + tree.total Kind.ownStates
    let arcs := tree.total Kind.ownArcs
    (built.automaton.states.length = states ∧ built.automaton.arcs.length = arcs ∧
        built.automaton.size = (states, arcs)) ∧
      (built.count = states ∧
        built.note = "Built " ++ toString states ++ " states from (0) to (" ++ toString (states - 1) ++ ")") ∧
      ∀ split, (built.automaton.toExport split).nodes.length = states ∧
        (built.automaton.toExport split).edges.length = arcs := by
  intro states arcs
  obtain ⟨regex, stands, rfl⟩ := regex_of_build success
  have statesEq : regex.states + 1 = states := by
    rw [regex.states_eq_total, ← total_of_regex stands, Nat.add_comm]
  have found : regex.build.automaton.states.length = states := regex.length_states_build.trans statesEq
  have count : regex.build.count = states := regex.count_build.trans statesEq
  have followed : regex.build.automaton.arcs.length = arcs := by
    rw [regex.arcs_build_perm.length_eq, regex.length_arcs 0 1 Nat.one_pos, ← total_of_regex stands]
  refine ⟨⟨found, followed, ?_⟩, ⟨count, ?_⟩, ?_⟩
  · rw [Automaton.size_eq, found, followed]
  · rw [regex.note_build, count]
  · intro split
    rw [Automaton.length_nodes_toExport, Automaton.length_edges_toExport]
    exact ⟨found, followed⟩

/-- A choice of three parts has two loops in it, one around a repetition, and the same letter twice. -/
theorem build_sizes_nested :
    let tree := alternation [repetition .star (sequence [text "a", empty, text "a"]),
      repetition .plus (repetition .optional (text "b")), sequence [empty]]
    ∃ built, tree.build = .ok built ∧ built.automaton.size = (16, 21) ∧
      built.note = "Built 16 states from (0) to (15)" ∧ (built.automaton.toExport false).edges.length = 21 := by
  intro tree
  have stands : ∃ regex, tree.regex = .ok regex := ⟨_, rfl⟩
  obtain ⟨regex, stands⟩ := stands
  have success := build_of_regex stands
  have states : 1 + tree.total Kind.ownStates = 16 := rfl
  have arcs : tree.total Kind.ownArcs = 21 := rfl
  obtain ⟨⟨-, -, size⟩, ⟨-, note⟩, exported⟩ := build_sizes success
  rw [states] at size note
  rw [arcs] at size
  refine ⟨regex.build, success, size, note, ?_⟩
  rw [(exported false).2, arcs]

end Tree

end RegexAutomaton
