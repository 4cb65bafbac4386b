import Mathlib.Data.List.Forall2
import RegexAutomaton.Proofs.Regex.Induction
import RegexAutomaton.Proofs.Tree.Failure
import RegexAutomaton.Proofs.Tree.Induction
import RegexAutomaton.Proofs.Tree.Visit
import RegexAutomaton.Regex.OfTree

/-!
# The nodes of an expression

An expression and everything that it is made of, each node before those below it, from left to right. The nodes of a
tree that are looked at stand one by one for the nodes of the expression that the tree stands for.
-/

set_option autoImplicit false

namespace RegexAutomaton

open StructureError

namespace Regex

mutual

def nodes : Regex → List Regex
  | empty => [empty]
  | text letter => [text letter]
  | alternation first others => alternation first others :: (first.nodes ++ nodesOfAll others)
  | sequence first others => sequence first others :: (first.nodes ++ nodesOfAll others)
  | repetition mode body => repetition mode body :: body.nodes

def nodesOfAll : List Regex → List Regex
  | [] => []
  | regex :: rest => regex.nodes ++ nodesOfAll rest

end

theorem nodesOfAll_eq (parts : List Regex) : nodesOfAll parts = parts.flatMap nodes := by
  induction parts with
  | nil => rfl
  | cons regex rest ih => rw [nodesOfAll, ih, List.flatMap_cons]

theorem nodes_alternation (first : Regex) (others : List Regex) :
    (alternation first others).nodes = alternation first others :: (first :: others).flatMap nodes := by
  rw [nodes, nodesOfAll_eq, List.flatMap_cons]

theorem nodes_sequence (first : Regex) (others : List Regex) :
    (sequence first others).nodes = sequence first others :: (first :: others).flatMap nodes := by
  rw [nodes, nodesOfAll_eq, List.flatMap_cons]

theorem nodes_repetition (mode : Repetition) (body : Regex) :
    (repetition mode body).nodes = repetition mode body :: [body].flatMap nodes := by
  rw [nodes, List.flatMap_singleton]

end Regex

namespace Tree

/-- What a tree that stands for an expression is made of. -/
inductive Stands : Tree → Regex → Prop
  | empty {kind : Value} {literal : Option String} {parts : Option (List Tree)} {sub : Option Tree}
      (named : Kind.ofValue? kind = some .empty) : Stands (.node kind literal parts sub) .empty
  | text {kind : Value} {literal : Option String} {parts : Option (List Tree)} {sub : Option Tree}
      {letter : Letter} (named : Kind.ofValue? kind = some .text)
      (spelled : literal.bind Letter.ofText? = some letter) : Stands (.node kind literal parts sub) (.text letter)
  | alternation {kind : Value} {literal : Option String} {trees : List Tree} {sub : Option Tree}
      {first : Regex} {others : List Regex} (named : Kind.ofValue? kind = some .alternation)
      (stand : regexes trees = .ok (first :: others)) :
      Stands (.node kind literal (some trees) sub) (.alternation first others)
  | sequence {kind : Value} {literal : Option String} {trees : List Tree} {sub : Option Tree}
      {first : Regex} {others : List Regex} (named : Kind.ofValue? kind = some .sequence)
      (stand : regexes trees = .ok (first :: others)) :
      Stands (.node kind literal (some trees) sub) (.sequence first others)
  | repetition {kind : Value} {literal : Option String} {parts : Option (List Tree)} {tree : Tree}
      {mode : Repetition} {body : Regex} (named : Kind.ofValue? kind = some (.repetition mode))
      (stands : tree.regex = .ok body) : Stands (.node kind literal parts (some tree)) (.repetition mode body)

theorem regexes_cons {tree : Tree} {rest : List Tree} {parts : List Regex}
    (stand : regexes (tree :: rest) = .ok parts) :
    ∃ first others, parts = first :: others ∧ tree.regex = .ok first ∧ regexes rest = .ok others := by
  obtain ⟨first, firstStands, restStand⟩ := bind_eq_ok_iff.1 stand
  obtain ⟨others, othersStand, made⟩ := bind_eq_ok_iff.1 restStand
  cases made
  exact ⟨first, others, rfl, firstStands, othersStand⟩

/-- The parts of a choice or a sequence, which is made from the first one and the others. -/
theorem regexes_of_bind {first : Tree} {others : List Tree} {make : Regex → List Regex → Regex} {regex : Regex}
    (stands : (do
      let first ← first.regex
      let others ← regexes others
      return make first others) = Except.ok regex) :
    ∃ firstPart otherParts, regex = make firstPart otherParts ∧
      regexes (first :: others) = .ok (firstPart :: otherParts) := by
  obtain ⟨firstPart, firstStands, rest⟩ := bind_eq_ok_iff.1 stands
  obtain ⟨otherParts, othersStand, made⟩ := bind_eq_ok_iff.1 rest
  cases made
  refine ⟨firstPart, otherParts, rfl, ?_⟩
  rw [regexes, firstStands, othersStand]
  rfl

theorem stands_of_regex {tree : Tree} {regex : Regex} (success : tree.regex = .ok regex) : tree.Stands regex := by
  obtain ⟨kind, literal, parts, sub⟩ := tree
  unfold Tree.regex at success
  cases named : Kind.ofValue? kind with
  | none =>
      rw [named] at success
      cases success
  | some known =>
      rw [named] at success
      cases known with
      | empty =>
          cases success
          exact .empty named
      | text =>
          dsimp only at success
          split at success
          · rename_i letter spelled
            cases success
            exact .text named spelled
          · cases success
      | alternation =>
          dsimp only at success
          split at success
          · obtain ⟨first, others, rfl, stand⟩ := regexes_of_bind success
            exact .alternation named stand
          · cases success
      | sequence =>
          dsimp only at success
          split at success
          · obtain ⟨first, others, rfl, stand⟩ := regexes_of_bind success
            exact .sequence named stand
          · cases success
      | repetition mode =>
          cases sub with
          | none => cases success
          | some tree =>
              obtain ⟨body, stands, made⟩ := bind_eq_ok_iff.1 success
              cases made
              exact .repetition named stands

/-! ## Nodes of trees and nodes of expressions -/

theorem map_regex_visitedAll {trees : List Tree} {parts : List Regex} (stand : regexes trees = .ok parts)
    (below : ∀ tree ∈ trees, ∀ {regex}, tree.regex = .ok regex →
      tree.visited.map Tree.regex = regex.nodes.map Except.ok) :
    (visitedAll trees).map Tree.regex = (parts.flatMap Regex.nodes).map Except.ok := by
  induction trees generalizing parts with
  | nil =>
      cases stand
      rfl
  | cons tree rest ih =>
      rw [List.forall_mem_cons] at below
      obtain ⟨first, others, rfl, firstStands, othersStand⟩ := regexes_cons stand
      rw [visitedAll, List.flatMap_cons, List.map_append, List.map_append, below.1 firstStands,
        ih othersStand below.2]

/-- The nodes that are looked at stand for the nodes of the expression, in the same order. -/
theorem map_regex_visited {tree : Tree} {regex : Regex} (stands : tree.regex = .ok regex) :
    tree.visited.map Tree.regex = regex.nodes.map Except.ok := by
  induction tree using Tree.induction generalizing regex with
  | node kind literal parts sub partsInduction subInduction =>
      rw [visited, List.map_cons, stands]
      cases stands_of_regex stands with
      | empty named =>
          rw [named]
          rfl
      | text named spelled =>
          rw [named]
          rfl
      | alternation named stand =>
          rw [named, Regex.nodes_alternation, List.map_cons]
          exact congrArg _ (map_regex_visitedAll stand (partsInduction _ rfl))
      | sequence named stand =>
          rw [named, Regex.nodes_sequence, List.map_cons]
          exact congrArg _ (map_regex_visitedAll stand (partsInduction _ rfl))
      | repetition named bodyStands =>
          rw [named, Regex.nodes, List.map_cons]
          exact congrArg _ (subInduction _ rfl bodyStands)

/-- What can be told of a node by its expression is told of the nodes that are looked at by the nodes of the
expression. -/
theorem map_visited {α : Type} {ofTree : Tree → α} {ofRegex : Regex → α}
    (same : ∀ {node part}, node.regex = .ok part → ofTree node = ofRegex part) {tree : Tree} {regex : Regex}
    (stands : tree.regex = .ok regex) : tree.visited.map ofTree = regex.nodes.map ofRegex := by
  have pairs := map_regex_visited stands
  rw [← List.forall₂_eq_eq_eq, List.forall₂_map_left_iff, List.forall₂_map_right_iff] at pairs ⊢
  exact pairs.imp fun _ _ => same

theorem length_regexes {trees : List Tree} {parts : List Regex} (stand : regexes trees = .ok parts) :
    trees.length = parts.length := by
  induction trees generalizing parts with
  | nil =>
      cases stand
      rfl
  | cons tree rest ih =>
      obtain ⟨first, others, rfl, -, othersStand⟩ := regexes_cons stand
      rw [List.length_cons, List.length_cons, ih othersStand]

end Tree

end RegexAutomaton
