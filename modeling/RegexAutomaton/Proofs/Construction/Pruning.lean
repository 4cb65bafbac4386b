import Mathlib.Data.List.Basic
import RegexAutomaton.Proofs.Construction.Expression
import RegexAutomaton.Proofs.Tree.Visit

/-!
# Fields that do not count

A tree can be pruned: every node that is looked at keeps its kind and the one field that the kind uses, and the nodes in
that field are pruned in turn. What is cut off may be anything, nodes with defects included. The construction has the
same outcome for both trees, so trees with the same pruned tree are built alike.
-/

set_option autoImplicit false

namespace RegexAutomaton.Tree

mutual

/-- The tree without the fields that its nodes do not use. -/
def prune : Tree → Tree
  | node kind literal parts sub =>
      match Kind.ofValue? kind with
      | none => node kind none none none
      | some .empty => node kind none none none
      | some .text => node kind literal none none
      | some .alternation => node kind none (pruneParts parts) none
      | some .sequence => node kind none (pruneParts parts) none
      | some (.repetition _) => node kind none none (pruneSub sub)

def pruneParts : Option (List Tree) → Option (List Tree)
  | none => none
  | some parts => some (pruneAll parts)

def pruneSub : Option Tree → Option Tree
  | none => none
  | some sub => some (prune sub)

def pruneAll : List Tree → List Tree
  | [] => []
  | tree :: rest => prune tree :: pruneAll rest

end

/-- A node has no field but the one that its kind uses. -/
def Bare : Tree → Prop
  | node kind literal parts sub =>
      (literal ≠ none → Kind.ofValue? kind = some .text) ∧
        (parts ≠ none → Kind.ofValue? kind = some .alternation ∨ Kind.ofValue? kind = some .sequence) ∧
        (sub ≠ none → ∃ mode, Kind.ofValue? kind = some (.repetition mode))

/-! ## What is left of a tree -/

theorem pruneAll_eq (trees : List Tree) : pruneAll trees = trees.map prune := by
  induction trees with
  | nil => rfl
  | cons tree rest ih => rw [pruneAll, ih, List.map_cons]

theorem visitedAll_eq (trees : List Tree) : visitedAll trees = trees.flatMap visited := by
  induction trees with
  | nil => rfl
  | cons tree rest ih => rw [visitedAll, ih, List.flatMap_cons]

theorem bare_prune (tree : Tree) : tree.prune.Bare := by
  obtain ⟨kind, literal, parts, sub⟩ := tree
  rw [prune]
  split <;> rename_i named <;> simp [Bare, named]

theorem visitedParts_pruneParts {parts : Option (List Tree)}
    (each : ∀ trees, parts = some trees → ∀ tree ∈ trees, tree.prune.visited = tree.visited.map prune) :
    visitedParts (pruneParts parts) = (visitedParts parts).map prune := by
  cases parts with
  | none => rfl
  | some trees =>
      rw [pruneParts, visitedParts, visitedParts, pruneAll_eq, visitedAll_eq, visitedAll_eq, List.flatMap_map,
        List.map_flatMap]
      exact List.flatMap_congr (each trees rfl)

/-- The nodes that are looked at are the same ones, pruned. -/
theorem visited_prune (tree : Tree) : tree.prune.visited = tree.visited.map prune := by
  induction tree using Tree.induction with
  | node kind literal parts sub partsInduction subInduction =>
      have below := visitedParts_pruneParts partsInduction
      rw [visited, List.map_cons, prune]
      cases named : Kind.ofValue? kind with
      | none => simp only [visited, named, List.map_nil]
      | some known =>
          cases known with
          | empty => simp only [visited, named, List.map_nil]
          | text => simp only [visited, named, List.map_nil]
          | alternation => simp only [visited, named, below]
          | sequence => simp only [visited, named, below]
          | repetition mode =>
              cases sub with
              | none => simp only [visited, named, pruneSub, visitedSub, List.map_nil]
              | some body => simp only [visited, named, pruneSub, visitedSub, subInduction body rfl]

/-! ## The construction -/

theorem regexes_pruneAll {trees : List Tree} (each : ∀ tree ∈ trees, tree.prune.regex = tree.regex) :
    regexes (pruneAll trees) = regexes trees := by
  induction trees with
  | nil => rfl
  | cons tree rest ih =>
      rw [List.forall_mem_cons] at each
      rw [pruneAll, regexes, regexes, each.1, ih each.2]

/-- A tree stands for the expression that its pruned tree stands for, or has the same defect. -/
theorem regex_prune (tree : Tree) : tree.prune.regex = tree.regex := by
  induction tree using Tree.induction with
  | node kind literal parts sub partsInduction subInduction =>
      unfold prune
      cases named : Kind.ofValue? kind with
      | none =>
          unfold regex
          simp only [named]
      | some known =>
          cases known with
          | empty =>
              unfold regex
              simp only [named]
          | text =>
              unfold regex
              simp only [named]
          | alternation =>
              unfold regex
              rcases parts with _ | ⟨_ | ⟨first, others⟩⟩
              · simp only [named, pruneParts]
              · simp only [named, pruneParts, pruneAll]
              · have each := partsInduction _ rfl
                rw [List.forall_mem_cons] at each
                simp only [named, pruneParts, pruneAll, each.1, regexes_pruneAll each.2]
          | sequence =>
              unfold regex
              rcases parts with _ | ⟨_ | ⟨first, others⟩⟩
              · simp only [named, pruneParts]
              · simp only [named, pruneParts, pruneAll]
              · have each := partsInduction _ rfl
                rw [List.forall_mem_cons] at each
                simp only [named, pruneParts, pruneAll, each.1, regexes_pruneAll each.2]
          | repetition mode =>
              unfold regex
              cases sub with
              | none => simp only [named, pruneSub]
              | some body => simp only [named, pruneSub, subInduction body rfl]

theorem build_prune (tree : Tree) : tree.prune.build = tree.build := by
  rw [build_eq_regex, build_eq_regex, regex_prune]

/-- Of a tree the construction takes notice only of what is left when it is pruned: of the nodes that are looked at,
each with the one field that its kind uses. It gives the same automaton for the pruned tree, labels and the order of
transitions included, or the same defect, and so it does for any two trees that are the same when they are pruned. -/
theorem build_ignores_unused (tree : Tree) :
    ((∀ node ∈ tree.prune.visited, node.Bare) ∧ tree.prune.visited = tree.visited.map prune) ∧
      tree.prune.build = tree.build ∧ ∀ other : Tree, other.prune = tree.prune → other.build = tree.build := by
  refine ⟨⟨?_, tree.visited_prune⟩, tree.build_prune, ?_⟩
  · rw [visited_prune]
    intro node member
    obtain ⟨whole, -, rfl⟩ := List.mem_map.1 member
    exact whole.bare_prune
  · intro other same
    rw [← other.build_prune, same, build_prune]

/-- A choice without parts below a letter, a node without a kind beside the body of a repetition, and below a node that
has a defect itself. -/
theorem build_ignores_unused_defects :
    let junk := node .null none none none
    let tree := sequence [node (.text "text") (some "a") none (some (alternation [])),
      node (.text "star") (some "b") (some [junk]) (some (text "c"))]
    let other := sequence [text "a", repetition .star (node (.text "text") (some "c") (some [junk, junk]) none)]
    let failing := node (.text "or") (some "a") (some []) (some junk)
    (tree.prune = sequence [text "a", repetition .star (text "c")] ∧ other.prune = tree.prune ∧
        other.build = tree.build ∧ ∃ built, tree.build = .ok built) ∧
      failing.prune = alternation [] ∧ failing.prune.build = failing.build ∧
        failing.build = .error ⟨"Missing sub-nodes", .text "or", some (.text "parts")⟩ := by
  intro junk tree other failing
  obtain ⟨-, -, alike⟩ := build_ignores_unused tree
  obtain ⟨-, same, -⟩ := build_ignores_unused failing
  have stands : ∃ regex, tree.regex = .ok regex := ⟨_, rfl⟩
  obtain ⟨regex, stands⟩ := stands
  have defect : failing.build = .error ⟨"Missing sub-nodes", .text "or", some (.text "parts")⟩ := by
    rw [build_eq_regex]
    rfl
  exact ⟨⟨rfl, rfl, alike other rfl, regex.build, build_of_regex stands⟩, rfl, same, defect⟩

end RegexAutomaton.Tree
