import RegexAutomaton.Proofs.Construction.Recursion
import RegexAutomaton.Regex.OfTree

/-!
# The construction of an expression

An expression has no defects, so its fragment is always built. A tree has the fragment of the expression
that it stands for, and where it stands for none the construction stops at the defect that says so.
-/

set_option autoImplicit false

namespace RegexAutomaton

open Construction

namespace Regex

mutual

/-- Attaches the fragment of an expression to a state: where it ends, and the graph with it. -/
def attach : Regex → Vertex → Builder → Vertex × Builder
  | empty, start, builder => attachSymbol builder start Symbol.epsilon
  | text letter, start, builder => attachSymbol builder start letter.symbol
  | alternation first others, start, builder =>
      let (entry, builder) := attachSymbol builder start Symbol.epsilon
      let (last, builder) := first.attach entry builder
      let (ends, builder) := attachBranches others start builder
      closeAlternation builder (last :: ends)
  | sequence first others, start, builder =>
      let (last, builder) := first.attach start builder
      attachChain others last builder
  | repetition mode body, start, builder =>
      let (inner, builder) := attachSymbol builder start Symbol.epsilon
      let (last, builder) := body.attach inner builder
      closeRepetition builder mode start inner last

def attachBranches : List Regex → Vertex → Builder → List Vertex × Builder
  | [], _, builder => ([], builder)
  | regex :: rest, start, builder =>
      let (entry, builder) := attachSymbol builder start Symbol.epsilon
      let (last, builder) := regex.attach entry builder
      let (ends, builder) := attachBranches rest start builder
      (last :: ends, builder)

def attachChain : List Regex → Vertex → Builder → Vertex × Builder
  | [], start, builder => (start, builder)
  | regex :: rest, start, builder =>
      let (last, builder) := regex.attach start builder
      attachChain rest last builder

end

def build (regex : Regex) : Built :=
  let (initial, builder) := Builder.empty.allocate
  let (accept, builder) := regex.attach initial builder
  ⟨⟨"NFA", builder.graph, initial, accept⟩, builder.count⟩

end Regex

namespace Construction

theorem attachBranches_eq (trees : List Tree)
    (parts : ∀ tree ∈ trees, ∀ start builder,
      attach tree start builder = (do let regex ← tree.regex; return regex.attach start builder))
    (start : Vertex) (builder : Builder) :
    attachBranches trees start builder =
      (do let regexes ← Tree.regexes trees; return Regex.attachBranches regexes start builder) := by
  induction trees generalizing builder with
  | nil => rfl
  | cons tree rest ih =>
      have restAttached := ih fun part member => parts part (by simp [member])
      simp only [attachBranches, Tree.regexes, parts tree (by simp), restAttached, bind_assoc,
        pure_bind]
      rfl

theorem attachChain_eq (trees : List Tree)
    (parts : ∀ tree ∈ trees, ∀ start builder,
      attach tree start builder = (do let regex ← tree.regex; return regex.attach start builder))
    (start : Vertex) (builder : Builder) :
    attachChain trees start builder =
      (do let regexes ← Tree.regexes trees; return Regex.attachChain regexes start builder) := by
  induction trees generalizing start builder with
  | nil => rfl
  | cons tree rest ih =>
      have restAttached := ih fun part member => parts part (by simp [member])
      simp only [attachChain, Tree.regexes, parts tree (by simp), restAttached, bind_assoc,
        pure_bind]
      rfl

/-- A tree has the fragment of its expression, or the defect for which it has none. -/
theorem attach_eq (tree : Tree) (start : Vertex) (builder : Builder) :
    attach tree start builder = (do let regex ← tree.regex; return regex.attach start builder) := by
  induction tree using Tree.induction generalizing start builder with
  | node kind literal parts sub partsInduction subInduction =>
      unfold attach Tree.regex
      cases named : Kind.ofValue? kind with
      | none => rfl
      | some known =>
          cases known with
          | empty => rfl
          | text => cases found : literal.bind Letter.ofText? <;> rfl
          | alternation =>
              rcases parts with _ | ⟨_ | ⟨first, others⟩⟩
              · rfl
              · rfl
              · have attached := attachBranches_eq (first :: others) (partsInduction _ rfl)
                simp only [attached, Tree.regexes, bind_assoc, pure_bind]
                rfl
          | sequence =>
              rcases parts with _ | ⟨_ | ⟨first, others⟩⟩
              · rfl
              · rfl
              · have attached := attachChain_eq (first :: others) (partsInduction _ rfl)
                simp only [attached, Tree.regexes, bind_assoc, pure_bind]
                rfl
          | repetition mode =>
              cases sub with
              | none => rfl
              | some body =>
                  simp only [subInduction body rfl, bind_assoc, pure_bind]
                  rfl

end Construction

namespace Tree

/-- The construction of a tree succeeds when the tree stands for an expression, and it then gives the
automaton of that expression. Otherwise it gives the first defect of the tree. -/
theorem build_eq_regex (tree : Tree) :
    tree.build = (do let regex ← tree.regex; return regex.build) := by
  simp only [build_eq, buildByRecursion, attach_eq, bind_assoc, pure_bind]
  rfl

theorem build_of_regex {tree : Tree} {regex : Regex} (stands : tree.regex = .ok regex) :
    tree.build = .ok regex.build := by
  rw [build_eq_regex, stands]
  rfl

theorem regex_of_build {tree : Tree} {built : Built} (success : tree.build = .ok built) :
    ∃ regex, tree.regex = .ok regex ∧ built = regex.build := by
  rw [build_eq_regex] at success
  cases found : tree.regex with
  | error defect =>
      rw [found] at success
      cases success
  | ok regex =>
      rw [found] at success
      cases success
      exact ⟨regex, rfl, rfl⟩

end Tree

end RegexAutomaton
