import RegexAutomaton.Proofs.Construction.Expression
import RegexAutomaton.Proofs.Tree.Failure
import RegexAutomaton.Proofs.Tree.Visit

/-!
# Rejected trees

The construction fails exactly on the trees in which a visited node is defective, and its error is that of the first
such node. Fields that a kind does not use never matter. The error of a tree is found along the recursion: that of
the node itself, or else the first one of the errors below it.
-/

set_option autoImplicit false

namespace RegexAutomaton

open StructureError

namespace Tree

theorem of?_regexes (trees : List Tree)
    (parts : ∀ tree ∈ trees, of? tree.regex = tree.visited.findSome? defect?) :
    of? (regexes trees) = (visitedAll trees).findSome? defect? := by
  induction trees with
  | nil => rfl
  | cons tree rest ih =>
      rw [List.forall_mem_cons] at parts
      rw [regexes, of?_bind, visitedAll, List.findSome?_append, parts.1, ih parts.2]

theorem bind_ofText?_eq_none_iff (literal : Option String) :
    literal.bind Letter.ofText? = none ↔ literal = none ∨ literal = some "" := by
  cases literal with
  | none => simp
  | some text =>
      have void : (⟨text⟩ : Symbol) = Symbol.epsilon ↔ text = "" := by simp [Symbol.epsilon]
      simp [Letter.ofText?, void]

/-- The error for which a tree stands for no expression is the first defect on the way. -/
theorem of?_regex (tree : Tree) : of? tree.regex = tree.visited.findSome? defect? := by
  induction tree using Tree.induction with
  | node kind literal parts sub partsInduction subInduction =>
      unfold regex
      rw [visited, List.findSome?_cons, defect?]
      cases named : Kind.ofValue? kind with
      | none => rfl
      | some known =>
          cases known with
          | empty => rfl
          | text =>
              by_cases missing : literal = none ∨ literal = some ""
              · simp only [(bind_ofText?_eq_none_iff literal).2 missing, if_pos missing]
                rfl
              · obtain ⟨letter, found⟩ := Option.ne_none_iff_exists'.1
                  (mt (bind_ofText?_eq_none_iff literal).1 missing)
                simp only [found, if_neg missing]
                rfl
          | alternation =>
              rcases parts with _ | ⟨_ | ⟨first, others⟩⟩
              · rfl
              · rfl
              · have below := of?_regexes (first :: others) (partsInduction _ rfl)
                rw [regexes, of?_bind] at below
                exact (of?_bind _ _ _).trans below
          | sequence =>
              rcases parts with _ | ⟨_ | ⟨first, others⟩⟩
              · rfl
              · rfl
              · have below := of?_regexes (first :: others) (partsInduction _ rfl)
                rw [regexes, of?_bind] at below
                exact (of?_bind _ _ _).trans below
          | repetition mode =>
              cases sub with
              | none => rfl
              | some body => exact (of?_map _ _).trans (subInduction body rfl)

/-- The first of some nodes that is defective has this error. -/
def FirstDefect (nodes : List Tree) (error : StructureError) : Prop :=
  ∃ before node after, nodes = before ++ node :: after ∧
    (∀ earlier ∈ before, ∀ other, ¬earlier.Defective other) ∧ node.Defective error

theorem findSome?_eq_some_iff {nodes : List Tree} {error : StructureError} :
    nodes.findSome? defect? = some error ↔ FirstDefect nodes error := by
  simp only [List.findSome?_eq_some_iff, defect?_eq_some_iff, defect?_eq_none_iff, FirstDefect]
  constructor
  · rintro ⟨before, node, after, split, defective, sound⟩
    exact ⟨before, node, after, split, sound, defective⟩
  · rintro ⟨before, node, after, split, sound, defective⟩
    exact ⟨before, node, after, split, defective, sound⟩

theorem of?_build (tree : Tree) : of? tree.build = tree.visited.findSome? defect? := by
  rw [build_eq_regex, of?_map, of?_regex]

end Tree

end RegexAutomaton
