import RegexAutomaton.Tree.Basic

/-!
# Induction on trees

A property of all trees follows when it passes from the nodes in the fields of a node to the node itself.
-/

set_option autoImplicit false

namespace RegexAutomaton.Tree

/-- Induction on a tree, with an assumption for every part and for the sub-node. -/
@[elab_as_elim]
theorem induction {motive : Tree → Prop}
    (node : ∀ kind literal parts sub,
      (∀ trees, parts = some trees → ∀ tree ∈ trees, motive tree) →
      (∀ tree, sub = some tree → motive tree) →
      motive (.node kind literal parts sub))
    (tree : Tree) : motive tree := by
  refine @Tree.rec motive
    (fun parts => ∀ trees, parts = some trees → ∀ tree ∈ trees, motive tree)
    (fun sub => ∀ tree, sub = some tree → motive tree)
    (fun trees => ∀ tree ∈ trees, motive tree)
    ?_ ?_ ?_ ?_ ?_ ?_ ?_ tree
  · intro kind literal parts sub partsInduction subInduction
    exact node kind literal parts sub partsInduction subInduction
  · intro trees absent
    cases absent
  · intro trees treesInduction found present
    cases present
    exact treesInduction
  · intro tree absent
    cases absent
  · intro tree treeInduction found present
    cases present
    exact treeInduction
  · intro tree member
    cases member
  · intro first rest firstInduction restInduction tree member
    rcases List.mem_cons.mp member with rfl | later
    · exact firstInduction
    · exact restInduction tree later

end RegexAutomaton.Tree
