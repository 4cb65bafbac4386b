import Mathlib.Data.List.Forall2
import Mathlib.Data.Option.Basic
import RegexAutomaton.Proofs.Construction.Recursion
import RegexAutomaton.Proofs.Tree.Grouping

/-!
# Grouping does not matter

A sequence that is a part of another sequence is built where its parts would have been built without it, so the
construction gives the same automaton for both trees, or the same defect. What replaces a node by another one with the
same fragment can be done anywhere in a tree.
-/

set_option autoImplicit false

namespace RegexAutomaton

namespace Tree

open Construction (attach attachBranches attachChain)

/-- The construction does the same for both trees wherever it comes to them. -/
def SameFragment (first second : Tree) : Prop :=
  ∀ start builder, attach first start builder = attach second start builder

theorem SameFragment.refl (tree : Tree) : tree.SameFragment tree :=
  fun _ _ => rfl

theorem SameFragment.trans {first second third : Tree} (same : first.SameFragment second)
    (sameAgain : second.SameFragment third) : first.SameFragment third :=
  fun start builder => (same start builder).trans (sameAgain start builder)

/-! ## Chains -/

theorem attachChain_append (first rest : List Tree) (start : Vertex) (builder : Builder) :
    attachChain (first ++ rest) start builder = (do
      let (last, builder) ← attachChain first start builder
      attachChain rest last builder) := by
  induction first generalizing start builder with
  | nil => rfl
  | cons tree first ih => simp only [List.cons_append, attachChain, ih, bind_assoc]

theorem attachChain_singleton (tree : Tree) (start : Vertex) (builder : Builder) :
    attachChain [tree] start builder = attach tree start builder := by
  simp only [attachChain]
  exact bind_pure _

/-- A sequence is built as the chain of its parts. -/
theorem attach_chain {kind : Value} {literal : Option String} {trees : List Tree} {sub : Option Tree}
    (named : Kind.ofValue? kind = some .sequence) (nonempty : trees ≠ []) (start : Vertex) (builder : Builder) :
    attach (.node kind literal (some trees) sub) start builder = attachChain trees start builder := by
  cases trees with
  | nil => exact absurd rfl nonempty
  | cons first others => simp only [attach, named]

theorem attach_sequence {trees : List Tree} (nonempty : trees ≠ []) (start : Vertex) (builder : Builder) :
    attach (sequence trees) start builder = attachChain trees start builder :=
  attach_chain rfl nonempty start builder

theorem attachChain_links (tree : Tree) (start : Vertex) (builder : Builder) :
    attachChain tree.links start builder = attach tree start builder := by
  rcases tree.links_cases with ⟨kind, literal, first, others, sub, rfl, named, linksEq⟩ | ⟨-, linksEq⟩
  · rw [linksEq, attach_chain named (List.cons_ne_nil _ _)]
  · rw [linksEq, attachChain_singleton]

theorem attachChain_flatMap_links (trees : List Tree) (start : Vertex) (builder : Builder) :
    attachChain (trees.flatMap links) start builder = attachChain trees start builder := by
  induction trees generalizing start builder with
  | nil => rfl
  | cons tree rest ih =>
      rw [List.flatMap_cons, attachChain_append, attachChain_links, attachChain]
      simp only [ih]

/-! ## Nodes with other parts -/

theorem attachChain_congr {trees others : List Tree} (same : List.Forall₂ SameFragment trees others)
    (start : Vertex) (builder : Builder) : attachChain trees start builder = attachChain others start builder := by
  induction same generalizing start builder with
  | nil => rfl
  | cons sameTree _ ih => simp only [attachChain, sameTree start builder, ih]

theorem attachBranches_congr {trees others : List Tree} (same : List.Forall₂ SameFragment trees others)
    (start : Vertex) (builder : Builder) :
    attachBranches trees start builder = attachBranches others start builder := by
  induction same generalizing builder with
  | nil => rfl
  | cons sameTree _ ih => simp only [attachBranches, sameTree _ _, ih]

/-- What a node is built from is its kind, its literal and the fragments of its parts and of its sub-node. -/
theorem SameFragment.node {kind : Value} {literal : Option String} {parts others : Option (List Tree)}
    {sub other : Option Tree} (sameParts : Option.Rel (List.Forall₂ SameFragment) parts others)
    (sameSub : Option.Rel SameFragment sub other) :
    (Tree.node kind literal parts sub).SameFragment (.node kind literal others other) := by
  intro start builder
  unfold attach
  cases named : Kind.ofValue? kind with
  | none => rfl
  | some known =>
      cases known with
      | empty => rfl
      | text => rfl
      | alternation =>
          cases sameParts with
          | none => rfl
          | some same =>
              cases same with
              | nil => rfl
              | cons sameFirst sameOthers =>
                  dsimp only
                  rw [attachBranches_congr (.cons sameFirst sameOthers)]
      | sequence =>
          cases sameParts with
          | none => rfl
          | some same =>
              cases same with
              | nil => rfl
              | cons sameFirst sameOthers =>
                  dsimp only
                  rw [attachChain_congr (.cons sameFirst sameOthers)]
      | repetition mode =>
          cases sameSub with
          | none => rfl
          | some sameBody =>
              dsimp only
              rw [sameBody]

/-- What is built the same is built the same anywhere in a tree. -/
theorem SameFragment.fill {first second : Tree} (same : first.SameFragment second) (context : Context) :
    (context.fill first).SameFragment (context.fill second) := by
  have refl : ∀ trees, List.Forall₂ SameFragment trees trees := fun trees =>
    List.forall₂_same.2 fun tree _ => .refl tree
  induction context with
  | here => exact same
  | inParts kind literal before context after sub ih =>
      have parts : List.Forall₂ SameFragment (before ++ context.fill first :: after)
          (before ++ context.fill second :: after) := by
        exact List.rel_append (refl before) (.cons ih (refl after))
      refine .node (.some parts) ?_
      cases sub with
      | none => exact .none
      | some sub => exact .some (.refl sub)
  | inSub kind literal parts context ih =>
      refine .node ?_ (.some ih)
      cases parts with
      | none => exact .none
      | some parts => exact .some (refl parts)

theorem SameFragment.build_eq {first second : Tree} (same : first.SameFragment second) :
    first.build = second.build := by
  simp only [Tree.build_eq, buildByRecursion, same _ _]

/-! ## Sequences taken apart -/

theorem sameFragment_splice (before : List Tree) (first : Tree) (others after : List Tree) :
    (sequence (before ++ sequence (first :: others) :: after)).SameFragment
      (sequence (before ++ first :: others ++ after)) := by
  intro start builder
  have inner : ∀ start builder, attach (sequence (first :: others)) start builder =
      attachChain (first :: others) start builder := attach_sequence (List.cons_ne_nil _ _)
  rw [attach_sequence (by simp), attach_sequence (by simp), attachChain_append, List.append_assoc,
    attachChain_append before]
  simp only [attachChain_append (first :: others), ← inner]
  rfl

theorem sameFragment_single (tree : Tree) : (sequence [tree]).SameFragment tree := by
  intro start builder
  rw [attach_sequence (List.cons_ne_nil _ _), attachChain_singleton]

theorem sameFragment_links {kind : Value} (named : Kind.ofValue? kind = some .sequence) (literal : Option String)
    (trees : List Tree) (sub : Option Tree) :
    (Tree.node kind literal (some (trees.flatMap links)) sub).SameFragment (.node kind literal (some trees) sub) := by
  intro start builder
  cases trees with
  | nil => rfl
  | cons first others =>
      have linked : (first :: others).flatMap links ≠ [] := by
        rw [List.flatMap_cons]
        exact List.append_ne_nil_of_left_ne_nil first.links_ne_nil _
      rw [attach_chain named linked, attach_chain named (List.cons_ne_nil _ _), attachChain_flatMap_links]

theorem sameFragment_flatten (tree : Tree) : tree.flatten.SameFragment tree := by
  induction tree using Tree.induction with
  | node kind literal parts sub partsInduction subInduction =>
      have sameParts : Option.Rel (List.Forall₂ SameFragment) (flattenParts parts) parts := by
        cases parts with
        | none => exact .none
        | some parts =>
            rw [flattenParts, flattenAll_eq]
            exact .some (List.forall₂_map_left_iff.2 (List.forall₂_same.2 (partsInduction parts rfl)))
      have sameSub : Option.Rel SameFragment (flattenSub sub) sub := by
        cases sub with
        | none => exact .none
        | some sub => exact .some (subInduction sub rfl)
      by_cases named : Kind.ofValue? kind = some .sequence
      · rw [flatten_of_sequence named]
        cases parts with
        | none => exact .node sameParts sameSub
        | some parts => exact (sameFragment_links named literal _ _).trans (.node sameParts sameSub)
      · rw [flatten_of_not_sequence named]
        exact .node sameParts sameSub

/-- A sequence among the parts of a sequence can be replaced by its own parts, wherever in a tree this is, and a
sequence of one part by that part: the construction has the same outcome, be it the automaton with its labels and the
order of its transitions or a defect. So it has the same outcome for the tree in which all such sequences have been
taken apart. -/
theorem build_ignores_grouping :
    (∀ (context : Context) (before : List Tree) (first : Tree) (others after : List Tree),
      (context.fill (sequence (before ++ sequence (first :: others) :: after))).build =
        (context.fill (sequence (before ++ first :: others ++ after))).build) ∧
      (∀ (context : Context) (tree : Tree), (context.fill (sequence [tree])).build = (context.fill tree).build) ∧
      ∀ tree : Tree, tree.flatten.Flat ∧ tree.flatten.build = tree.build := by
  refine ⟨?_, ?_, ?_⟩
  · intro context before first others after
    exact ((sameFragment_splice before first others after).fill context).build_eq
  · intro context tree
    exact ((sameFragment_single tree).fill context).build_eq
  · intro tree
    exact ⟨tree.flat_flatten, tree.sameFragment_flatten.build_eq⟩

end Tree

end RegexAutomaton
