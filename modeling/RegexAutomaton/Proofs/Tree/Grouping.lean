import RegexAutomaton.Proofs.Tree.Induction

/-!
# Sequences inside sequences

A sequence that is a part of another one can be taken apart: its parts come in its place. A tree is flat when no such
sequence is left at any of its nodes, the ones that are never looked at included. The surroundings of a node are told
by a context, a tree with one node left out.
-/

set_option autoImplicit false

namespace RegexAutomaton.Tree

/-! ## Contexts -/

/-- A tree around a node that is left out: somewhere among the parts of a node, or below one as its sub-node. -/
inductive Context where
  | here
  | inParts (kind : Value) (literal : Option String) (before : List Tree) (context : Context) (after : List Tree)
      (sub : Option Tree)
  | inSub (kind : Value) (literal : Option String) (parts : Option (List Tree)) (context : Context)

/-- Puts a tree in the place that is left out. -/
def Context.fill : Context → Tree → Tree
  | here, tree => tree
  | inParts kind literal before context after sub, tree =>
      .node kind literal (some (before ++ context.fill tree :: after)) sub
  | inSub kind literal parts context, tree => .node kind literal parts (some (context.fill tree))

/-! ## Flat trees -/

/-- Whether a node is a sequence of at least one part. -/
def IsSequence : Tree → Prop
  | node kind _ parts _ => Kind.ofValue? kind = some .sequence ∧ parts.getD [] ≠ []

/-- The parts of a sequence that has some. Any other tree is a link of its own. -/
def links : Tree → List Tree
  | node kind literal parts sub =>
      match Kind.ofValue? kind, parts with
      | some .sequence, some (first :: others) => first :: others
      | _, _ => [node kind literal parts sub]

mutual

/-- The tree with the parts of a sequence in place of the sequence wherever that is a part of another sequence. -/
def flatten : Tree → Tree
  | node kind literal parts sub =>
      match Kind.ofValue? kind with
      | some .sequence => node kind literal ((flattenParts parts).map fun parts => parts.flatMap links) (flattenSub sub)
      | _ => node kind literal (flattenParts parts) (flattenSub sub)

def flattenParts : Option (List Tree) → Option (List Tree)
  | none => none
  | some parts => some (flattenAll parts)

def flattenSub : Option Tree → Option Tree
  | none => none
  | some sub => some sub.flatten

def flattenAll : List Tree → List Tree
  | [] => []
  | tree :: rest => tree.flatten :: flattenAll rest

end

/-- No node is a sequence with another sequence among its parts. -/
inductive Flat : Tree → Prop
  | node {kind : Value} {literal : Option String} {parts : Option (List Tree)} {sub : Option Tree}
      (partsFlat : ∀ trees, parts = some trees → ∀ tree ∈ trees, tree.Flat)
      (subFlat : ∀ tree, sub = some tree → tree.Flat)
      (apart : Kind.ofValue? kind = some .sequence → ∀ trees, parts = some trees → ∀ tree ∈ trees, ¬tree.IsSequence) :
      Flat (.node kind literal parts sub)

section Flatten

variable {kind : Value} {literal : Option String} {parts : Option (List Tree)} {sub : Option Tree}

theorem flatten_of_sequence (named : Kind.ofValue? kind = some .sequence) :
    (node kind literal parts sub).flatten =
      node kind literal ((flattenParts parts).map fun parts => parts.flatMap links) (flattenSub sub) := by
  simp only [flatten, named]

theorem flatten_of_not_sequence (other : Kind.ofValue? kind ≠ some .sequence) :
    (node kind literal parts sub).flatten = node kind literal (flattenParts parts) (flattenSub sub) := by
  rw [flatten]
  split
  · rename_i named
    exact absurd named other
  · rfl

end Flatten

theorem flattenAll_eq (trees : List Tree) : flattenAll trees = trees.map flatten := by
  induction trees with
  | nil => rfl
  | cons tree rest ih => rw [flattenAll, ih, List.map_cons]

/-- A sequence is made of its links, and nothing else is a sequence. -/
theorem links_cases (tree : Tree) :
    (∃ kind literal first others sub, tree = .node kind literal (some (first :: others)) sub ∧
        Kind.ofValue? kind = some .sequence ∧ tree.links = first :: others) ∨
      ¬tree.IsSequence ∧ tree.links = [tree] := by
  obtain ⟨kind, literal, parts, sub⟩ := tree
  by_cases named : Kind.ofValue? kind = some .sequence
  · rcases parts with _ | ⟨_ | ⟨first, others⟩⟩
    · exact .inr ⟨fun isSequence => isSequence.2 rfl, by simp only [links, named]⟩
    · exact .inr ⟨fun isSequence => isSequence.2 rfl, by simp only [links, named]⟩
    · exact .inl ⟨kind, literal, first, others, sub, rfl, named, by simp only [links, named]⟩
  · refine .inr ⟨fun isSequence => named isSequence.1, ?_⟩
    rw [links]
    exact fun _ _ found _ => named found

theorem links_ne_nil (tree : Tree) : tree.links ≠ [] := by
  rcases tree.links_cases with ⟨_, _, first, others, _, -, -, linksEq⟩ | ⟨-, linksEq⟩
  · rw [linksEq]
    exact List.cons_ne_nil _ _
  · rw [linksEq]
    exact List.cons_ne_nil _ _

/-- The links of a flat tree are flat and no sequences. -/
theorem Flat.links {tree : Tree} (flat : tree.Flat) : ∀ link ∈ tree.links, link.Flat ∧ ¬link.IsSequence := by
  intro link member
  rcases tree.links_cases with ⟨_, _, first, others, _, rfl, named, linksEq⟩ | ⟨single, linksEq⟩
  · rw [linksEq] at member
    obtain ⟨partsFlat, -, apart⟩ := flat
    exact ⟨partsFlat _ rfl link member, apart named _ rfl link member⟩
  · rw [linksEq] at member
    obtain rfl := List.mem_singleton.1 member
    exact ⟨flat, single⟩

theorem flat_flatten (tree : Tree) : tree.flatten.Flat := by
  induction tree using Tree.induction with
  | node kind literal parts sub partsInduction subInduction =>
      have partsFlat : ∀ trees, flattenParts parts = some trees → ∀ tree ∈ trees, tree.Flat := by
        intro trees present tree member
        cases parts with
        | none => cases present
        | some parts =>
            cases present
            rw [flattenAll_eq] at member
            obtain ⟨part, isPart, rfl⟩ := List.mem_map.1 member
            exact partsInduction parts rfl part isPart
      have subFlat : ∀ tree, flattenSub sub = some tree → tree.Flat := by
        intro tree present
        cases sub with
        | none => cases present
        | some sub =>
            cases present
            exact subInduction sub rfl
      by_cases named : Kind.ofValue? kind = some .sequence
      · have linksFlat : ∀ trees, ((flattenParts parts).map fun parts => parts.flatMap links) = some trees →
            ∀ tree ∈ trees, tree.Flat ∧ ¬tree.IsSequence := by
          intro trees present tree member
          obtain ⟨flattened, partsEq, rfl⟩ := Option.map_eq_some_iff.1 present
          obtain ⟨part, isPart, isLink⟩ := List.mem_flatMap.1 member
          exact (partsFlat flattened partsEq part isPart).links tree isLink
        rw [flatten_of_sequence named]
        exact .node (fun trees present tree member => (linksFlat trees present tree member).1) subFlat
          fun _ trees present tree member => (linksFlat trees present tree member).2
      · rw [flatten_of_not_sequence named]
        exact .node partsFlat subFlat fun isSequence => absurd isSequence named

-- a sequence without parts has a defect, and stays
example :
    (sequence [text "a", sequence [sequence [text "b"], sequence []]]).flatten =
      sequence [text "a", text "b", sequence []] :=
  rfl

end RegexAutomaton.Tree
