import RegexAutomaton.Tree.Basic
import RegexAutomaton.Tree.Defect

/-!
# The nodes that count

Of a tree only some nodes are ever looked at: the root, and below a node the one field that its kind uses. They are
listed here each before those below it, from left to right. Such a node may have a defect of its own, whatever is
wrong below it, and then no expression has this tree.
-/

set_option autoImplicit false

namespace RegexAutomaton

theorem Kind.ofValue?_eq_some_iff {value : Value} {kind : Kind} :
    ofValue? value = some kind ↔ value = .text kind.name := by
  constructor
  · intro named
    unfold ofValue? at named
    split at named <;> cases named <;> rfl
  · rintro rfl
    exact kind.ofValue?_name

theorem Kind.ofValue?_eq_none_iff {value : Value} :
    ofValue? value = none ↔ ∀ kind : Kind, value ≠ .text kind.name := by
  rw [Option.eq_none_iff_forall_ne_some]
  simp only [ne_eq, ofValue?_eq_some_iff]

namespace Tree

mutual

/-- The nodes that are looked at, in order. -/
def visited : Tree → List Tree
  | node kind literal parts sub =>
      node kind literal parts sub ::
        match Kind.ofValue? kind with
        | some .alternation => visitedParts parts
        | some .sequence => visitedParts parts
        | some (.repetition _) => visitedSub sub
        | _ => []

def visitedParts : Option (List Tree) → List Tree
  | none => []
  | some parts => visitedAll parts

def visitedSub : Option Tree → List Tree
  | none => []
  | some sub => visited sub

def visitedAll : List Tree → List Tree
  | [] => []
  | tree :: rest => visited tree ++ visitedAll rest

end

/-- What is wrong with a node itself. -/
inductive Defective : Tree → StructureError → Prop
  | unknownKind (kind : Value) (literal : Option String) (parts : Option (List Tree))
      (sub : Option Tree) (unknown : ∀ known : Kind, kind ≠ .text known.name) :
      Defective (.node kind literal parts sub) ⟨"Unrecognized node kind", kind, none⟩
  | missingLiteral (literal : Option String) (parts : Option (List Tree)) (sub : Option Tree)
      (missing : literal = none ∨ literal = some "") :
      Defective (.node (.text "text") literal parts sub)
        ⟨"Missing literal", .text "text", some (.text "symbol")⟩
  | missingParts (kind : String) (literal : Option String) (parts : Option (List Tree))
      (sub : Option Tree) (composite : kind = "or" ∨ kind = "cat")
      (missing : parts = none ∨ parts = some []) :
      Defective (.node (.text kind) literal parts sub)
        ⟨"Missing sub-nodes", .text kind, some (.text "parts")⟩
  | missingSub (kind : String) (literal : Option String) (parts : Option (List Tree))
      (repeated : kind = "star" ∨ kind = "plus" ∨ kind = "optional") :
      Defective (.node (.text kind) literal parts none)
        ⟨"Missing sub-node", .text kind, some (.text "sub")⟩

/-- The defect of a node itself, if it has one. -/
def defect? : Tree → Option StructureError
  | node kind literal parts sub =>
      match Kind.ofValue? kind with
      | none => some (Defect.unknownKind.report kind)
      | some .empty => none
      | some .text =>
          if literal = none ∨ literal = some "" then some (Defect.missingLiteral.report kind) else none
      | some .alternation =>
          if (parts.getD []).isEmpty then some (Defect.missingParts.report kind) else none
      | some .sequence =>
          if (parts.getD []).isEmpty then some (Defect.missingParts.report kind) else none
      | some (.repetition _) => if sub.isNone then some (Defect.missingSub.report kind) else none

theorem isEmpty_getD {parts : Option (List Tree)} :
    (parts.getD []).isEmpty = true ↔ parts = none ∨ parts = some [] := by
  rcases parts with _ | ⟨_ | ⟨first, others⟩⟩ <;> simp

theorem defective_of_defect? {tree : Tree} {error : StructureError} (found : tree.defect? = some error) :
    tree.Defective error := by
  obtain ⟨kind, literal, parts, sub⟩ := tree
  cases named : Kind.ofValue? kind with
  | none =>
      simp only [defect?, named] at found
      cases found
      exact .unknownKind kind literal parts sub (Kind.ofValue?_eq_none_iff.1 named)
  | some known =>
      obtain rfl := Kind.ofValue?_eq_some_iff.1 named
      cases known with
      | empty =>
          simp only [defect?, named] at found
          cases found
      | text =>
          simp only [defect?, named] at found
          split at found
          · rename_i missing
            cases found
            exact .missingLiteral literal parts sub missing
          · cases found
      | alternation =>
          simp only [defect?, named] at found
          split at found
          · rename_i missing
            cases found
            exact .missingParts "or" literal parts sub (.inl rfl) (isEmpty_getD.1 missing)
          · cases found
      | sequence =>
          simp only [defect?, named] at found
          split at found
          · rename_i missing
            cases found
            exact .missingParts "cat" literal parts sub (.inr rfl) (isEmpty_getD.1 missing)
          · cases found
      | repetition mode =>
          simp only [defect?, named, Option.isNone_iff_eq_none] at found
          split at found
          · rename_i missing
            cases found
            subst missing
            cases mode with
            | star => exact .missingSub "star" literal parts (.inl rfl)
            | plus => exact .missingSub "plus" literal parts (.inr (.inl rfl))
            | optional => exact .missingSub "optional" literal parts (.inr (.inr rfl))
          · cases found

theorem defect?_of_defective {tree : Tree} {error : StructureError} (defective : tree.Defective error) :
    tree.defect? = some error := by
  cases defective with
  | unknownKind kind literal parts sub unknown =>
      simp only [defect?, Kind.ofValue?_eq_none_iff.2 unknown]
      rfl
  | missingLiteral literal parts sub missing =>
      have named : Kind.ofValue? (.text "text") = some .text := rfl
      simp only [defect?, named, if_pos missing]
      rfl
  | missingParts kind literal parts sub composite missing =>
      rcases composite with rfl | rfl
      · have named : Kind.ofValue? (.text "or") = some .alternation := rfl
        simp only [defect?, named, if_pos (isEmpty_getD.2 missing)]
        rfl
      · have named : Kind.ofValue? (.text "cat") = some .sequence := rfl
        simp only [defect?, named, if_pos (isEmpty_getD.2 missing)]
        rfl
  | missingSub kind literal parts repeated => rcases repeated with rfl | rfl | rfl <;> rfl

theorem defect?_eq_some_iff {tree : Tree} {error : StructureError} :
    tree.defect? = some error ↔ tree.Defective error :=
  ⟨defective_of_defect?, defect?_of_defective⟩

theorem defect?_eq_none_iff {tree : Tree} :
    tree.defect? = none ↔ ∀ error, ¬tree.Defective error := by
  rw [Option.eq_none_iff_forall_ne_some]
  simp only [ne_eq, defect?_eq_some_iff]

end Tree

end RegexAutomaton
