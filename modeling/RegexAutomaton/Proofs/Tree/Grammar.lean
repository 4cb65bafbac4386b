import RegexAutomaton.Proofs.Tree.Failure
import RegexAutomaton.Proofs.Value.Node
import RegexAutomaton.Tree.Reading

/-!
# What trees are read from

A value is the description of a tree when all its nodes meet four requirements: a node is an object with a type, and
where its literal, its parts and its sub-node are there and not null they are a text, a list and an object. Reading
goes through the requirements in a fixed order and reports the first one that is not met. When all are met it gives the
tree that has at every position the fields of the node there.
-/

set_option autoImplicit false

namespace RegexAutomaton

open StructureError

/-- Something that a node is asked for. -/
inductive Requirement where
  | type (node : Value)
  | literal (node : Value)
  | parts (node : Value)
  | sub (node : Value)

namespace Requirement

def isMet : Requirement → Bool
  | type node => node.isObject && (node.get? "type").isSome
  | literal node => node.literal?.all fun found => found.isNull || found.isText
  | parts node => (node.get? "parts").all fun found => found.isNull || found.isList
  | sub node => (node.get? "sub").all fun found => found.isNull || found.isObject

/-- What is reported of a node that does not meet the requirement. -/
def report : Requirement → StructureError
  | type _ => ⟨"Missing node type", .null, some (.text "type")⟩
  | literal node => ⟨"Literal is not a string", (node.get? "type").getD .null, some (.text "symbol")⟩
  | parts node => ⟨"Sub-nodes are not a list", (node.get? "type").getD .null, some (.text "parts")⟩
  | sub node => ⟨"Sub-node is not a mapping", (node.get? "type").getD .null, some (.text "sub")⟩

def failure? (requirement : Requirement) : Option StructureError :=
  if requirement.isMet then none else some requirement.report

/-- The report of the first requirement that is not met. -/
def FirstFailure (requirements : List Requirement) (error : StructureError) : Prop :=
  ∃ before requirement after, requirements = before ++ requirement :: after ∧
    (∀ earlier ∈ before, earlier.isMet = true) ∧ requirement.isMet = false ∧ requirement.report = error

end Requirement

namespace Value

def WellFormed (node : Value) : Prop :=
  (Requirement.type node).isMet ∧ (Requirement.literal node).isMet ∧ (Requirement.parts node).isMet ∧
    (Requirement.sub node).isMet

/-- The requirements of all nodes in their order. Those of the parts come after it is known that the parts are a list,
and those of the sub-node at the end. -/
def requirements (value : Value) : List Requirement :=
  [.type value, .literal value, .parts value] ++
    value.partNodes.attach.flatMap (fun part => requirements part.1) ++
    .sub value ::
      match _ : value.subNode? with
      | some sub => requirements sub
      | none => []
termination_by sizeOf value
decreasing_by
  · exact sizeOf_partNodes part.2
  · exact sizeOf_subNode? ‹_›

theorem requirements_eq (value : Value) :
    value.requirements =
      .type value :: .literal value :: .parts value ::
        (value.partNodes.flatMap requirements ++ .sub value :: value.subNode?.elim [] requirements) := by
  have below : (value.partNodes.attach.flatMap fun part => requirements part.1) =
      value.partNodes.flatMap requirements := by
    rw [← List.flatMap_map, List.attach_map_subtype_val]
  rw [requirements, below]
  cases value.subNode? <;> rfl

/-- The requirements of a value are those of its nodes. -/
theorem forall_mem_requirements (value : Value) :
    (∀ requirement ∈ value.requirements, requirement.isMet = true) ↔
      ∀ node, value.HasNode node → node.WellFormed := by
  induction value using nodeInduction with
  | node value parts sub =>
      rw [requirements_eq]
      simp only [List.forall_mem_cons, List.forall_mem_append, List.forall_mem_flatMap]
      constructor
      · rintro ⟨typed, literal, listed, partsMet, nested, subMet⟩ node below
        cases below with
        | root => exact ⟨typed, literal, listed, nested⟩
        | part member inner => exact (parts _ member).1 (partsMet _ member) node inner
        | sub found inner =>
            rw [found] at subMet
            exact (sub _ found).1 subMet node inner
      · intro wellFormed
        obtain ⟨typed, literal, listed, nested⟩ := wellFormed value (.root value)
        refine ⟨typed, literal, listed, ?_, nested, ?_⟩
        · intro part member
          exact (parts part member).2 fun node inner => wellFormed node (.part member inner)
        · cases found : value.subNode? with
          | none => simp
          | some below => exact (sub below found).2 fun node inner => wellFormed node (.sub found inner)

end Value

namespace Requirement

theorem failure?_eq_none_iff {requirement : Requirement} :
    requirement.failure? = none ↔ requirement.isMet = true := by
  simp [failure?]

theorem failure?_eq_some_iff {requirement : Requirement} {error : StructureError} :
    requirement.failure? = some error ↔ requirement.isMet = false ∧ requirement.report = error := by
  simp [failure?]

theorem findSome?_cons (requirement : Requirement) (rest : List Requirement) :
    (requirement :: rest).findSome? failure? = requirement.failure?.or (rest.findSome? failure?) := by
  rw [List.findSome?_cons]
  cases requirement.failure? <;> rfl

theorem findSome?_eq_some_iff {requirements : List Requirement} {error : StructureError} :
    requirements.findSome? failure? = some error ↔ FirstFailure requirements error := by
  simp only [List.findSome?_eq_some_iff, failure?_eq_some_iff, failure?_eq_none_iff, FirstFailure]
  constructor
  · rintro ⟨before, requirement, after, split, ⟨unmet, report⟩, met⟩
    exact ⟨before, requirement, after, split, met, unmet, report⟩
  · rintro ⟨before, requirement, after, split, met, unmet, report⟩
    exact ⟨before, requirement, after, split, ⟨unmet, report⟩, met⟩

end Requirement

namespace Tree

variable {entries : List (String × Value)} {kind : Value}

/-! ## The fields of a node -/

theorem readParts_eq (kind : Value) (entries : List (String × Value)) :
    readParts kind entries =
      match Value.entry? "parts" entries with
      | none => .ok none
      | some .null => .ok none
      | some (.list values) => do
          let trees ← ofValues values
          return some trees
      | some _ => .error (Defect.partsNotList.report kind) := by
  induction entries with
  | nil => rfl
  | cons entry rest ih =>
      obtain ⟨key, value⟩ := entry
      unfold readParts Value.entry?
      by_cases here : key = "parts"
      · rw [if_pos here, if_pos here]
        cases value <;> rfl
      · rw [if_neg here, if_neg here, ih]

theorem readSub_eq (kind : Value) (entries : List (String × Value)) :
    readSub kind entries =
      match Value.entry? "sub" entries with
      | none => .ok none
      | some .null => .ok none
      | some (.object inner) => do
          let tree ← ofValue (.object inner)
          return some tree
      | some _ => .error (Defect.subNotObject.report kind) := by
  induction entries with
  | nil => rfl
  | cons entry rest ih =>
      obtain ⟨key, value⟩ := entry
      unfold readSub Value.entry?
      by_cases here : key = "sub"
      · rw [if_pos here, if_pos here]
        cases value <;> rfl
      · rw [if_neg here, if_neg here, ih]

/-! ## The error of reading -/

theorem of?_readLiteral (typed : (Value.object entries).get? "type" = some kind) :
    of? (readLiteral kind entries) = (Requirement.literal (.object entries)).failure? := by
  have same : (Value.entry? "symbol" entries).or (Value.entry? "text" entries) =
      (Value.object entries).literal? := rfl
  unfold readLiteral
  rw [Requirement.failure?, Requirement.isMet, Requirement.report, typed, same]
  cases (Value.object entries).literal? with
  | none => rfl
  | some found => cases found <;> rfl

theorem of?_ofValues (values : List Value)
    (parts : ∀ part ∈ values, of? (ofValue part) = part.requirements.findSome? Requirement.failure?) :
    of? (ofValues values) = (values.flatMap Value.requirements).findSome? Requirement.failure? := by
  induction values with
  | nil => rfl
  | cons value rest ih =>
      rw [List.forall_mem_cons] at parts
      rw [ofValues, of?_bind, List.flatMap_cons, List.findSome?_append, parts.1, ih parts.2]

theorem of?_readParts (typed : (Value.object entries).get? "type" = some kind)
    (parts : ∀ part ∈ (Value.object entries).partNodes,
      of? (ofValue part) = part.requirements.findSome? Requirement.failure?) :
    of? (readParts kind entries) =
      (Requirement.parts (.object entries)).failure?.or
        (((Value.object entries).partNodes.flatMap Value.requirements).findSome? Requirement.failure?) := by
  have same : Value.entry? "parts" entries = (Value.object entries).get? "parts" := rfl
  unfold Value.partNodes at parts ⊢
  rw [readParts_eq, Requirement.failure?, Requirement.isMet, Requirement.report, typed, same]
  cases listed : (Value.object entries).get? "parts" with
  | none => rfl
  | some found =>
      rw [listed] at parts
      cases found with
      | list values => exact (of?_map _ _).trans (of?_ofValues values parts)
      | _ => rfl

theorem of?_readSub (typed : (Value.object entries).get? "type" = some kind)
    (sub : ∀ sub, (Value.object entries).subNode? = some sub →
      of? (ofValue sub) = sub.requirements.findSome? Requirement.failure?) :
    of? (readSub kind entries) =
      (Requirement.sub (.object entries)).failure?.or
        (((Value.object entries).subNode?.elim [] Value.requirements).findSome? Requirement.failure?) := by
  have same : Value.entry? "sub" entries = (Value.object entries).get? "sub" := rfl
  unfold Value.subNode? at sub ⊢
  rw [readSub_eq, Requirement.failure?, Requirement.isMet, Requirement.report, typed, same]
  cases nested : (Value.object entries).get? "sub" with
  | none => rfl
  | some found =>
      rw [nested] at sub
      cases found with
      | object inner => exact (of?_map _ _).trans (sub (.object inner) rfl)
      | _ => rfl

theorem ofValue_of_untyped {value : Value} (untyped : value.get? "type" = none) :
    ofValue value = .error (Defect.missingType.report .null) := by
  cases value with
  | object entries =>
      have missing : Value.entry? "type" entries = none := untyped
      simp only [ofValue, missing]
  | _ => rfl

theorem ofValue_of_typed (typed : (Value.object entries).get? "type" = some kind) :
    ofValue (.object entries) = (do
      let literal ← readLiteral kind entries
      let parts ← readParts kind entries
      let sub ← readSub kind entries
      return node kind literal parts sub) := by
  have found : Value.entry? "type" entries = some kind := typed
  simp only [ofValue, found]

/-- The error of reading is the report of the first requirement that is not met. -/
theorem of?_ofValue (value : Value) :
    of? (ofValue value) = value.requirements.findSome? Requirement.failure? := by
  induction value using Value.nodeInduction with
  | node value parts sub =>
      rw [Value.requirements_eq]
      simp only [List.findSome?_append, Requirement.findSome?_cons]
      cases typed : value.get? "type" with
      | none =>
          have unmet : (Requirement.type value).failure? = some (Requirement.type value).report := by
            rw [Requirement.failure?_eq_some_iff, Requirement.isMet, typed]
            simp
          rw [ofValue_of_untyped typed, unmet]
          rfl
      | some kind =>
          cases value with
          | object entries =>
              have met : (Requirement.type (.object entries)).failure? = none := by
                rw [Requirement.failure?_eq_none_iff, Requirement.isMet, typed]
                rfl
              have fields : of? (ofValue (.object entries)) = (of? (readLiteral kind entries)).or
                  ((of? (readParts kind entries)).or (of? (readSub kind entries))) := by
                rw [ofValue_of_typed typed]
                exact of?_bind_of _ fun literal => of?_bind _ _ _
              rw [fields, met, of?_readLiteral typed, of?_readParts typed parts, of?_readSub typed sub,
                Option.none_or, Option.or_assoc]
          | _ => cases typed

/-! ## The tree that is read -/

def MirrorsLiteral : Option String → Option Value → Prop
  | none, found => found = none ∨ found = some .null
  | some literal, found => found = some (.text literal)

mutual

/-- The tree has the fields of the nodes of a value, position by position. -/
def Mirrors : Tree → Value → Prop
  | node kind literal parts sub, value =>
      value.get? "type" = some kind ∧ MirrorsLiteral literal value.literal? ∧
        MirrorsParts parts (value.get? "parts") ∧ MirrorsSub sub (value.get? "sub")

def MirrorsParts : Option (List Tree) → Option Value → Prop
  | none, found => found = none ∨ found = some .null
  | some trees, found => ∃ values, found = some (.list values) ∧ MirrorsAll trees values

def MirrorsAll : List Tree → List Value → Prop
  | [], values => values = []
  | tree :: rest, values =>
      ∃ first others, values = first :: others ∧ tree.Mirrors first ∧ MirrorsAll rest others

def MirrorsSub : Option Tree → Option Value → Prop
  | none, found => found = none ∨ found = some .null
  | some tree, found => ∃ entries, found = some (.object entries) ∧ tree.Mirrors (.object entries)

end

theorem readLiteral_eq_ok_iff {literal : Option String} :
    readLiteral kind entries = .ok literal ↔ MirrorsLiteral literal (Value.object entries).literal? := by
  have same : (Value.entry? "symbol" entries).or (Value.entry? "text" entries) =
      (Value.object entries).literal? := rfl
  unfold readLiteral
  rw [same]
  cases (Value.object entries).literal? with
  | none => cases literal <;> simp [MirrorsLiteral]
  | some found => cases found <;> cases literal <;> simp [MirrorsLiteral, eq_comm]

theorem ofValues_eq_ok_iff {values : List Value}
    (parts : ∀ part ∈ values, ∀ tree, ofValue part = .ok tree ↔ tree.Mirrors part) (trees : List Tree) :
    ofValues values = .ok trees ↔ MirrorsAll trees values := by
  induction values generalizing trees with
  | nil => cases trees <;> simp [ofValues, MirrorsAll, eq_comm]
  | cons value rest ih =>
      rw [List.forall_mem_cons] at parts
      simp only [ofValues, bind_eq_ok_iff, parts.1, ih parts.2]
      cases trees with
      | nil =>
          constructor
          · rintro ⟨tree, -, others, -, read⟩
            cases read
          · intro mirrors
            cases mirrors
      | cons tree trees =>
          constructor
          · rintro ⟨tree, first, others, later, read⟩
            cases read
            exact ⟨value, rest, rfl, first, later⟩
          · rintro ⟨first, others, split, mirrors, later⟩
            cases split
            exact ⟨tree, mirrors, trees, later, rfl⟩

theorem readParts_eq_ok_iff
    (parts : ∀ part ∈ (Value.object entries).partNodes, ∀ tree, ofValue part = .ok tree ↔ tree.Mirrors part)
    (trees : Option (List Tree)) :
    readParts kind entries = .ok trees ↔ MirrorsParts trees ((Value.object entries).get? "parts") := by
  have same : Value.entry? "parts" entries = (Value.object entries).get? "parts" := rfl
  unfold Value.partNodes at parts
  rw [readParts_eq, same]
  cases listed : (Value.object entries).get? "parts" with
  | none => cases trees <;> simp [MirrorsParts]
  | some found =>
      rw [listed] at parts
      cases found with
      | list values =>
          simp only [some_eq_ok_iff, ofValues_eq_ok_iff parts]
          cases trees <;> simp [MirrorsParts]
      | _ => cases trees <;> simp [MirrorsParts]

theorem readSub_eq_ok_iff
    (sub : ∀ sub, (Value.object entries).subNode? = some sub →
      ∀ tree, ofValue sub = .ok tree ↔ tree.Mirrors sub)
    (tree : Option Tree) :
    readSub kind entries = .ok tree ↔ MirrorsSub tree ((Value.object entries).get? "sub") := by
  have same : Value.entry? "sub" entries = (Value.object entries).get? "sub" := rfl
  unfold Value.subNode? at sub
  rw [readSub_eq, same]
  cases nested : (Value.object entries).get? "sub" with
  | none => cases tree <;> simp [MirrorsSub]
  | some found =>
      rw [nested] at sub
      cases found with
      | object inner =>
          simp only [some_eq_ok_iff, sub (.object inner) rfl]
          cases tree <;> simp [MirrorsSub]
      | _ => cases tree <;> simp [MirrorsSub]

theorem ofValue_eq_ok_iff (value : Value) (tree : Tree) : ofValue value = .ok tree ↔ tree.Mirrors value := by
  induction value using Value.nodeInduction generalizing tree with
  | node value parts sub =>
      obtain ⟨kind, literal, trees, below⟩ := tree
      rw [Mirrors]
      cases typed : value.get? "type" with
      | none => simp [ofValue_of_untyped typed]
      | some found =>
          cases value with
          | object entries =>
              simp only [ofValue_of_typed typed, bind_eq_ok_iff, readLiteral_eq_ok_iff, readParts_eq_ok_iff parts,
                readSub_eq_ok_iff sub]
              constructor
              · rintro ⟨literal, isLiteral, trees, areParts, below, isSub, read⟩
                cases read
                exact ⟨rfl, isLiteral, areParts, isSub⟩
              · rintro ⟨same, isLiteral, areParts, isSub⟩
                cases same
                exact ⟨literal, isLiteral, trees, areParts, below, isSub, rfl⟩
          | _ => cases typed

/-- A value is read exactly if all its nodes are well-formed, and otherwise the first requirement in order that is not
met is reported. The tree that is read has the fields of the nodes, each at its position. -/
theorem ofValue_reads_well_formed (value : Value) :
    ((∃ tree, ofValue value = .ok tree) ↔ ∀ node, value.HasNode node → node.WellFormed) ∧
      (∀ error, ofValue value = .error error ↔ Requirement.FirstFailure value.requirements error) ∧
      ∀ tree, ofValue value = .ok tree ↔ tree.Mirrors value := by
  refine ⟨?_, ?_, ofValue_eq_ok_iff value⟩
  · rw [← of?_eq_none_iff, of?_ofValue, List.findSome?_eq_none_iff, ← Value.forall_mem_requirements]
    simp only [Requirement.failure?_eq_none_iff]
  · intro error
    rw [← of?_eq_some_iff, of?_ofValue, Requirement.findSome?_eq_some_iff]

-- a defect of a part comes before those of the sub-node, and a null under `symbol` hides the other key
example :
    of? (ofValue (.object
      [("sub", .bool true), ("parts", .list [.object []]), ("type", .null), ("symbol", .null), ("text", .list [])])) =
      some ⟨"Missing node type", .null, some (.text "type")⟩ := rfl

end Tree

end RegexAutomaton
