import RegexAutomaton.Proofs.Construction.Relocation
import RegexAutomaton.Proofs.Tree.Depth
import RegexAutomaton.Proofs.Tree.Induction
import RegexAutomaton.Proofs.Value.Entries

/-!
# Trees written as objects

A tree is written as an object with an entry for each of its fields, at every node. What is absent may be written as a
null or left out, at each place anew, but a kind is always written, since without one nothing is read. Reading gives back
the tree, with all that it has: fields that its kinds do not use, empty lists of parts, empty literals. Trees that
are deeper than the limit on reading are not given back, although automata are built of them.
-/

set_option autoImplicit false

namespace RegexAutomaton.Tree

/-- The entries of a field with some value under its key. An absent one has a null there, or no entry. -/
inductive FieldEntries (key : String) : Option Value → List (String × Value) → Prop
  | present (value : Value) : FieldEntries key (some value) [(key, value)]
  | null : FieldEntries key none [(key, .null)]
  | omitted : FieldEntries key none []

mutual

/-- The value is an object that a tree may be written as. -/
def WrittenAs : Tree → Value → Prop
  | node kind literal parts sub, value =>
      ∃ literalEntries partsEntries subEntries,
        FieldEntries "symbol" (literal.map .text) literalEntries ∧ PartsWrittenAs parts partsEntries ∧
          SubWrittenAs sub subEntries ∧
          value = .object (("type", kind) :: (literalEntries ++ partsEntries ++ subEntries))

def PartsWrittenAs : Option (List Tree) → List (String × Value) → Prop
  | none, entries => FieldEntries "parts" none entries
  | some trees, entries => ∃ values, AllWrittenAs trees values ∧ FieldEntries "parts" (some (.list values)) entries

def AllWrittenAs : List Tree → List Value → Prop
  | [], values => values = []
  | tree :: rest, values =>
      ∃ first others, values = first :: others ∧ tree.WrittenAs first ∧ AllWrittenAs rest others

def SubWrittenAs : Option Tree → List (String × Value) → Prop
  | none, entries => FieldEntries "sub" none entries
  | some tree, entries => ∃ value, tree.WrittenAs value ∧ FieldEntries "sub" (some value) entries

end

/-! ## Entries of a field -/

section Fields

variable {key other : String} {value : Value} {value? : Option Value} {entries : List (String × Value)}

theorem FieldEntries.entry?_eq_some (written : FieldEntries key (some value) entries) :
    Value.entry? key entries = some value := by
  cases written
  exact if_pos rfl

theorem FieldEntries.entry?_of_none (written : FieldEntries key none entries) :
    Value.entry? key entries = none ∨ Value.entry? key entries = some .null := by
  cases written with
  | null => exact .inr (if_pos rfl)
  | omitted => exact .inl rfl

theorem FieldEntries.entry?_eq_none (written : FieldEntries key value? entries) (different : key ≠ other) :
    Value.entry? other entries = none := by
  rw [Value.entry?_eq_none_iff]
  cases written <;> simp [different]

theorem PartsWrittenAs.fieldEntries {parts : Option (List Tree)} (written : PartsWrittenAs parts entries) :
    ∃ value?, FieldEntries "parts" value? entries := by
  cases parts with
  | none => exact ⟨none, written⟩
  | some trees =>
      obtain ⟨values, -, entriesEq⟩ := written
      exact ⟨_, entriesEq⟩

theorem SubWrittenAs.fieldEntries {sub : Option Tree} (written : SubWrittenAs sub entries) :
    ∃ value?, FieldEntries "sub" value? entries := by
  cases sub with
  | none => exact ⟨none, written⟩
  | some tree =>
      obtain ⟨value, -, entriesEq⟩ := written
      exact ⟨_, entriesEq⟩

/-- Each field of a node is found among its own entries. -/
theorem fields_of_entries (kind : Value) {literal? parts? sub? : Option Value}
    {literalEntries partsEntries subEntries : List (String × Value)}
    (literal : FieldEntries "symbol" literal? literalEntries) (parts : FieldEntries "parts" parts? partsEntries)
    (sub : FieldEntries "sub" sub? subEntries) :
    let node := Value.object (("type", kind) :: (literalEntries ++ partsEntries ++ subEntries))
    node.get? "type" = some kind ∧ node.literal? = Value.entry? "symbol" literalEntries ∧
      node.get? "parts" = Value.entry? "parts" partsEntries ∧ node.get? "sub" = Value.entry? "sub" subEntries := by
  intro node
  have found : ∀ name, "type" ≠ name → node.get? name =
      ((Value.entry? name literalEntries).or (Value.entry? name partsEntries)).or (Value.entry? name subEntries) := by
    intro name different
    rw [Value.get?, Value.entry?, if_neg different, Value.entry?_append, Value.entry?_append]
  refine ⟨?_, ?_, ?_, ?_⟩
  · rw [Value.get?, Value.entry?, if_pos rfl]
  · simp [Value.literal?, found, literal.entry?_eq_none, parts.entry?_eq_none, sub.entry?_eq_none]
  · simp [found, literal.entry?_eq_none, sub.entry?_eq_none]
  · simp [found, literal.entry?_eq_none, parts.entry?_eq_none]

end Fields

/-! ## Reading back -/

theorem WrittenAs.isObject {tree : Tree} {value : Value} (written : tree.WrittenAs value) :
    ∃ entries, value = .object entries := by
  obtain ⟨kind, literal, parts, sub⟩ := tree
  obtain ⟨_, _, _, -, -, -, rfl⟩ := written
  exact ⟨_, rfl⟩

theorem AllWrittenAs.mirrors {trees : List Tree} {values : List Value} (written : AllWrittenAs trees values)
    (each : ∀ tree ∈ trees, ∀ value, tree.WrittenAs value → tree.Mirrors value) : MirrorsAll trees values := by
  induction trees generalizing values with
  | nil => exact written
  | cons tree rest ih =>
      rw [List.forall_mem_cons] at each
      obtain ⟨first, others, split, firstWritten, othersWritten⟩ := written
      exact ⟨first, others, split, each.1 first firstWritten, ih othersWritten each.2⟩

theorem WrittenAs.mirrors {tree : Tree} {value : Value} (written : tree.WrittenAs value) : tree.Mirrors value := by
  induction tree using Tree.induction generalizing value with
  | node kind literal parts sub partsInduction subInduction =>
      obtain ⟨literalEntries, partsEntries, subEntries, literalWritten, partsWritten, subWritten, rfl⟩ := written
      obtain ⟨_, partsField⟩ := partsWritten.fieldEntries
      obtain ⟨_, subField⟩ := subWritten.fieldEntries
      obtain ⟨kindFound, literalFound, partsFound, subFound⟩ :=
        fields_of_entries kind literalWritten partsField subField
      rw [Mirrors, literalFound, partsFound, subFound]
      refine ⟨kindFound, ?_, ?_, ?_⟩
      · cases literal with
        | none => exact literalWritten.entry?_of_none
        | some literal => exact literalWritten.entry?_eq_some
      · cases parts with
        | none => exact FieldEntries.entry?_of_none partsWritten
        | some trees =>
            obtain ⟨values, allWritten, listed⟩ := partsWritten
            exact ⟨values, listed.entry?_eq_some, allWritten.mirrors fun tree member value =>
              partsInduction trees rfl tree member⟩
      · cases sub with
        | none => exact FieldEntries.entry?_of_none subWritten
        | some tree =>
            obtain ⟨value, treeWritten, nested⟩ := subWritten
            obtain ⟨entries, rfl⟩ := treeWritten.isObject
            exact ⟨entries, nested.entry?_eq_some, subInduction tree rfl treeWritten⟩

/-! ## Writing every field -/

theorem allWrittenAs_toValues {trees : List Tree} (each : ∀ tree ∈ trees, tree.WrittenAs tree.toValue) :
    AllWrittenAs trees (toValues trees) := by
  induction trees with
  | nil => rfl
  | cons tree rest ih =>
      rw [List.forall_mem_cons] at each
      exact ⟨tree.toValue, toValues rest, rfl, each.1, ih each.2⟩

theorem writtenAs_toValue (tree : Tree) : tree.WrittenAs tree.toValue := by
  induction tree using Tree.induction with
  | node kind literal parts sub partsInduction subInduction =>
      rw [toValue.eq_def]
      refine ⟨[("symbol", _)], [("parts", _)], [("sub", _)], ?_, ?_, ?_, rfl⟩
      · cases literal with
        | none => exact .null
        | some literal => exact .present _
      · cases parts with
        | none => exact .null
        | some trees => exact ⟨_, allWrittenAs_toValues (partsInduction trees rfl), .present _⟩
      · cases sub with
        | none => exact .null
        | some tree => exact ⟨_, subInduction tree rfl, .present _⟩

theorem WrittenAs.ofValue {tree : Tree} {written : Value} (isWritten : tree.WrittenAs written) :
    ofValue written = .ok tree :=
  (ofValue_eq_ok_iff written tree).2 isWritten.mirrors

/-- A tree can be written as an object. However that is done, reading within a limit gives the tree back if it is not
deeper than the limit, and the automaton that is built from what was written, or the defect that the construction meets,
is that of the tree. Of a deeper tree nothing is given back. What has been read from any value is not too deep, so that
it is the same after it has been written and read again. -/
theorem ofValueWithin_undoes_writing (limit : Nat) (tree : Tree) :
    tree.WrittenAs tree.toValue ∧
      ∀ written, tree.WrittenAs written →
        (tree.depth ≤ limit →
          ofValueWithin (some limit) written = .ok tree ∧
            (do let read ← ofValueWithin (some limit) written; read.build.mapError .malformed) =
              tree.build.mapError .malformed) ∧
        (limit < tree.depth → ofValueWithin (some limit) written = .error .exhausted) ∧
        ∀ value, ofValueWithin (some limit) value = .ok tree →
          ofValueWithin (some limit) written = ofValueWithin (some limit) value := by
  refine ⟨tree.writtenAs_toValue, fun written isWritten => ?_⟩
  have reads : tree.depth ≤ limit → ofValueWithin (some limit) written = .ok tree :=
    fun below => ofValueWithin_eq_ok_iff.2 ⟨isWritten.ofValue, below⟩
  refine ⟨fun below => ⟨reads below, ?_⟩, ofValueWithin_of_lt isWritten.ofValue, fun value found => ?_⟩
  · rw [reads below]
    rfl
  · rw [found, reads (ofValueWithin_eq_ok_iff.1 found).2]

/-- A kind that is no text, an empty literal, parts below a node that uses none, an empty list of parts and no parts at
all, with nulls in some places and keys left out in others. Two calls inside each other read all that was written, one
call does not. -/
theorem ofValueWithin_undoes_writing_mixed :
    let tree := node (.bool false) (some "") (some [node .null none none none, text "a"])
      (some (node (.text "or") none (some []) none))
    let written := Value.object
      [("type", .bool false), ("symbol", .text ""),
        ("parts", .list
          [.object [("type", .null), ("parts", .null)],
            .object [("type", .text "text"), ("symbol", .text "a"), ("sub", .null)]]),
        ("sub", .object [("type", .text "or"), ("parts", .list [])])]
    tree.WrittenAs written ∧ tree.depth = 2 ∧ ofValueWithin (some 2) tree.toValue = .ok tree ∧
      ofValueWithin (some 2) written = .ok tree ∧
      (do let read ← ofValueWithin (some 2) written; read.build.mapError .malformed) = tree.build.mapError .malformed ∧
      ofValueWithin (some 2) written = ofValueWithin (some 2) tree.toValue ∧
      ofValueWithin (some 1) written = .error .exhausted := by
  intro tree written
  have nothing : (node .null none none none).WrittenAs (.object [("type", .null), ("parts", .null)]) :=
    ⟨[], [_], [], .omitted, .null, .omitted, rfl⟩
  have letter : (text "a").WrittenAs (.object [("type", .text "text"), ("symbol", .text "a"), ("sub", .null)]) :=
    ⟨[_], [], [_], .present _, .omitted, .null, rfl⟩
  have choice :
      (node (.text "or") none (some []) none).WrittenAs (.object [("type", .text "or"), ("parts", .list [])]) :=
    ⟨[], [_], [], .omitted, ⟨[], rfl, .present _⟩, .omitted, rfl⟩
  have isWritten : tree.WrittenAs written :=
    ⟨[_], [_], [_], .present _, ⟨_, ⟨_, _, rfl, nothing, _, _, rfl, letter, rfl⟩, .present _⟩,
      ⟨_, choice, .present _⟩, rfl⟩
  have depth : tree.depth = 2 := rfl
  obtain ⟨inFull, reads⟩ := ofValueWithin_undoes_writing 2 tree
  obtain ⟨-, exhausts⟩ := ofValueWithin_undoes_writing 1 tree
  obtain ⟨within, -, again⟩ := reads _ isWritten
  have full := ((reads _ inFull).1 (Nat.le_of_eq depth)).1
  obtain ⟨found, built⟩ := within (Nat.le_of_eq depth)
  exact ⟨isWritten, depth, full, found, built, again _ full, (exhausts _ isWritten).2.1 (by rw [depth]; decide)⟩

/-! ## Too deep to be read -/

/-- A letter under some number of repetitions. -/
def optionals : Nat → Tree
  | 0 => text "a"
  | count + 1 => repetition .optional (optionals count)

theorem depth_optionals (count : Nat) : (optionals count).depth = count + 1 := by
  induction count with
  | zero => rfl
  | succ count ih =>
      rw [optionals, repetition, depth, depthParts, depthSub, ih, Nat.zero_max]

theorem regex_optionals (count : Nat) :
    ∃ regex : Regex, (optionals count).regex = .ok regex ∧ regex.states = 2 * count + 1 := by
  induction count with
  | zero => exact ⟨_, rfl, rfl⟩
  | succ count ih =>
      obtain ⟨body, stands, states⟩ := ih
      refine ⟨.repetition .optional body, ?_, ?_⟩
      · rw [optionals, repetition, regex.eq_def]
        simp only [Kind.ofValue?_name, stands]
        rfl
      · rw [Regex.states, states]
        omega

theorem build_optionals (count : Nat) :
    ∃ built, (optionals count).build = .ok built ∧ built.automaton.states.length = 2 * count + 2 ∧
      built.automaton.graph.label built.automaton.accept = (2 * count + 1 : Nat) := by
  obtain ⟨regex, stands, states⟩ := regex_optionals count
  refine ⟨regex.build, build_of_regex stands, ?_, ?_⟩
  · rw [regex.length_states_build, states]
  · have allocated : regex.states < regex.build.count := by
      rw [regex.count_build]
      exact Nat.lt_succ_self _
    rw [regex.accept_build, regex.accept_eq_states, regex.label_build allocated, states]

/-- An automaton is built of a letter under 5000 repetitions, but a thousand calls inside each other do not read what
was written of it. -/
theorem ofValueWithin_optionals :
    (∃ built, (optionals 5000).build = .ok built ∧ built.automaton.states.length = 10002 ∧
      built.automaton.graph.label built.automaton.accept = 10001) ∧
      ofValueWithin (some 1000) (optionals 5000).toValue = .error .exhausted := by
  refine ⟨build_optionals 5000, ofValueWithin_of_lt (optionals 5000).writtenAs_toValue.ofValue ?_⟩
  rw [depth_optionals]
  decide

end RegexAutomaton.Tree
