import RegexAutomaton.Proofs.CommandLine.Answer
import RegexAutomaton.Proofs.Construction.Letters
import RegexAutomaton.Proofs.Construction.Size
import RegexAutomaton.Proofs.Tree.Grammar
import RegexAutomaton.Proofs.Value.Extent
import RegexAutomaton.Proofs.Value.RoundTrip

/-!
# Exports read back

What a run writes of an automaton is read as the export of the automaton again, whatever the letters hold. All labels
are short enough for this, because a tree with more states than there are short labels takes a longer text. The signs in
the export are the literals of the tree, each once, and signs of the void symbol.
-/

set_option autoImplicit false

namespace RegexAutomaton

/-! ## The states that a text has room for -/

namespace Tree

/-- A list has room for two states more than its trees have, for each of them. -/
theorem totalAll_le_extent {trees : List Tree} {values : List Value} (mirrors : MirrorsAll trees values)
    (each : ∀ tree ∈ trees, ∀ value, tree.Mirrors value → tree.total Kind.ownStates < value.extent) :
    2 * trees.length + totalAll Kind.ownStates trees ≤ Value.extentOfAll values := by
  induction trees generalizing values with
  | nil => exact Nat.zero_le _
  | cons tree rest ih =>
      obtain ⟨first, others, rfl, firstMirrors, othersMirror⟩ := mirrors
      obtain ⟨here, later⟩ := List.forall_mem_cons.1 each
      have below := here first firstMirrors
      have behind := ih othersMirror later
      rw [List.length_cons, totalAll, Value.extentOfAll]
      omega

theorem totalParts_le_extent {parts : Option (List Tree)} {value : Value}
    (mirrors : MirrorsParts parts (value.get? "parts")) (typed : 6 ≤ value.extent)
    (each : ∀ trees, parts = some trees → ∀ tree ∈ trees, ∀ value, tree.Mirrors value →
      tree.total Kind.ownStates < value.extent) :
    2 * (parts.getD []).length + totalParts Kind.ownStates parts + 6 ≤ value.extent := by
  cases parts with
  | none => exact typed
  | some trees =>
      obtain ⟨values, listed, mirrorsAll⟩ := mirrors
      have inside := totalAll_le_extent mirrorsAll (each trees rfl)
      have outside := Value.extent_get? listed
      rw [Value.extent] at outside
      rw [totalParts, Option.getD_some]
      omega

/-- A tree adds fewer states than the value that it is read from has characters. -/
theorem total_lt_extent {tree : Tree} {value : Value} (mirrors : tree.Mirrors value) :
    tree.total Kind.ownStates < value.extent := by
  induction tree using Tree.induction generalizing value with
  | node kind literal parts sub partsInduction subInduction =>
      obtain ⟨typed, -, areParts, isSub⟩ := mirrors
      have kindExtent := Value.extent_get? typed
      have room : 6 ≤ value.extent := by
        have pos : 0 < kind.extent := by cases kind <;> simp [Value.extent]
        omega
      have partsRoom := totalParts_le_extent areParts room
        fun trees found tree member _ mirrors => partsInduction trees found tree member mirrors
      have subRoom : totalSub Kind.ownStates sub + 5 ≤ value.extent := by
        cases sub with
        | none => exact Nat.le_of_succ_le room
        | some sub =>
            obtain ⟨entries, found, below⟩ := isSub
            have outside := Value.extent_get? found
            have inside := subInduction sub rfl below
            rw [totalSub]
            omega
      rw [total]
      split
      · omega
      all_goals
        rw [Kind.ownStates]
        omega

/-- An automaton has no more states than the text that it is read from has characters. -/
theorem count_le_length {text : String} {value : Value} {tree : Tree} {built : Built}
    (parsed : Value.read text = .ok value) (shaped : ofValue value = .ok tree) (success : tree.build = .ok built) :
    built.count ≤ text.toList.length := by
  obtain ⟨regex, stands, rfl⟩ := regex_of_build success
  have room := total_lt_extent ((ofValue_eq_ok_iff value tree).1 shaped)
  have length := Value.extent_le_length parsed
  rw [regex.count_build, regex.states_eq_total, ← total_of_regex stands]
  omega

end Tree

/-! ## Exports that are read back -/

namespace Element

def labels : Element → List Label
  | node label => [label]
  | edge source target _ => [source, target]

/-- The sign that an edge shows for its symbol. -/
def sign? : Element → Option String
  | node _ => none
  | edge _ _ symbol => some symbol

theorem readable_toValue {element : Element}
    (short : ∀ label ∈ element.labels, (Label.magnitude label).length ≤ Text.maxDigits) : element.toValue.Readable := by
  cases element with
  | node label =>
      have isLabel : (Value.integer label).Readable := .integer (short label List.mem_cons_self)
      have data : (Value.object [("id", .integer label), ("label", .integer label)]).Readable := by
        refine .object (show ["id", "label"].Nodup by decide) ?_
        simpa using isLabel
      refine .object (List.nodup_singleton _) ?_
      simpa using data
  | edge source target symbol =>
      simp only [labels, List.forall_mem_cons] at short
      have data : (Value.object
          [("source", .integer source), ("target", .integer target), ("label", .text symbol)]).Readable := by
        refine .object (show ["source", "target", "label"].Nodup by decide) ?_
        simpa using ⟨.integer short.1, .integer short.2.1, .text symbol⟩
      refine .object (List.nodup_singleton _) ?_
      simpa using data

end Element

namespace Export

def elements : Export → List Element
  | joint elements => elements
  | split nodes edges => nodes ++ edges

/-- The signs of the edges, in order. -/
def signs (exported : Export) : List String :=
  exported.edges.filterMap Element.sign?

theorem readable_toValue {exported : Export}
    (short : ∀ element ∈ exported.elements, ∀ label ∈ element.labels, (Label.magnitude label).length ≤ Text.maxDigits) :
    exported.toValue.Readable := by
  have listed : ∀ elements : List Element, (∀ element ∈ elements, element ∈ exported.elements) →
      (Value.list (elements.map Element.toValue)).Readable := by
    intro elements within
    apply Value.Readable.list
    intro value member
    obtain ⟨element, isElement, rfl⟩ := List.mem_map.1 member
    exact Element.readable_toValue (short element (within element isElement))
  cases exported with
  | joint elements => exact listed elements fun _ member => member
  | split nodes edges =>
      have nodesRead := listed nodes fun _ member => List.mem_append_left _ member
      have edgesRead := listed edges fun _ member => List.mem_append_right _ member
      refine .object (show ["nodes", "edges"].Nodup by decide) ?_
      simpa using ⟨nodesRead, edgesRead⟩

end Export

namespace Automaton

variable (automaton : Automaton)

theorem elements_toExport_perm (split : Bool) : (automaton.toExport split).elements.Perm automaton.elements := by
  cases split with
  | false => exact .refl _
  | true => exact List.filter_append_perm Element.isNode automaton.elements

theorem signs_toExport (split : Bool) :
    (automaton.toExport split).signs =
      (automaton.walk.filterMap Walk.Item.arc?).map fun arc => arc.symbol.display := by
  rw [Export.signs, edges_toExport, elements, List.filterMap_filter, List.filterMap_map, List.map_filterMap]
  congr 1
  funext item
  cases item <;> rfl

end Automaton

namespace Regex

variable (regex : Regex)

/-- The labels in an export are those of allocated states. -/
theorem label_lt_of_mem_elements {element : Element} (member : element ∈ regex.build.automaton.elements) {label : Label}
    (isLabel : label ∈ element.labels) : ∃ number : Nat, label = number ∧ number < regex.build.count := by
  obtain ⟨item, inWalk, rfl⟩ := List.mem_map.1 member
  cases item with
  | discovered vertex =>
      have isState : vertex ∈ regex.build.automaton.states := List.mem_filterMap.2 ⟨_, inWalk, rfl⟩
      have allocated := (regex.mem_states_build vertex).1 isState
      rw [List.mem_singleton.1 isLabel]
      exact ⟨vertex, regex.label_build allocated, allocated⟩
  | followed vertex transition =>
      have followed : ⟨vertex, transition.symbol, transition.target⟩ ∈
          regex.build.automaton.walk.filterMap Walk.Item.arc? := List.mem_filterMap.2 ⟨_, inWalk, rfl⟩
      have isArc := regex.arcs_build_perm.mem_iff.1 (regex.build.automaton.followed_perm.mem_iff.1 followed)
      obtain ⟨source, target⟩ := ends_of_mem_arcs isArc
      obtain ⟨sourceLabel, targetLabel⟩ := labels_of_mem_arcs isArc
      simp only [Element.ofItem, Element.labels, List.mem_cons, List.not_mem_nil, or_false] at isLabel
      rcases isLabel with rfl | rfl
      · exact ⟨vertex, sourceLabel, source⟩
      · exact ⟨transition.target, targetLabel, target⟩

/-- As long as there are short labels for all states, the export can be read back. -/
theorem readable_toExport (fits : regex.build.count ≤ 10 ^ Text.maxDigits) (split : Bool) :
    (regex.build.automaton.toExport split).toValue.Readable := by
  apply Export.readable_toValue
  intro element member label isLabel
  have inElements := (regex.build.automaton.elements_toExport_perm split).mem_iff.1 member
  obtain ⟨number, rfl, allocated⟩ := regex.label_lt_of_mem_elements inElements isLabel
  have positive : 0 < Text.maxDigits := by decide
  rw [Label.magnitude, Int.natAbs_natCast]
  apply (Nat.length_toDigits_le_iff (by decide) positive).2
  exact Nat.lt_of_lt_of_le allocated fits

/-- The signs in an export are the letters, each once, and signs of the void symbol. -/
theorem signs_toExport_perm (split : Bool) :
    (regex.build.automaton.toExport split).signs.Perm
      (regex.letters.map (fun letter => letter.symbol.text) ++
        List.replicate (regex.build.automaton.arcs.countP fun arc => arc.symbol = Symbol.epsilon) "ε") := by
  rw [Automaton.signs_toExport]
  exact (regex.build.automaton.followed_perm.map _).trans regex.display_arcs_perm

end Regex

namespace CommandLine

variable {text : String} {value : Value} {tree : Tree} {built : Built}

/-- What a run writes of an automaton, be it in one list or in two, is read as the value of the export. In the export
there are the literals of the tree, each as often as it is used, and the sign of the void symbol for all transitions that
have no literal. The bound leaves out no text that a memory could hold: labels become too long to be read only behind
more states than a shorter text has room for. -/
theorem run_export_reads_back (parsed : Value.read text = .ok value) (shaped : Tree.ofValue value = .ok tree)
    (success : tree.build = .ok built) (bounded : text.toList.length ≤ 10 ^ Text.maxDigits) :
    (∀ (arguments : List String) (options : Options) (input : String) (files : String → Option String),
      Options.ofArguments arguments = .ok options → options.closure = [] →
      options.source.content input files = .ok text →
      ∃ output, run arguments input files = .finished ⟨0, output, if options.verbose then details built else ""⟩ ∧
        Value.read output = .ok (built.automaton.toExport options.split).toValue) ∧
    ∀ split, ((built.automaton.toExport split).signs.map some).Perm
      ((tree.visited.filter Tree.isText).map Tree.literal ++
        List.replicate (built.automaton.arcs.countP fun arc => arc.symbol = Symbol.epsilon) (some "ε")) := by
  have count := Tree.count_le_length parsed shaped success
  have describes : Describes text built := ⟨value, tree, parsed, shaped, success⟩
  obtain ⟨regex, stands, rfl⟩ := Tree.regex_of_build success
  constructor
  · intro arguments options input files accepted noLabels readable
    have readsBack := Value.read_line (regex.readable_toExport (Nat.le_trans count bounded) options.split)
    have described : describe options regex.build.automaton =
        .ok (regex.build.automaton.toExport options.split).toValue := by
      rw [describe, noLabels]
      rfl
    refine ⟨_, ?_, readsBack⟩
    rw [run_of_accepted accepted readable, answer_of_describes describes, described]
  · intro split
    have signs := (regex.signs_toExport_perm split).map some
    rw [List.map_append, List.map_map, List.map_replicate] at signs
    rw [Tree.map_literal_visited stands]
    exact signs

/-- A literal with all sorts of escapes, one that looks like the void symbol, and a void transition. -/
theorem run_export_reads_back_escapes :
    let input := "\x7b\"type\": \"cat\", \"parts\": [\x7b\"type\": \"text\", " ++
      "\"symbol\": \"\\\"\\\\\\n\\u0001\\u2028\\ud83d\\ude00\"\x7d, \x7b\"type\": \"empty\"\x7d, " ++
      "\x7b\"type\": \"text\", \"text\": \"ε\"\x7d]\x7d"
    let nodes := [Element.node 0, .node 1, .node 2, .node 3]
    let edges := [Element.edge 0 1 "\"\\\n\x01\u2028😀", .edge 1 2 "ε", .edge 2 3 "ε"]
    input.toList.length ≤ 10 ^ Text.maxDigits ∧
      ∃ output, run ["--split"] input (fun _ => none) = .finished ⟨0, output, ""⟩ ∧
        Value.read output = .ok (Export.split nodes edges).toValue := by
  intro input nodes edges
  have describes : Describes input
      ⟨⟨"NFA", ⟨#[⟨0, [⟨⟨"\"\\\n\x01\u2028😀"⟩, 1⟩]⟩, ⟨1, [⟨Symbol.epsilon, 2⟩]⟩, ⟨2, [⟨⟨"ε"⟩, 3⟩]⟩, ⟨3, []⟩]⟩, 0, 3⟩, 4⟩ :=
    describes_of_toOption (by decide +kernel)
  obtain ⟨value, tree, parsed, shaped, success⟩ := describes
  have bounded : input.toList.length ≤ 10 ^ Text.maxDigits := by
    have short : input.toList.length ≤ Text.maxDigits := by decide +kernel
    exact Nat.le_trans short (Nat.le_of_lt (Nat.lt_pow_self (by decide)))
  have accepted : Options.ofArguments ["--split"] = .ok ⟨.standardInput, true, false, [], some Symbol.epsilon⟩ := by
    decide +kernel
  obtain ⟨runs, -⟩ := run_export_reads_back parsed shaped success bounded
  obtain ⟨output, ends, readsBack⟩ := runs _ _ input (fun _ => none) accepted rfl rfl
  exact ⟨bounded, output, ends, readsBack⟩

end CommandLine

end RegexAutomaton
