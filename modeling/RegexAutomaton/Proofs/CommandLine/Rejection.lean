import RegexAutomaton.Proofs.CommandLine.Answer
import RegexAutomaton.Proofs.Construction.Rejection
import RegexAutomaton.Proofs.Text.Lines
import RegexAutomaton.Proofs.Tree.Grammar
import RegexAutomaton.Proofs.Value.Display
import RegexAutomaton.Proofs.Value.RoundTrip

/-!
# Rejected trees in one line

Whatever is wrong with a tree, the report of it is printable: the summary is one of a few fixed texts, and the kind of
the node may be any value but is shown as in all messages. So nothing that stands in a tree can end the line on which a
run tells of it.
-/

set_option autoImplicit false

namespace RegexAutomaton

open Text (Printable printable_append)

theorem StructureError.printable_text {error : StructureError} (summary : Printable error.summary.toList) :
    Printable error.text.toList := by
  have kind := error.nodeType.printable_display
  unfold text
  cases error.field with
  | none =>
      have colon : Printable ": ".toList := by decide
      simp only [String.toList_append, printable_append]
      exact ⟨⟨summary, colon⟩, kind⟩
  | some field =>
      have node : Printable ". Node ".toList := by decide
      have requires : Printable " requires ".toList := by decide
      simp only [String.toList_append, printable_append]
      exact ⟨⟨⟨⟨summary, node⟩, kind⟩, requires⟩, field.printable_display⟩

theorem Defect.printable_summary (defect : Defect) : Printable defect.summary.toList := by
  cases defect <;> decide

namespace Tree

open StructureError

variable {value : Value} {error : StructureError}

theorem exists_report_of_ofValue (failed : ofValue value = .error error) :
    ∃ (defect : Defect) (kind : Value), error = defect.report kind := by
  have found := of?_eq_some_iff.2 failed
  rw [of?_ofValue, Requirement.findSome?_eq_some_iff] at found
  obtain ⟨_, requirement, _, -, -, -, rfl⟩ := found
  cases requirement with
  | type node => exact ⟨.missingType, _, rfl⟩
  | literal node => exact ⟨.literalNotText, _, rfl⟩
  | parts node => exact ⟨.partsNotList, _, rfl⟩
  | sub node => exact ⟨.subNotObject, _, rfl⟩

theorem exists_report_of_build {tree : Tree} (failed : tree.build = .error error) :
    ∃ (defect : Defect) (kind : Value), error = defect.report kind := by
  have found := of?_eq_some_iff.2 failed
  rw [of?_build, findSome?_eq_some_iff] at found
  obtain ⟨_, node, _, -, -, defective⟩ := found
  cases defective with
  | unknownKind kind => exact ⟨.unknownKind, kind, rfl⟩
  | missingLiteral => exact ⟨.missingLiteral, _, rfl⟩
  | missingParts => exact ⟨.missingParts, _, rfl⟩
  | missingSub => exact ⟨.missingSub, _, rfl⟩

/-- A tree is rejected with the report of a defect, no matter when. -/
theorem exists_report (rejected : (do let tree ← ofValue value; tree.build) = .error error) :
    ∃ (defect : Defect) (kind : Value), error = defect.report kind := by
  cases read : ofValue value with
  | error found =>
      rw [read] at rejected
      cases rejected
      exact exists_report_of_ofValue read
  | ok tree =>
      rw [read] at rejected
      exact exists_report_of_build rejected

end Tree

namespace CommandLine

variable {value : Value} {error : StructureError}

theorem automaton?_of_rejected {text : String} (parsed : Value.read text = .ok value)
    (rejected : (do let tree ← Tree.ofValue value; tree.build) = .error error) :
    automaton? .unlimited text = .error (.malformed error) := by
  rw [automaton?_unlimited, parsed]
  dsimp only
  cases read : Tree.ofValue value with
  | error found =>
      rw [read] at rejected
      cases rejected
      rfl
  | ok tree =>
      rw [read] at rejected
      have failed : tree.build = .error error := rejected
      dsimp only
      rw [failed]
      rfl

/-- When a tree is rejected, be it read or built, the report has no line breaks, no control characters and nothing else
that is not printable. Runs on this tree, with whatever options, fail with exactly one line beside their output, which
holds the report. -/
theorem run_rejects_in_one_line (rejected : (do let tree ← Tree.ofValue value; tree.build) = .error error) :
    (∀ character ∈ error.text.toList,
      Text.isLineBreak character = false ∧ ¬Text.IsControl character ∧ Text.isPrintable character = true) ∧
    ∀ (arguments : List String) (options : Options) (input : String) (files : String → Option String) (text : String),
      Options.ofArguments arguments = .ok options → options.source.content input files = .ok text →
      Value.read text = .ok value →
      run arguments input files = .finished ⟨1, "", "Invalid syntax tree: " ++ error.text ++ "\n"⟩ ∧
        Text.lines ("Invalid syntax tree: " ++ error.text ++ "\n") = ["Invalid syntax tree: " ++ error.text] := by
  obtain ⟨defect, kind, reported⟩ := Tree.exists_report rejected
  have printable : Printable error.text.toList := by
    rw [reported]
    exact StructureError.printable_text defect.printable_summary
  refine ⟨fun character member => ?_, ?_⟩
  · have shown := printable character member
    exact ⟨Text.isLineBreak_of_isPrintable shown, Text.not_isControl_of_isPrintable shown, shown⟩
  · intro arguments options input files text accepted readable parsed
    constructor
    · rw [run_of_accepted accepted readable, answer_of_error (automaton?_of_rejected parsed rejected)]
      rfl
    · have start : Text.Unbroken "Invalid syntax tree: " := by decide
      have message : Text.Unbroken error.text :=
        fun character member => Text.isLineBreak_of_isPrintable (printable character member)
      have line := Text.lines_join (List.forall_mem_singleton.2 (start.append message))
      simpa using line

/-- A kind that would end the line in several ways, with both quotes and with a key that goes back to the start of the
line. -/
theorem run_rejects_in_one_line_forged :
    let kind := Value.list
      [.text "a'\n\"b\u2028\x85", .object [("\x0d\x1b", .text "'\\"), ("", .list [.null, .integer (-1)])]]
    let input := (Value.object [("type", kind)]).written ++ "\n"
    let shown := "['a\\'\\n\"b\\u2028\\x85', \x7b'\\r\\x1b': \"'\\\\\", '': [None, -1]\x7d]"
    (do let tree ← Tree.ofValue (.object [("type", kind)]); tree.build) =
        .error ⟨"Unrecognized node kind", kind, none⟩ ∧
      run ["--split"] input (fun _ => none) =
        .finished ⟨1, "", "Invalid syntax tree: Unrecognized node kind: " ++ shown ++ "\n"⟩ ∧
      Text.lines ("Invalid syntax tree: Unrecognized node kind: " ++ shown ++ "\n") =
        ["Invalid syntax tree: Unrecognized node kind: " ++ shown] := by
  intro kind input shown
  have rejected : (do let tree ← Tree.ofValue (.object [("type", kind)]); tree.build) =
      .error ⟨"Unrecognized node kind", kind, none⟩ := by
    have failed : (Tree.node kind none none none).build = .error ⟨"Unrecognized node kind", kind, none⟩ := by
      rw [Tree.build_eq_regex]
      rfl
    exact failed
  have text : (⟨"Unrecognized node kind", kind, none⟩ : StructureError).text = "Unrecognized node kind: " ++ shown := by
    decide +kernel
  have accepted : Options.ofArguments ["--split"] = .ok ⟨.standardInput, true, false, [], some Symbol.epsilon⟩ := by
    decide +kernel
  have readable : kind.Readable := by
    have short : (Label.magnitude (-1)).length ≤ Text.maxDigits := by decide
    have numbers : (Value.list [.null, .integer (-1)]).Readable :=
      .list (List.forall_mem_cons.2 ⟨.null, List.forall_mem_singleton.2 (.integer short)⟩)
    have keyed : (Value.object [("\x0d\x1b", .text "'\\"), ("", .list [.null, .integer (-1)])]).Readable :=
      .object (show ["\x0d\x1b", ""].Nodup by decide)
        (List.forall_mem_cons.2 ⟨.text _, List.forall_mem_singleton.2 numbers⟩)
    exact .list (List.forall_mem_cons.2 ⟨.text _, List.forall_mem_singleton.2 keyed⟩)
  have parsed : Value.read input = .ok (.object [("type", kind)]) :=
    Value.read_line (.object (List.nodup_singleton _) (List.forall_mem_singleton.2 readable))
  obtain ⟨-, runs⟩ := run_rejects_in_one_line rejected
  obtain ⟨ends, line⟩ := runs _ _ input (fun _ => none) input accepted rfl parsed
  rw [text, ← String.append_assoc] at ends line
  exact ⟨rejected, ends, line⟩

end CommandLine

end RegexAutomaton
