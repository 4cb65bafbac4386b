import RegexAutomaton.Proofs.Automaton.Mesh
import RegexAutomaton.Proofs.Construction.Letters

/-!
# Line breaks in a mesh

A symbol that holds line breaks cuts the line of its transition into several lines of the mesh. The last one ends as the
whole line would have. Those before it are lines on their own, and they may look like the end of a line into the accept
state, or as if they were marked already.
-/

set_option autoImplicit false

namespace RegexAutomaton

/-- Whether a line ends with the mark of the lines into the accept state. -/
def Text.isMarked (line : String) : Bool :=
  " -->".toList.isSuffixOf line.toList

namespace Automaton

variable (automaton : Automaton)

/-- What the symbol of a transition cuts off from the front of its line. -/
def cutOff (arc : Arc) : List String :=
  (Text.lines (automaton.arcLine arc)).dropLast

/-- The line of a transition is cut into one line more than there are breaks in the symbol. -/
theorem exists_lines_arcLine (arc : Arc) :
    ∃ (last : String) (before : List Char), Text.lines (automaton.arcLine arc) = automaton.cutOff arc ++ [last] ∧
      last.toList = before ++ ' ' :: ((automaton.graph.label arc.target).padded automaton.labelWidth).toList ∧
      (automaton.cutOff arc).length = Text.breakCount arc.symbol.display.toList ∧
      Text.MakesUp (automaton.arcLine arc) (Text.lines (automaton.arcLine arc)) := by
  have unbroken : ∀ character ∈ ' ' :: ((automaton.graph.label arc.target).padded automaton.labelWidth).toList,
      Text.isLineBreak character = false := List.forall_mem_cons.2 ⟨by decide, Label.unbroken_padded _ _⟩
  obtain ⟨front, last, count, whole, makesUp⟩ := Text.exists_lines
    (((automaton.graph.label arc.source).padded automaton.labelWidth).toList ++ ' ' :: arc.symbol.display.toList)
    (List.cons_ne_nil _ _) unbroken
  rw [← toList_arcLine, String.ofList_toList] at whole makesUp
  have cut : automaton.cutOff arc = front := by
    rw [cutOff, whole, List.dropLast_concat]
  refine ⟨_, last, ?_, String.toList_ofList, ?_, ?_⟩
  · rw [cut, whole]
  · have start : ∀ character ∈ ((automaton.graph.label arc.source).padded automaton.labelWidth).toList ++ [' '],
        Text.isLineBreak character = false :=
      List.forall_mem_append.2 ⟨Label.unbroken_padded _ _, List.forall_mem_singleton.2 (by decide)⟩
    have inSymbol := Text.breakCount_append start arc.symbol.display.toList
    rw [List.append_assoc] at inSymbol
    rw [cut, count]
    exact inSymbol
  · rw [whole]
    exact makesUp

/-- The lines behind the first one before they are sorted and marked. -/
def pieces : List String :=
  automaton.arcs.flatMap fun arc => Text.lines (automaton.arcLine arc)

theorem unsortedLines_eq :
    automaton.unsortedLines =
      ("--> " ++ (automaton.graph.label automaton.initial).padded automaton.labelWidth) :: automaton.pieces := by
  have nonempty : "--> " ++ (automaton.graph.label automaton.initial).padded automaton.labelWidth ≠ "" := by
    intro empty
    simpa using congrArg String.toList empty
  have start := automaton.unbroken_start.lines_eq nonempty
  have each : ∀ line ∈ ("--> " ++ (automaton.graph.label automaton.initial).padded automaton.labelWidth) ::
      automaton.arcs.map automaton.arcLine, Text.MakesUp line (Text.lines line) := by
    refine List.forall_mem_cons.2 ⟨?_, ?_⟩
    · rw [start]
      exact automaton.unbroken_start.makesUp
    · intro line member
      obtain ⟨arc, -, rfl⟩ := List.mem_map.1 member
      obtain ⟨-, -, -, -, -, makesUp⟩ := automaton.exists_lines_arcLine arc
      exact makesUp
  have cut := Text.lines_join_of_makesUp each
  rw [List.flatMap_cons, start, List.singleton_append, List.flatMap_map, ← flatMap_transitionLines] at cut
  exact cut

/-- Whether a line ends like those into the accept state. -/
def endsEntering (line : String) : Bool :=
  automaton.acceptSuffix.isSuffixOf line.toList

theorem meshLines_eq :
    automaton.meshLines =
      ("--> " ++ (automaton.graph.label automaton.initial).padded automaton.labelWidth) ::
        sortLines (automaton.pieces.filter fun line => !automaton.endsEntering line) ++
          sortLines ((automaton.pieces.filter automaton.endsEntering).map fun line => line ++ " -->") := by
  rw [meshLines, unsortedLines_eq]
  dsimp only
  rw [List.partition_eq_filter_filter]
  rfl

theorem sortLines_perm (lines : List String) : (sortLines lines).Perm lines :=
  List.mergeSort_perm _ _

theorem unbroken_of_mem_pieces {piece : String} (member : piece ∈ automaton.pieces) : Text.Unbroken piece := by
  obtain ⟨arc, -, inLine⟩ := List.mem_flatMap.1 member
  exact Text.unbroken_of_mem_lines inLine

/-- The lines of the text that is printed are those that it has been made of. -/
theorem lines_mesh : Text.lines automaton.mesh = automaton.meshLines := by
  apply Text.lines_join
  rw [meshLines_eq]
  intro line member
  rw [List.cons_append, List.mem_cons, List.mem_append, (sortLines_perm _).mem_iff, (sortLines_perm _).mem_iff] at member
  rcases member with rfl | other | marked
  · exact automaton.unbroken_start
  · exact automaton.unbroken_of_mem_pieces (List.mem_of_mem_filter other)
  · obtain ⟨piece, isPiece, rfl⟩ := List.mem_map.1 marked
    have mark : Text.Unbroken " -->" := by decide
    exact (automaton.unbroken_of_mem_pieces (List.mem_of_mem_filter isPiece)).append mark

/-! ## Counting lines -/

theorem length_lines_mesh : (Text.lines automaton.mesh).length = 1 + automaton.pieces.length := by
  have parts := List.length_eq_length_filter_add (l := automaton.pieces) automaton.endsEntering
  rw [lines_mesh, meshLines_eq, List.length_append, List.length_cons, (sortLines_perm _).length_eq,
    (sortLines_perm _).length_eq, List.length_map]
  omega

theorem isMarked_append (line : String) : Text.isMarked (line ++ " -->") = true := by
  rw [Text.isMarked, List.isSuffixOf_iff_suffix, String.toList_append]
  exact List.suffix_append _ _

theorem not_isMarked {line : String} {before : List Char} {label : Label}
    (ends : line.toList = before ++ ' ' :: (label.padded automaton.labelWidth).toList) : Text.isMarked line = false := by
  rw [Bool.eq_false_iff, ne_eq, Text.isMarked, List.isSuffixOf_iff_suffix, ends]
  exact automaton.not_marked_append before label

/-- Lines end with a mark if they have been marked, or if they end so anyway. -/
theorem countP_lines_mesh :
    (Text.lines automaton.mesh).countP Text.isMarked =
      automaton.pieces.countP fun line => automaton.endsEntering line || Text.isMarked line := by
  have start : Text.isMarked
      ("--> " ++ (automaton.graph.label automaton.initial).padded automaton.labelWidth) = false := by
    have ends : ("--> " ++ (automaton.graph.label automaton.initial).padded automaton.labelWidth).toList =
        "-->".toList ++ ' ' :: ((automaton.graph.label automaton.initial).padded automaton.labelWidth).toList := by simp
    exact automaton.not_isMarked ends
  have marked : ((automaton.pieces.filter automaton.endsEntering).map fun line => line ++ " -->").countP Text.isMarked =
      (automaton.pieces.filter automaton.endsEntering).countP fun line =>
        automaton.endsEntering line || Text.isMarked line := by
    rw [List.countP_map]
    apply List.countP_congr
    intro line member
    simp [isMarked_append, (List.mem_filter.1 member).2]
  have others : (automaton.pieces.filter fun line => !automaton.endsEntering line).countP Text.isMarked =
      (automaton.pieces.filter fun line => !automaton.endsEntering line).countP fun line =>
        automaton.endsEntering line || Text.isMarked line := by
    apply List.countP_congr
    intro line member
    have notEntering := (List.mem_filter.1 member).2
    simp_all
  rw [lines_mesh, meshLines_eq, List.countP_append, List.countP_cons, start, (sortLines_perm _).countP_eq,
    (sortLines_perm _).countP_eq, marked, others,
    List.countP_eq_countP_filter_add automaton.pieces _ automaton.endsEntering]
  simp [Nat.add_comm]

/-- What is counted among the lines of a mesh is one line for each transition and those that have been cut off. -/
theorem length_pieces :
    automaton.pieces.length = automaton.arcs.length + (automaton.arcs.flatMap automaton.cutOff).length := by
  rw [pieces]
  induction automaton.arcs with
  | nil => rfl
  | cons arc rest ih =>
      obtain ⟨last, -, whole, -, -, -⟩ := automaton.exists_lines_arcLine arc
      rw [List.flatMap_cons, List.flatMap_cons, List.length_append, List.length_append, ih, whole, List.length_append,
        List.length_singleton, List.length_cons]
      omega

theorem countP_pieces :
    (automaton.pieces.countP fun line => automaton.endsEntering line || Text.isMarked line) =
      (automaton.arcs.countP fun arc => automaton.Enters arc) +
        (automaton.arcs.flatMap automaton.cutOff).countP fun line =>
          automaton.endsEntering line || Text.isMarked line := by
  rw [pieces]
  induction automaton.arcs with
  | nil => rfl
  | cons arc rest ih =>
      obtain ⟨last, before, whole, ends, -, -⟩ := automaton.exists_lines_arcLine arc
      have entering := automaton.acceptSuffix_isSuffixOf_append before arc
      have unmarked := automaton.not_isMarked ends
      rw [List.flatMap_cons, List.flatMap_cons, List.countP_append, List.countP_append, ih, whole, List.countP_append,
        List.countP_singleton, unmarked, Bool.or_false, endsEntering, ends, entering, List.countP_cons]
      omega

theorem length_cutOff :
    (automaton.arcs.flatMap automaton.cutOff).length =
      (automaton.arcs.map fun arc => Text.breakCount arc.symbol.display.toList).sum := by
  rw [List.length_flatMap]
  refine congrArg List.sum (List.map_congr_left fun arc _ => ?_)
  obtain ⟨-, -, -, -, count, -⟩ := automaton.exists_lines_arcLine arc
  exact count

end Automaton

/-! ## The mesh of a tree -/

namespace Regex

variable (regex : Regex)

theorem enters_iff {arc : Arc} (member : arc ∈ regex.build.automaton.arcs) :
    regex.build.automaton.Enters arc ↔ arc.target = regex.build.automaton.accept := by
  have target := (labels_of_mem_arcs (regex.arcs_build_perm.mem_iff.1 member)).2
  have accept : regex.build.automaton.graph.label regex.build.automaton.accept = regex.build.automaton.accept := by
    apply regex.label_build
    rw [regex.accept_build, regex.accept_eq_states, regex.count_build]
    exact Nat.lt_succ_of_le (by omega)
  rw [Automaton.Enters, target, accept]
  exact Int.ofNat_inj

/-- Only letters can break lines, so there are as many lines cut off as there are breaks in the letters. -/
theorem length_cutOff_build :
    (regex.build.automaton.arcs.flatMap regex.build.automaton.cutOff).length =
      ((regex.letters.map fun letter => letter.symbol.text).map fun text => Text.breakCount text.toList).sum := by
  have breaks := regex.display_arcs_perm.map fun sign => Text.breakCount sign.toList
  have void : Text.breakCount "ε".toList = 0 := by decide
  rw [List.map_append, List.map_replicate, void, List.map_map] at breaks
  rw [Automaton.length_cutOff]
  exact breaks.sum_nat.trans (by simp)

end Regex

namespace Tree

variable {tree : Tree} {built : Built}

/-- A mesh has a line for the initial state, one for each transition, and one more for each line break in the literals of
the tree. Those that end with the mark are the lines of the transitions into the accept state, and of what the literals
cut off the lines that look like one of them or end with the mark by themselves. -/
theorem build_mesh_lines (success : tree.build = .ok built) :
    let literals := (tree.visited.filter isText).filterMap literal
    let cutOff := built.automaton.arcs.flatMap built.automaton.cutOff
    (Text.lines built.automaton.mesh).length = 1 + built.automaton.arcs.length + cutOff.length ∧
      (Text.lines built.automaton.mesh).countP Text.isMarked =
        (built.automaton.arcs.countP fun arc => arc.target = built.automaton.accept) +
          cutOff.countP (fun line => built.automaton.endsEntering line || Text.isMarked line) ∧
      cutOff.length = (literals.map fun literal => Text.breakCount literal.toList).sum ∧
      (cutOff = [] ↔ ∀ literal ∈ literals, Text.Unbroken literal) := by
  intro literals cutOff
  obtain ⟨regex, stands, rfl⟩ := regex_of_build success
  have spelled : literals = regex.letters.map fun letter => letter.symbol.text := literals_visited stands
  have breaks : cutOff.length = (literals.map fun literal => Text.breakCount literal.toList).sum := by
    rw [spelled]
    exact regex.length_cutOff_build
  refine ⟨?_, ?_, breaks, ?_⟩
  · rw [Automaton.length_lines_mesh, Automaton.length_pieces, Nat.add_assoc]
  · have entering : regex.build.automaton.arcs.countP (fun arc => regex.build.automaton.Enters arc) =
        regex.build.automaton.arcs.countP fun arc => arc.target = regex.build.automaton.accept := by
      apply List.countP_congr
      intro arc member
      rw [decide_eq_true_iff, decide_eq_true_iff, regex.enters_iff member]
    rw [Automaton.countP_lines_mesh, Automaton.countP_pieces, entering]
  · rw [← List.length_eq_zero_iff, breaks, List.sum_eq_zero_iff, List.forall_mem_map]
    simp only [Text.breakCount_eq_zero_iff]
    rfl

/-- The first literal imitates the end of a line into the accept state, before a return and a feed that make up one break.
The second one is nothing but a break. -/
theorem build_mesh_lines_imitated :
    let tree := sequence [text "x (2)\r\ny", text "\u2028"]
    ∃ built, tree.build = .ok built ∧ built.automaton.arcs.length = 2 ∧
      (built.automaton.arcs.countP fun arc => arc.target = built.automaton.accept) = 1 ∧
      (Text.lines built.automaton.mesh).length = 5 ∧ (Text.lines built.automaton.mesh).countP Text.isMarked = 2 := by
  intro tree
  let automaton : Automaton :=
    ⟨"NFA", ⟨#[⟨0, [⟨⟨"x (2)\r\ny"⟩, 1⟩]⟩, ⟨1, [⟨⟨"\u2028"⟩, 2⟩]⟩, ⟨2, []⟩]⟩, 0, 2⟩
  have success : tree.build = .ok ⟨automaton, 3⟩ := by
    rw [build_eq_regex]
    rfl
  have arcs : automaton.arcs = [⟨0, ⟨"x (2)\r\ny"⟩, 1⟩, ⟨1, ⟨"\u2028"⟩, 2⟩] := by decide
  have cutOff : automaton.arcs.flatMap automaton.cutOff = ["(0) x (2)", "(1) "] := by decide
  have entering : (["(0) x (2)", "(1) "].countP fun line => automaton.endsEntering line || Text.isMarked line) = 1 := by
    decide
  obtain ⟨lines, marked, -, -⟩ := build_mesh_lines success
  dsimp only at lines marked
  rw [cutOff] at lines marked
  rw [entering] at marked
  rw [arcs] at lines marked
  exact ⟨_, success, congrArg List.length arcs, congrArg _ arcs, lines, marked⟩

/-- There are not as many lines as transitions, and not as many marks as transitions into the accept state. -/
theorem mesh_lines_broken :
    ∃ built, (text "a -->\nb").build = .ok built ∧ built.automaton.arcs.length = 1 ∧
      (Text.lines built.automaton.mesh).length ≠ 1 + built.automaton.arcs.length ∧
      (Text.lines built.automaton.mesh).countP Text.isMarked ≠
        built.automaton.arcs.countP fun arc => arc.target = built.automaton.accept := by
  let automaton : Automaton := ⟨"NFA", ⟨#[⟨0, [⟨⟨"a -->\nb"⟩, 1⟩]⟩, ⟨1, []⟩]⟩, 0, 1⟩
  have success : (text "a -->\nb").build = .ok ⟨automaton, 2⟩ := by
    rw [build_eq_regex]
    rfl
  have mesh : automaton.mesh = "--> (0)\n(0) a -->\nb (1) -->\n" := by decide +kernel
  refine ⟨_, success, by decide, ?_, ?_⟩
  · change (Text.lines automaton.mesh).length ≠ _
    rw [mesh]
    decide
  · change (Text.lines automaton.mesh).countP _ ≠ _
    rw [mesh]
    decide

end Tree

end RegexAutomaton
