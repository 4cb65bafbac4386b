import Mathlib.Data.List.Basic
import Mathlib.Data.String.Basic
import RegexAutomaton.Automaton.Mesh
import RegexAutomaton.Proofs.Automaton.States
import RegexAutomaton.Proofs.Label.Padding
import RegexAutomaton.Proofs.Text.Lines

/-!
# What a mesh shows

As long as no symbol breaks a line, a mesh has one line for each transition. A line ends with the padded label of the
accept state just when its transition leads to a state with that label, because there is no blank in a padded label and
different labels look different. So the lines into the accept state are those that are marked and come last, and in
both groups the lines are sorted, hence their sources too unless there are signs.
-/

set_option autoImplicit false

namespace RegexAutomaton

theorem Label.unbroken_padded (width : Nat) (label : Label) : Text.Unbroken (label.padded width) := by
  intro character member
  rcases Label.isDigit_or_of_mem_padded member with isDigit | bracket
  · have bounds := Text.digit_bounds isDigit
    simp only [Text.isLineBreak, List.mem_cons, List.not_mem_nil, or_false, decide_eq_false_iff_not]
    omega
  · simp only [List.mem_cons, List.not_mem_nil, or_false] at bracket
    rcases bracket with rfl | rfl | rfl <;> decide

theorem Symbol.unbroken_display {symbol : Symbol} (unbroken : Text.Unbroken symbol.text) :
    Text.Unbroken symbol.display := by
  by_cases void : symbol = epsilon
  · subst void
    rw [display_epsilon]
    decide
  · rw [display_of_ne void]
    exact unbroken

/-- Texts with a blank and something without blanks at their ends end alike only if those are the same. -/
theorem Text.blank_isSuffix_iff {ending other before : List Char} (endingSolid : ' ' ∉ ending)
    (otherSolid : ' ' ∉ other) : ' ' :: ending <:+ before ++ ' ' :: other ↔ ending = other := by
  have solid : ∀ text : List Char, ' ' ∉ text → ∀ rest : List Char,
      (text.reverse ++ ' ' :: rest).takeWhile (· ≠ ' ') = text.reverse := by
    intro text absent rest
    rw [List.takeWhile_append_of_pos, List.takeWhile_cons_of_neg (by simp), List.append_nil]
    intro character member
    rw [List.mem_reverse] at member
    simp only [ne_eq, decide_eq_true_eq]
    rintro rfl
    exact absent member
  constructor
  · rintro ⟨front, same⟩
    have reversed := congrArg List.reverse same
    simp only [List.reverse_append, List.reverse_cons, List.append_assoc, List.singleton_append] at reversed
    have ends := congrArg (List.takeWhile (· ≠ ' ')) reversed
    rw [solid ending endingSolid, solid other otherSolid] at ends
    exact List.reverse_injective ends
  · rintro rfl
    exact ⟨before, rfl⟩

namespace Automaton

variable (automaton : Automaton)

/-- No symbol of a state's transition breaks a line. -/
def Unbroken : Prop :=
  ∀ vertex ∈ automaton.states, ∀ transition ∈ automaton.graph.transitions vertex,
    Text.Unbroken transition.symbol.text

/-- The line of a transition in the mesh, without a mark. -/
def arcLine (arc : Arc) : String :=
  automaton.graph.transitionLine automaton.labelWidth arc.source arc.transition

/-- Whether an arc leads to a state with the label of the accept state. -/
def Enters (arc : Arc) : Prop :=
  automaton.graph.label arc.target = automaton.graph.label automaton.accept

instance (arc : Arc) : Decidable (automaton.Enters arc) :=
  inferInstanceAs (Decidable (automaton.graph.label arc.target = automaton.graph.label automaton.accept))

theorem exists_greatest_label :
    ∃ greatest ∈ automaton.states,
      (∀ vertex ∈ automaton.states, automaton.graph.label vertex ≤ automaton.graph.label greatest) ∧
        automaton.labelWidth = (automaton.graph.label greatest).decimal.length := by
  have isState : automaton.initial ∈ automaton.states := List.mem_of_head? automaton.head?_states
  cases found : (automaton.states.map automaton.graph.label).max? with
  | none =>
      rw [List.max?_eq_none_iff, List.map_eq_nil_iff] at found
      rw [found] at isState
      cases isState
  | some label =>
      obtain ⟨member, greatest⟩ := List.max?_eq_some_iff.1 found
      obtain ⟨vertex, vertexIsState, rfl⟩ := List.mem_map.1 member
      refine ⟨vertex, vertexIsState, ?_, by rw [labelWidth, found]⟩
      intro other otherIsState
      exact greatest _ (List.mem_map_of_mem otherIsState)

/-! ## The lines before they are sorted -/

theorem flatMap_transitionLines :
    automaton.states.flatMap (automaton.graph.transitionLines automaton.labelWidth) =
      automaton.arcs.map automaton.arcLine := by
  rw [arcs, List.map_flatMap]
  apply congrArg (automaton.states.flatMap ·)
  funext vertex
  rw [List.map_map]
  rfl

variable {automaton}

theorem Unbroken.arcLine (unbroken : automaton.Unbroken) {arc : Arc} (member : arc ∈ automaton.arcs) :
    Text.Unbroken (automaton.arcLine arc) := by
  obtain ⟨isState, leaves⟩ := automaton.mem_arcs.1 member
  have symbol := Symbol.unbroken_display (unbroken arc.source isState arc.transition leaves)
  have blank : Text.Unbroken " " := by decide
  exact ((((Label.unbroken_padded _ _).append blank).append symbol).append blank).append (Label.unbroken_padded _ _)

variable (automaton) in
theorem unbroken_start :
    Text.Unbroken ("--> " ++ (automaton.graph.label automaton.initial).padded automaton.labelWidth) := by
  have arrow : Text.Unbroken "--> " := by decide
  exact arrow.append (Label.unbroken_padded _ _)

theorem Unbroken.unsortedLines (unbroken : automaton.Unbroken) :
    automaton.unsortedLines =
      ("--> " ++ (automaton.graph.label automaton.initial).padded automaton.labelWidth) ::
        automaton.arcs.map automaton.arcLine := by
  rw [← flatMap_transitionLines]
  apply Text.lines_join
  rw [flatMap_transitionLines, List.forall_mem_cons]
  refine ⟨automaton.unbroken_start, fun line member => ?_⟩
  obtain ⟨arc, isArc, rfl⟩ := List.mem_map.1 member
  exact unbroken.arcLine isArc

variable (automaton)

theorem toList_arcLine (arc : Arc) :
    (automaton.arcLine arc).toList =
      (((automaton.graph.label arc.source).padded automaton.labelWidth).toList ++ ' ' ::
        arc.symbol.display.toList) ++ ' ' ::
        ((automaton.graph.label arc.target).padded automaton.labelWidth).toList := by
  simp [arcLine, Graph.transitionLine, Arc.transition]

/-- What a line ends with tells the label of the target, wherever the line begins. -/
theorem acceptSuffix_isSuffixOf_append (before : List Char) (arc : Arc) :
    automaton.acceptSuffix.isSuffixOf
        (before ++ ' ' :: ((automaton.graph.label arc.target).padded automaton.labelWidth).toList) =
      decide (automaton.Enters arc) := by
  rw [Bool.eq_iff_iff, List.isSuffixOf_iff_suffix, acceptSuffix,
    Text.blank_isSuffix_iff Label.blank_not_mem_padded Label.blank_not_mem_padded, String.toList_inj,
    Label.padded_inj, decide_eq_true_iff, Enters, eq_comm]

theorem acceptSuffix_isSuffixOf (arc : Arc) :
    automaton.acceptSuffix.isSuffixOf (automaton.arcLine arc).toList = decide (automaton.Enters arc) := by
  rw [toList_arcLine, acceptSuffix_isSuffixOf_append]

/-! ## Sorted lines -/

/-- Arcs in the order of their lines. -/
def sortArcs (line : Arc → String) (arcs : List Arc) : List Arc :=
  arcs.mergeSort fun first second => decide (line first ≤ line second)

variable (line : Arc → String) (arcs : List Arc)

theorem map_sortArcs : (sortArcs line arcs).map line = sortLines (arcs.map line) :=
  List.map_mergeSort fun _ _ _ _ => rfl

theorem sortArcs_perm : (sortArcs line arcs).Perm arcs :=
  List.mergeSort_perm _ _

theorem pairwise_sortArcs :
    (sortArcs line arcs).Pairwise fun first second => line first ≤ line second := by
  have transitive : ∀ first second third : Arc, decide (line first ≤ line second) = true →
      decide (line second ≤ line third) = true → decide (line first ≤ line third) = true := by
    intro first second third early late
    exact decide_eq_true (String.le_trans (of_decide_eq_true early) (of_decide_eq_true late))
  have total : ∀ first second : Arc,
      (decide (line first ≤ line second) || decide (line second ≤ line first)) = true := by
    intro first second
    simpa using String.le_total (line first) (line second)
  exact (List.pairwise_mergeSort transitive total arcs).imp of_decide_eq_true

/-- Lines without signs are sorted by their sources. -/
theorem source_le_of_line_le (nonneg : ∀ vertex ∈ automaton.states, 0 ≤ automaton.graph.label vertex)
    {first second : Arc} (firstIsArc : first ∈ automaton.arcs) (secondIsArc : second ∈ automaton.arcs)
    (mark : String) (le : automaton.arcLine first ++ mark ≤ automaton.arcLine second ++ mark) :
    automaton.graph.label first.source ≤ automaton.graph.label second.source := by
  obtain ⟨greatest, -, isGreatest, width⟩ := automaton.exists_greatest_label
  have fits : ∀ vertex ∈ automaton.states,
      (automaton.graph.label vertex).decimal.length ≤ automaton.labelWidth := by
    intro vertex isState
    rw [width]
    exact Label.length_decimal_le (nonneg vertex isState) (isGreatest vertex isState)
  have firstIsState := (automaton.mem_arcs.1 firstIsArc).1
  have secondIsState := (automaton.mem_arcs.1 secondIsArc).1
  by_contra notLe
  have reversed := Label.padded_append_lt (nonneg _ secondIsState) (Int.not_le.1 notLe) (fits _ secondIsState)
    (fits _ firstIsState)
  apply String.not_le.2 _ le
  rw [String.lt_iff_toList_lt]
  simp only [arcLine, Graph.transitionLine, String.toList_append, List.append_assoc]
  exact reversed _ _

/-! ## The mesh -/

/-- A line without a mark has a parenthesis at its end. -/
theorem not_marked_append (before : List Char) (label : Label) :
    ¬" -->".toList <:+ before ++ ' ' :: (label.padded automaton.labelWidth).toList := by
  rintro ⟨front, same⟩
  rw [Label.toList_padded] at same
  have ends := congrArg List.getLast? same
  simp [List.getLast?_cons, List.getLast?_append] at ends

theorem not_marked (arc : Arc) : ¬" -->".toList <:+ (automaton.arcLine arc).toList := by
  rw [toList_arcLine]
  exact automaton.not_marked_append _ _

variable {automaton}

theorem Unbroken.meshLines (unbroken : automaton.Unbroken) :
    automaton.meshLines =
      ("--> " ++ (automaton.graph.label automaton.initial).padded automaton.labelWidth) ::
        (sortArcs automaton.arcLine (automaton.arcs.filter fun arc => ¬automaton.Enters arc)).map
            automaton.arcLine ++
          (sortArcs (fun arc => automaton.arcLine arc ++ " -->") (automaton.arcs.filter automaton.Enters)).map
            fun arc => automaton.arcLine arc ++ " -->" := by
  have entering : (fun line : String => automaton.acceptSuffix.isSuffixOf line.toList) ∘ automaton.arcLine =
      fun arc => decide (automaton.Enters arc) := by
    funext arc
    rw [Function.comp_apply, acceptSuffix_isSuffixOf]
  have others : (not ∘ fun line : String => automaton.acceptSuffix.isSuffixOf line.toList) ∘ automaton.arcLine =
      fun arc => decide ¬automaton.Enters arc := by
    rw [Function.comp_assoc, entering]
    funext arc
    exact decide_not.symm
  rw [Automaton.meshLines, unbroken.unsortedLines]
  dsimp only
  rw [List.partition_eq_filter_filter, List.filter_map, List.filter_map]
  dsimp only
  rw [entering, others, map_sortArcs, map_sortArcs, List.map_map]
  rfl

/-- When no symbol breaks a line, a mesh shows the initial state and then all transitions of the states, each on one
line. Those into a state with the label of the accept state are marked and stand behind the others. Both groups are
sorted by code points, and by the labels of their sources if these have no signs. -/
theorem mesh_lists_arcs (unbroken : automaton.Unbroken) :
    ∃ others entering : List Arc,
      (∃ greatest ∈ automaton.states,
        (∀ vertex ∈ automaton.states, automaton.graph.label vertex ≤ automaton.graph.label greatest) ∧
          automaton.labelWidth = (automaton.graph.label greatest).decimal.length) ∧
      automaton.mesh = String.join
        ((("--> " ++ (automaton.graph.label automaton.initial).padded automaton.labelWidth) ::
          others.map automaton.arcLine ++ entering.map fun arc => automaton.arcLine arc ++ " -->").map
            fun line => line ++ "\n") ∧
      (others.Perm (automaton.arcs.filter fun arc => ¬automaton.Enters arc) ∧
        others.Pairwise fun first second => automaton.arcLine first ≤ automaton.arcLine second) ∧
      (entering.Perm (automaton.arcs.filter automaton.Enters) ∧
        entering.Pairwise fun first second =>
          automaton.arcLine first ++ " -->" ≤ automaton.arcLine second ++ " -->") ∧
      (∀ arc ∈ others, ¬" -->".toList <:+ (automaton.arcLine arc).toList) ∧
      ((∀ vertex ∈ automaton.states, 0 ≤ automaton.graph.label vertex) →
        (others.map fun arc => automaton.graph.label arc.source).Pairwise (· ≤ ·) ∧
          (entering.map fun arc => automaton.graph.label arc.source).Pairwise (· ≤ ·)) := by
  have lines := unbroken.meshLines
  have othersPerm := sortArcs_perm automaton.arcLine (automaton.arcs.filter fun arc => ¬automaton.Enters arc)
  have othersSorted := pairwise_sortArcs automaton.arcLine
    (automaton.arcs.filter fun arc => ¬automaton.Enters arc)
  have enteringPerm := sortArcs_perm (fun arc => automaton.arcLine arc ++ " -->")
    (automaton.arcs.filter automaton.Enters)
  have enteringSorted := pairwise_sortArcs (fun arc => automaton.arcLine arc ++ " -->")
    (automaton.arcs.filter automaton.Enters)
  generalize sortArcs automaton.arcLine _ = others at lines othersPerm othersSorted
  generalize sortArcs _ _ = entering at lines enteringPerm enteringSorted
  refine ⟨others, entering, automaton.exists_greatest_label, ?_, ⟨othersPerm, othersSorted⟩,
    ⟨enteringPerm, enteringSorted⟩, fun arc _ => automaton.not_marked arc, ?_⟩
  · rw [mesh, lines]
  · intro nonneg
    rw [List.pairwise_map, List.pairwise_map]
    constructor
    · refine othersSorted.imp_of_mem fun {first second} firstMember secondMember le => ?_
      have firstIsArc := List.mem_of_mem_filter (othersPerm.mem_iff.1 firstMember)
      have secondIsArc := List.mem_of_mem_filter (othersPerm.mem_iff.1 secondMember)
      apply automaton.source_le_of_line_le nonneg firstIsArc secondIsArc ""
      rw [String.append_empty, String.append_empty]
      exact le
    · refine enteringSorted.imp_of_mem fun {first second} firstMember secondMember le => ?_
      have firstIsArc := List.mem_of_mem_filter (enteringPerm.mem_iff.1 firstMember)
      have secondIsArc := List.mem_of_mem_filter (enteringPerm.mem_iff.1 secondMember)
      exact automaton.source_le_of_line_le nonneg firstIsArc secondIsArc " -->" le

/-- Symbols that look like the end of a line, a label that two states share with the accept state, which is not
reached, and a negative one that is wider than the greatest. -/
theorem mesh_lists_arcs_lookalikes :
    let automaton : Automaton :=
      ⟨"NFA", ⟨#[⟨2, [⟨⟨"(-30) (7) -->"⟩, 1⟩, ⟨Symbol.epsilon, 2⟩]⟩, ⟨-30, [⟨⟨"a (7)"⟩, 0⟩, ⟨⟨" -->"⟩, 1⟩]⟩,
        ⟨7, [⟨⟨""⟩, 2⟩]⟩, ⟨7, []⟩]⟩, 0, 3⟩
    automaton.Unbroken ∧ automaton.labelWidth = 1 ∧
      ∃ others entering : List Arc,
        automaton.mesh = String.join
          (("--> (2)" :: others.map automaton.arcLine ++
            entering.map fun arc => automaton.arcLine arc ++ " -->").map fun line => line ++ "\n") ∧
        others.Perm [⟨0, ⟨"(-30) (7) -->"⟩, 1⟩, ⟨1, ⟨"a (7)"⟩, 0⟩, ⟨1, ⟨" -->"⟩, 1⟩] ∧
        entering.Perm [⟨0, Symbol.epsilon, 2⟩, ⟨2, Symbol.epsilon, 2⟩] := by
  intro automaton
  have unbroken : automaton.Unbroken := by
    unfold Automaton.Unbroken
    decide
  have width : automaton.labelWidth = 1 := by decide
  have start : "--> " ++ (automaton.graph.label automaton.initial).padded 1 = "--> (2)" := by decide
  have other : (automaton.arcs.filter fun arc => ¬automaton.Enters arc) =
      [⟨0, ⟨"(-30) (7) -->"⟩, 1⟩, ⟨1, ⟨"a (7)"⟩, 0⟩, ⟨1, ⟨" -->"⟩, 1⟩] := by decide
  have enters : automaton.arcs.filter automaton.Enters =
      [⟨0, Symbol.epsilon, 2⟩, ⟨2, Symbol.epsilon, 2⟩] := by decide
  obtain ⟨others, entering, -, mesh, ⟨othersPerm, -⟩, ⟨enteringPerm, -⟩, -⟩ := mesh_lists_arcs unbroken
  rw [width, start] at mesh
  rw [other] at othersPerm
  rw [enters] at enteringPerm
  exact ⟨unbroken, width, others, entering, mesh, othersPerm, enteringPerm⟩

end Automaton

end RegexAutomaton
