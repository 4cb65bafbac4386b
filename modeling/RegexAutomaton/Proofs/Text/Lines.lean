import Mathlib.Data.List.Basic
import RegexAutomaton.Text.Lines

/-!
# Lines that are put together

Texts without line breaks, each with a line feed behind it, are the lines of the text that they make up. A text with
line breaks in it is cut into one line more than it has breaks.
-/

set_option autoImplicit false

namespace RegexAutomaton.Text

def Unbroken (text : String) : Prop :=
  ∀ character ∈ text.toList, isLineBreak character = false

instance (text : String) : Decidable (Unbroken text) :=
  List.decidableBAll (fun character => isLineBreak character = false) text.toList

theorem Unbroken.append {first second : String} (firstUnbroken : Unbroken first) (secondUnbroken : Unbroken second) :
    Unbroken (first ++ second) := by
  intro character member
  rw [String.toList_append] at member
  rcases List.mem_append.1 member with early | late
  · exact firstUnbroken character early
  · exact secondUnbroken character late

theorem cutLines_unbroken {text : List Char} (unbroken : ∀ character ∈ text, isLineBreak character = false)
    (line : List Char) (lines : List String) (rest : List Char) :
    cutLines line lines (text ++ rest) = cutLines (text.reverse ++ line) lines rest := by
  induction text generalizing line with
  | nil => rfl
  | cons character text ih =>
      rw [List.forall_mem_cons] at unbroken
      rw [List.cons_append, cutLines, unbroken.1, if_neg Bool.false_ne_true, ih unbroken.2, List.reverse_cons,
        List.append_assoc, List.singleton_append]
      intro _ isReturn
      rw [isReturn] at unbroken
      exact absurd unbroken.1 (by decide)

theorem cutLines_feed (line : List Char) (lines : List String) (rest : List Char) :
    cutLines line lines ('\n' :: rest) = cutLines [] (String.ofList line.reverse :: lines) rest := by
  rw [cutLines]
  · exact if_pos (by decide)
  · intro _ isReturn
    exact absurd isReturn (by decide)

/-- A text with a line feed behind it is cut into some lines. -/
def MakesUp (text : String) (pieces : List String) : Prop :=
  ∀ lines rest, cutLines [] lines (text.toList ++ '\n' :: rest) = cutLines [] (pieces.reverse ++ lines) rest

theorem Unbroken.makesUp {line : String} (unbroken : Unbroken line) : MakesUp line [line] := by
  intro lines rest
  rw [cutLines_unbroken unbroken, cutLines_feed, List.append_nil, List.reverse_reverse, String.ofList_toList]
  rfl

theorem Unbroken.lines_eq {line : String} (unbroken : Unbroken line) (nonempty : line ≠ "") : lines line = [line] := by
  have notEmpty : line.toList ≠ [] := fun empty => nonempty (String.toList_inj.1 empty)
  have whole := cutLines_unbroken unbroken [] [] []
  rw [List.append_nil, List.append_nil, cutLines, if_neg (by simpa using notEmpty), List.reverse_reverse,
    String.ofList_toList] at whole
  exact whole

theorem lines_join_of_makesUp {whole : List String} {pieces : String → List String}
    (each : ∀ line ∈ whole, MakesUp line (pieces line)) :
    lines (String.join (whole.map fun line => line ++ "\n")) = whole.flatMap pieces := by
  have onto : ∀ done, cutLines [] done (String.join (whole.map fun line => line ++ "\n")).toList =
      done.reverse ++ whole.flatMap pieces := by
    induction whole with
    | nil => simp [cutLines]
    | cons line rest ih =>
        intro done
        rw [List.forall_mem_cons] at each
        have split : (String.join ((line :: rest).map fun line => line ++ "\n")).toList =
            line.toList ++ '\n' :: (String.join (rest.map fun line => line ++ "\n")).toList := by
          simp [String.toList_join]
        rw [split, each.1, ih each.2]
        simp
  exact onto []

theorem lines_join {whole : List String} (unbroken : ∀ line ∈ whole, Unbroken line) :
    lines (String.join (whole.map fun line => line ++ "\n")) = whole := by
  rw [lines_join_of_makesUp fun line member => (unbroken line member).makesUp]
  exact List.flatMap_singleton' whole

/-! ## Texts with line breaks -/

/-- The number of line breaks in a text. -/
def breakCount : List Char → Nat
  | [] => 0
  | '\r' :: '\n' :: rest => breakCount rest + 1
  | character :: rest => if isLineBreak character then breakCount rest + 1 else breakCount rest

theorem breakCount_append {first : List Char} (unbroken : ∀ character ∈ first, isLineBreak character = false)
    (rest : List Char) : breakCount (first ++ rest) = breakCount rest := by
  induction first with
  | nil => rfl
  | cons character first ih =>
      rw [List.forall_mem_cons] at unbroken
      rw [List.cons_append, breakCount, if_neg (by simp [unbroken.1]), ih unbroken.2]
      intro _ isReturn
      rw [isReturn] at unbroken
      exact absurd unbroken.1 (by decide)

theorem breakCount_eq_zero_iff (text : List Char) :
    breakCount text = 0 ↔ ∀ character ∈ text, isLineBreak character = false := by
  fun_induction breakCount text with
  | case1 => simp
  | case2 rest ih => simp [isLineBreak]
  | case3 character rest _ isBreak ih => simp [isBreak]
  | case4 character rest _ notBreak ih => simp [ih, notBreak]

theorem not_return_feed {character : Char} {text rest : List Char}
    (plain : ∀ more, character = '\r' → text = '\n' :: more → False) (noFeed : rest.head? ≠ some '\n') :
    ∀ more, character = '\r' → text ++ rest = '\n' :: more → False := by
  intro more isReturn split
  cases text with
  | nil => exact noFeed (by rw [← List.nil_append rest, split]; rfl)
  | cons next text => exact plain text isReturn (by rw [(List.cons.inj split).1])

/-- Each break in a text finishes a line. The last line goes on with what stands behind the text. -/
theorem exists_cutLines (text line : List Char) :
    ∃ (front : List String) (last : List Char), front.length = breakCount text ∧
      ∀ lines rest, rest.head? ≠ some '\n' →
        cutLines line lines (text ++ rest) = cutLines last (front.reverse ++ lines) rest := by
  fun_induction breakCount text generalizing line with
  | case1 => exact ⟨[], line, rfl, fun _ _ _ => rfl⟩
  | case2 text ih =>
      obtain ⟨front, last, count, cut⟩ := ih []
      refine ⟨String.ofList line.reverse :: front, last, congrArg Nat.succ count, fun lines rest noFeed => ?_⟩
      rw [List.cons_append, List.cons_append, cutLines, cut _ _ noFeed, List.reverse_cons, List.append_assoc]
      rfl
  | case3 character text plain isBreak ih =>
      obtain ⟨front, last, count, cut⟩ := ih []
      refine ⟨String.ofList line.reverse :: front, last, congrArg Nat.succ count, fun lines rest noFeed => ?_⟩
      rw [List.cons_append, cutLines, if_pos isBreak, cut _ _ noFeed, List.reverse_cons, List.append_assoc]
      · rfl
      · exact not_return_feed plain noFeed
  | case4 character text plain notBreak ih =>
      obtain ⟨front, last, count, cut⟩ := ih (character :: line)
      refine ⟨front, last, count, fun lines rest noFeed => ?_⟩
      rw [List.cons_append, cutLines, if_neg notBreak, cut _ _ noFeed]
      exact not_return_feed plain noFeed

theorem unbroken_of_mem_cutLines {line : List Char} {lines : List String} {text : List Char}
    (inLine : ∀ character ∈ line, isLineBreak character = false) (before : ∀ earlier ∈ lines, Unbroken earlier) :
    ∀ piece ∈ cutLines line lines text, Unbroken piece := by
  have finished (line : List Char) (inLine : ∀ character ∈ line, isLineBreak character = false) :
      Unbroken (String.ofList line.reverse) := by
    intro character member
    rw [String.toList_ofList, List.mem_reverse] at member
    exact inLine character member
  fun_induction cutLines line lines text with
  | case1 line lines =>
      intro piece member
      rw [List.mem_reverse] at member
      split at member
      · exact before piece member
      · exact List.forall_mem_cons.2 ⟨finished line inLine, before⟩ piece member
  | case2 line lines rest ih =>
      exact ih (List.forall_mem_nil _) (List.forall_mem_cons.2 ⟨finished line inLine, before⟩)
  | case3 line lines character rest _ isBreak ih =>
      exact ih (List.forall_mem_nil _) (List.forall_mem_cons.2 ⟨finished line inLine, before⟩)
  | case4 line lines character rest _ notBreak ih =>
      exact ih (List.forall_mem_cons.2 ⟨by simpa using notBreak, inLine⟩) before

theorem unbroken_of_mem_lines {text piece : String} (member : piece ∈ lines text) : Unbroken piece :=
  unbroken_of_mem_cutLines (List.forall_mem_nil _) (List.forall_mem_nil _) piece member

/-- A text that does not end with a break is cut into one line more than it has breaks. The last of them holds all that
stands behind the last break, and a line feed behind the text ends this line. -/
theorem exists_lines (text : List Char) {tail : List Char} (nonempty : tail ≠ [])
    (unbroken : ∀ character ∈ tail, isLineBreak character = false) :
    ∃ (front : List String) (last : List Char), front.length = breakCount text ∧
      lines (String.ofList (text ++ tail)) = front ++ [String.ofList (last ++ tail)] ∧
      MakesUp (String.ofList (text ++ tail)) (front ++ [String.ofList (last ++ tail)]) := by
  obtain ⟨front, last, count, cut⟩ := exists_cutLines text []
  have noFeed (rest : List Char) : (tail ++ rest).head? ≠ some '\n' := by
    obtain ⟨first, others, rfl⟩ := List.exists_cons_of_ne_nil nonempty
    intro isFeed
    rw [Option.some.inj isFeed] at unbroken
    exact absurd (unbroken _ List.mem_cons_self) (by decide)
  have ends : String.ofList (tail.reverse ++ last).reverse = String.ofList (last.reverse ++ tail) := by
    rw [List.reverse_append, List.reverse_reverse]
  refine ⟨front, last.reverse, count, ?_, fun lines rest => ?_⟩
  · have finished := cut [] (tail ++ []) (noFeed [])
    have notEmpty : (tail.reverse ++ last).isEmpty = false := by simp [nonempty]
    rw [cutLines_unbroken unbroken, cutLines, notEmpty, if_neg Bool.false_ne_true, ends, List.reverse_cons,
      List.append_nil, List.append_nil, List.reverse_reverse] at finished
    rw [lines, String.toList_ofList, finished]
  · rw [String.toList_ofList, List.append_assoc, cut _ _ (noFeed _), cutLines_unbroken unbroken, cutLines_feed, ends,
      List.reverse_append]
    rfl

end RegexAutomaton.Text
