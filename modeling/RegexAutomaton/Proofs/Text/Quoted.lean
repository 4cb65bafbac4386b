import Mathlib.Data.List.Basic
import RegexAutomaton.Text.Lines
import RegexAutomaton.Text.Quoted

/-!
# Quoted texts are printable

Between quotes every character of a text is shown by printable ones, itself or an escape made of letters and digits.
Printable characters break no line and are no control characters, so a quoted text stays on the line where it is put.
-/

set_option autoImplicit false

namespace RegexAutomaton.Text

def IsControl (character : Char) : Prop :=
  character.toNat < 0x20 ∨ 0x7f ≤ character.toNat ∧ character.toNat < 0xa0

def Printable (text : List Char) : Prop :=
  ∀ character ∈ text, isPrintable character = true

instance (text : List Char) : Decidable (Printable text) :=
  List.decidableBAll (fun character => isPrintable character = true) text

@[simp]
theorem printable_nil : Printable [] :=
  List.forall_mem_nil _

@[simp]
theorem printable_cons {character : Char} {text : List Char} :
    Printable (character :: text) ↔ isPrintable character = true ∧ Printable text :=
  List.forall_mem_cons

@[simp]
theorem printable_append {first second : List Char} :
    Printable (first ++ second) ↔ Printable first ∧ Printable second :=
  List.forall_mem_append

/-! ## The table of unprintable characters -/

/-- The table begins with the control characters of both kinds and the blank that does not break. -/
theorem unprintableRanges_eq : unprintableRanges = (0x0, 0x1f) :: (0x7f, 0xa0) :: unprintableRanges.drop 2 :=
  rfl

theorem isPrintable_of_ascii {character : Char} (above : 0x20 ≤ character.toNat) (below : character.toNat < 0x7f) :
    isPrintable character = true := by
  have notFirst : ¬character.toNat ≤ 0x1f := by omega
  rw [isPrintable, unprintableRanges_eq, inRanges, inRanges, if_neg (Nat.not_lt_zero _), if_neg notFirst, if_pos below]
  rfl

theorem not_isControl_of_isPrintable {character : Char} (printable : isPrintable character = true) :
    ¬IsControl character := by
  rw [isPrintable, unprintableRanges_eq, inRanges, inRanges, if_neg (Nat.not_lt_zero _)] at printable
  rintro (low | ⟨above, below⟩)
  · rw [if_pos (Nat.le_of_lt_succ low)] at printable
    cases printable
  · have notFirst : ¬character.toNat ≤ 0x1f := by omega
    have notBefore : ¬character.toNat < 0x7f := by omega
    have inside : character.toNat ≤ 0xa0 := by omega
    rw [if_neg notFirst, if_neg notBefore, if_pos inside] at printable
    cases printable

theorem isLineBreak_of_isPrintable {character : Char} (printable : isPrintable character = true) :
    isLineBreak character = false := by
  have separators : inRanges 0x2028 unprintableRanges = true ∧ inRanges 0x2029 unprintableRanges = true := by
    decide +kernel
  have noControl := not_isControl_of_isPrintable printable
  rw [isLineBreak, decide_eq_false_iff_not]
  intro breaks
  simp only [IsControl] at noControl
  simp only [List.mem_cons, List.not_mem_nil, or_false] at breaks
  have separator : character.toNat = 0x2028 ∨ character.toNat = 0x2029 := by omega
  rcases separator with code | code
  · rw [isPrintable, code, separators.1] at printable
    cases printable
  · rw [isPrintable, code, separators.2] at printable
    cases printable

/-! ## Escapes -/

theorem exists_digitChar {number : Nat} {character : Char} (member : character ∈ Nat.toDigits 16 number) :
    ∃ digit < 16, character = Nat.digitChar digit := by
  induction number using Nat.strongRecOn with
  | ind number ih =>
      rw [Nat.toDigits_eq_if (by decide)] at member
      split at member
      · rename_i small
        exact ⟨number, small, List.mem_singleton.1 member⟩
      · rcases List.mem_append.1 member with early | last
        · exact ih (number / 16) (by omega) early
        · exact ⟨number % 16, Nat.mod_lt _ (by decide), List.mem_singleton.1 last⟩

theorem printable_hexadecimal (width number : Nat) : Printable (hexadecimal width number) := by
  have visible : ∀ digit < 16, 0x20 ≤ (Nat.digitChar digit).toNat ∧ (Nat.digitChar digit).toNat < 0x7f := by
    decide
  intro character member
  rcases List.mem_append.1 member with zero | inner
  · rw [List.eq_of_mem_replicate zero]
    decide
  · obtain ⟨digit, small, rfl⟩ := exists_digitChar inner
    exact isPrintable_of_ascii (visible digit small).1 (visible digit small).2

theorem printable_quotedCharacter {quote : Char} (printableQuote : isPrintable quote = true) (character : Char) :
    Printable (quotedCharacter quote character) := by
  have backslash : isPrintable '\\' = true := by decide
  have escape {letter : Char} (visible : isPrintable letter = true) (width number : Nat) :
      Printable ('\\' :: letter :: hexadecimal width number) := by
    rw [printable_cons, printable_cons]
    exact ⟨backslash, visible, printable_hexadecimal width number⟩
  unfold quotedCharacter
  split_ifs with special feed carriage tab shown short medium
  · have shown : isPrintable character = true := by
      rcases special with rfl | rfl
      · exact printableQuote
      · exact backslash
    simp only [printable_cons, backslash, shown, printable_nil, and_self]
  · decide
  · decide
  · decide
  · simp only [printable_cons, shown, printable_nil, and_self]
  · exact escape (by decide) 2 _
  · exact escape (by decide) 4 _
  · exact escape (by decide) 8 _

theorem printable_quoted (text : String) : Printable (quoted text).toList := by
  have quote : isPrintable (quoteFor text.toList) = true := by
    unfold quoteFor
    split <;> decide
  rw [quoted, String.toList_ofList]
  simp only [printable_append, printable_cons, quote, printable_nil, true_and, and_true]
  intro character member
  obtain ⟨shown, -, inner⟩ := List.mem_flatMap.1 member
  exact printable_quotedCharacter quote shown character inner

end RegexAutomaton.Text
