import RegexAutomaton.Proofs.Decimal.Characters
import RegexAutomaton.Proofs.Text.Quoted
import RegexAutomaton.Value.Display

/-!
# Values in messages are printable

However deep a value is, all that a message shows of it is printable: texts and keys stand between quotes, and numbers
and names have no other characters to begin with.
-/

set_option autoImplicit false

namespace RegexAutomaton

open Text (Printable printable_nil printable_cons printable_append printable_quoted)

theorem Decimal.IsNumeral.printable {character : Char} (numeral : IsNumeral character) :
    Text.isPrintable character = true := by
  rcases numeral with isDigit | mark
  · have bounds := Text.digit_bounds isDigit
    exact Text.isPrintable_of_ascii (by omega) (by omega)
  · simp only [List.mem_cons, List.not_mem_nil, or_false] at mark
    rcases mark with rfl | rfl | rfl | rfl <;> decide

theorem Text.printable_intercalate {separator : String} (between : Printable separator.toList) {parts : List String}
    (each : ∀ part ∈ parts, Printable part.toList) : Printable (separator.intercalate parts).toList := by
  induction parts with
  | nil => exact printable_nil
  | cons part rest ih =>
      rw [List.forall_mem_cons] at each
      cases rest with
      | nil => simpa using each.1
      | cons next rest =>
          rw [String.intercalate_cons_cons, String.toList_append, String.toList_append, printable_append,
            printable_append]
          exact ⟨⟨each.1, between⟩, ih each.2⟩

namespace Value

theorem printable_real (number : Float) : Printable (Decimal.text messageNames number).toList := by
  have undefined : Printable messageNames.undefined.toList := by decide
  have infinite : Printable messageNames.infinite.toList := by decide
  exact Decimal.forall_mem_text Decimal.IsNumeral.printable undefined infinite number

theorem printable_integer (number : Int) : Printable (toString number).toList :=
  fun _ member => (Decimal.isNumeral_toString member).printable

mutual

/-- Whatever a message shows of a value is printable. -/
theorem printable_display : ∀ value : Value, Printable value.display.toList
  | null => by
      rw [display]
      decide
  | bool value => by
      rw [display]
      cases value <;> decide
  | integer value => by
      rw [display]
      exact printable_integer value
  | real value => by
      rw [display]
      exact printable_real value
  | text value => by
      rw [display]
      exact printable_quoted value
  | list values => by
      have inside := Text.printable_intercalate (by decide : Printable ", ".toList) (printable_displayList values)
      have opening : Printable "[".toList := by decide
      have closing : Printable "]".toList := by decide
      rw [display, String.toList_append, String.toList_append, printable_append, printable_append]
      exact ⟨⟨opening, inside⟩, closing⟩
  | object entries => by
      have inside := Text.printable_intercalate (by decide : Printable ", ".toList) (printable_displayEntries entries)
      have opening : Printable "\x7b".toList := by decide
      have closing : Printable "\x7d".toList := by decide
      rw [display, String.toList_append, String.toList_append, printable_append, printable_append]
      exact ⟨⟨opening, inside⟩, closing⟩

theorem printable_displayList : ∀ values : List Value, ∀ part ∈ displayList values, Printable part.toList
  | [] => List.forall_mem_nil _
  | value :: rest => List.forall_mem_cons.2 ⟨printable_display value, printable_displayList rest⟩

theorem printable_displayEntries : ∀ entries : List (String × Value), ∀ part ∈ displayEntries entries,
    Printable part.toList
  | [] => List.forall_mem_nil _
  | (key, value) :: rest => by
      have colon : Printable ": ".toList := by decide
      refine List.forall_mem_cons.2 ⟨?_, printable_displayEntries rest⟩
      rw [String.toList_append, String.toList_append, printable_append, printable_append]
      exact ⟨⟨printable_quoted key, colon⟩, printable_display value⟩

end

end Value

end RegexAutomaton
