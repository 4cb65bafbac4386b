import RegexAutomaton.Decimal.Notation
import RegexAutomaton.Proofs.Label.Padding

/-!
# What numbers are written with

Numbers are written with decimal digits, signs, a point and the mark of an exponent, if they have no name of their own.
-/

set_option autoImplicit false

namespace RegexAutomaton.Decimal

/-- A character that numbers are written with. -/
def IsNumeral (character : Char) : Prop :=
  character.isDigit = true ∨ character ∈ ['-', '+', '.', 'e']

instance (character : Char) : Decidable (IsNumeral character) :=
  inferInstanceAs (Decidable (character.isDigit = true ∨ character ∈ ['-', '+', '.', 'e']))

theorem isNumeral_toDigits {number : Nat} {character : Char} (member : character ∈ Nat.toDigits 10 number) :
    IsNumeral character :=
  .inl (Text.areDigits_toDigits number character member)

theorem isNumeral_zeros {count : Nat} {character : Char} (member : character ∈ List.replicate count '0') :
    IsNumeral character := by
  rw [List.eq_of_mem_replicate member]
  decide

theorem isNumeral_layout {digits : List Char} (numerals : ∀ digit ∈ digits, IsNumeral digit) (power : Int) :
    ∀ character ∈ layout digits power, IsNumeral character := by
  have start (count : Nat) : ∀ digit ∈ digits.take count, IsNumeral digit :=
    fun digit member => numerals digit (List.mem_of_mem_take member)
  have rest (count : Nat) : ∀ digit ∈ digits.drop count, IsNumeral digit :=
    fun digit member => numerals digit (List.mem_of_mem_drop member)
  have point : IsNumeral '.' := by decide
  have zero : IsNumeral '0' := by decide
  unfold layout
  dsimp only
  split
  · simp only [List.cons_append, List.forall_mem_cons, List.forall_mem_append]
    exact ⟨zero, point, fun _ => isNumeral_zeros, numerals⟩
  split
  · have decimals (count : Nat) : ∀ digit ∈ if (digits.drop count).isEmpty then ['0'] else digits.drop count,
        IsNumeral digit := by
      split
      · exact List.forall_mem_singleton.2 zero
      · exact rest count
    simp only [List.rightpad, List.forall_mem_cons, List.forall_mem_append]
    exact ⟨⟨start _, fun _ => isNumeral_zeros⟩, point, decimals _⟩
  · have decimals : ∀ digit ∈ if (digits.drop 1).isEmpty then [] else '.' :: digits.drop 1, IsNumeral digit := by
      split
      · exact List.forall_mem_nil _
      · exact List.forall_mem_cons.2 ⟨point, rest 1⟩
    have sign : IsNumeral (if power < 0 then '-' else '+') := by
      split <;> decide
    simp only [List.leftpad, List.forall_mem_cons, List.forall_mem_append]
    exact ⟨⟨start 1, decimals⟩, by decide, sign, fun _ => isNumeral_zeros, fun _ => isNumeral_toDigits⟩

theorem isNumeral_decimalNotation (number : Binary) : ∀ character ∈ number.decimalNotation, IsNumeral character := by
  have digits : ∀ digit ∈ number.shortest.significant.1, IsNumeral digit := by
    unfold Scaled.significant
    intro digit member
    exact isNumeral_toDigits (List.mem_reverse.1 ((List.dropWhile_suffix _).subset (List.mem_reverse.1 member)))
  have sign : ∀ character ∈ if number.negative then ['-'] else [], IsNumeral character := by
    split
    · exact List.forall_mem_singleton.2 (by decide)
    · exact List.forall_mem_nil _
  have zero : ∀ character ∈ ['0', '.', '0'], IsNumeral character :=
    List.forall_mem_cons.2 ⟨by decide, List.forall_mem_cons.2 ⟨by decide, List.forall_mem_singleton.2 (by decide)⟩⟩
  unfold Binary.decimalNotation
  dsimp only
  split
  · exact List.forall_mem_append.2 ⟨sign, zero⟩
  · exact List.forall_mem_append.2 ⟨sign, isNumeral_layout digits _⟩

/-- A number is written with numerals or has one of the names. -/
theorem isNumeral_text {names : Names} {number : Float} {character : Char}
    (member : character ∈ (text names number).toList) :
    IsNumeral character ∨ character ∈ names.undefined.toList ∨ character ∈ names.infinite.toList := by
  unfold text at member
  split at member
  · exact .inr (.inl member)
  split at member
  · rw [String.toList_append, List.mem_append] at member
    rcases member with signed | named
    · split at signed
      · rw [List.mem_singleton.1 signed]
        exact .inl (by decide)
      · cases signed
    · exact .inr (.inr named)
  · rw [String.toList_ofList] at member
    exact .inl (isNumeral_decimalNotation _ _ member)

/-- What holds of numerals and of the names holds of all characters of a number. -/
theorem forall_mem_text {names : Names} {Allowed : Char → Prop}
    (numerals : ∀ {character}, IsNumeral character → Allowed character)
    (undefined : ∀ character ∈ names.undefined.toList, Allowed character)
    (infinite : ∀ character ∈ names.infinite.toList, Allowed character) (number : Float) :
    ∀ character ∈ (text names number).toList, Allowed character := by
  intro character member
  rcases isNumeral_text member with numeral | isUndefined | isInfinite
  · exact numerals numeral
  · exact undefined character isUndefined
  · exact infinite character isInfinite

theorem isNumeral_toString {number : Int} {character : Char} (member : character ∈ (toString number).toList) :
    IsNumeral character := by
  rw [← Label.text_eq_toString, Label.text, String.toList_ofList] at member
  rcases Label.sign_or_isDigit_of_mem_decimal member with rfl | isDigit
  · decide
  · exact .inl isDigit

end RegexAutomaton.Decimal
