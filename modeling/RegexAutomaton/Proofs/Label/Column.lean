import Mathlib
import RegexAutomaton.Proofs.Label.Padding

/-!
# Columns of labels

Labels padded to one width make a column of texts. All its entries have the same length but for those of labels that
are wider than the column. A reader of decimal integers finds the label again between the parentheses. Labels without
a sign that fit into the column stand in it in the order of the numbers. Columns that are too wide are refused.

The laws of `String.toInt?`, the reader of decimal integers, come with the whole library only.
-/

set_option autoImplicit false

namespace RegexAutomaton

theorem Text.toNat?_ofList {digits : List Char} (areDigits : Text.AreDigits digits) (nonempty : digits ≠ []) :
    (String.ofList digits).toNat? = some (Text.value digits) := by
  have isNat : (String.ofList digits).isNat = true := by
    apply String.isNat_of_isDigit
    · simpa using nonempty
    · rw [String.toList_ofList]
      exact areDigits
  -- The reader also takes underscores between digits and drops them first.
  have plain : digits.filter (· != '_') = digits := by
    apply List.filter_eq_self.2
    intro digit member
    rw [bne_iff_ne]
    rintro rfl
    exact absurd (areDigits '_' member) (by decide)
  rw [String.toNat?_eq_some_ofDigitChars isNat, String.toList_ofList, plain]

namespace Label

variable {width : Nat} {label first second : Label}

/-! ## Widths -/

theorem length_toString (label : Label) : (toString label).length = label.decimal.length := by
  rw [← text_eq_toString, text, String.length_ofList]

theorem length_padded (width : Nat) (label : Label) :
    (label.padded width).length = 2 + max width (toString label).length := by
  have parts : label.decimal.length = label.sign.length + label.magnitude.length := List.length_append
  have whole : (label.padded width).length =
      label.sign.length + (width - label.decimal.length + label.magnitude.length + 1) + 1 := by
    rw [← String.length_toList, toList_padded]
    simp [digits, Nat.add_assoc]
  rw [whole, length_toString]
  omega

example : padded 5 (-42) = "(-0042)" ∧ padded 2 (-420) = "(-420)" := by decide

theorem checkWidth_natCast (width : Nat) :
    checkWidth width =
      if width < 2 ^ 40 then .ok width else if width < 2 ^ 63 then .error .exhausting else .error .invalid := by
  have word : ((Nat.pow 2 63 : Nat) : Int) = 2 ^ 63 := rfl
  have memory : ((Nat.pow 2 40 : Nat) : Int) = 2 ^ 40 := rfl
  rw [checkWidth, word, memory]
  by_cases fits : width < 2 ^ 40
  · rw [if_pos fits, if_neg (by omega), if_neg (by omega), Int.toNat_natCast]
  · rw [if_neg fits]
    by_cases short : width < 2 ^ 63
    · rw [if_pos short, if_neg (by omega), if_pos (by omega)]
    · rw [if_neg short, if_pos (by omega)]

theorem paddedTo_natCast (width : Nat) (label : Label) :
    label.paddedTo width =
      if width < 2 ^ 40 then .ok (label.padded width)
      else if width < 2 ^ 63 then .error .exhausting else .error .invalid := by
  rw [paddedTo, checkWidth_natCast]
  split
  · rfl
  · split <;> rfl

/-! ## Entries read back -/

theorem padded_eq_append (width : Nat) (label : Label) :
    label.padded width = "(" ++ String.ofList (label.sign ++ label.digits width) ++ ")" := by
  apply String.toList_inj.1
  rw [toList_padded]
  simp

theorem digits_ne_nil (width : Nat) (label : Label) : label.digits width ≠ [] :=
  List.append_ne_nil_of_right_ne_nil _ label.magnitude_ne_nil

theorem toInt?_sign_append (label : Label) {digits : List Char} (areDigits : Text.AreDigits digits)
    (nonempty : digits ≠ []) :
    (String.ofList (label.sign ++ digits)).toInt? = some (ofField (label.sign ++ digits)) := by
  have number := Text.toNat?_ofList areDigits nonempty
  by_cases negative : label < 0
  · have signed : label.sign = ['-'] := if_pos negative
    rw [signed, String.ofList_append]
    change ("-" ++ String.ofList digits).toInt? = some (-(Text.value digits : Int))
    rw [String.toInt?_minus_append, number]
    rfl
  · have unsigned : label.sign = [] := if_neg negative
    rw [unsigned, List.nil_append, ofField_of_areDigits areDigits]
    exact String.toInt?_eq_some_of_toNat?_eq_some number

theorem toInt?_field (width : Nat) (label : Label) :
    (String.ofList (label.sign ++ label.digits width)).toInt? = some label := by
  rw [toInt?_sign_append label (label.areDigits_digits width) (label.digits_ne_nil width), ofField_padded]

theorem blank_not_mem_field (width : Nat) (label : Label) : ' ' ∉ label.sign ++ label.digits width := by
  intro member
  have inside : ' ' ∈ (label.padded width).toList := by
    rw [toList_padded]
    exact List.mem_cons_of_mem _ (List.mem_append_left _ member)
  exact blank_not_mem_padded inside

theorem exists_field (width : Nat) (label : Label) :
    ∃ field, label.padded width = "(" ++ field ++ ")" ∧ ' ' ∉ field.toList ∧ field.toInt? = some label := by
  refine ⟨_, padded_eq_append width label, ?_, toInt?_field width label⟩
  rw [String.toList_ofList]
  exact blank_not_mem_field width label

/-! ## Entries in order -/

theorem padded_lt_padded (nonneg : 0 ≤ first) (less : first < second) (firstFits : first.decimal.length ≤ width)
    (secondFits : second.decimal.length ≤ width) : first.padded width < second.padded width := by
  have inOrder := padded_append_lt nonneg less firstFits secondFits [] []
  rw [List.append_nil, List.append_nil] at inOrder
  exact String.lt_iff_toList_lt.2 inOrder

theorem padded_lt_iff (firstNonneg : 0 ≤ first) (secondNonneg : 0 ≤ second)
    (firstFits : first.decimal.length ≤ width) (secondFits : second.decimal.length ≤ width) :
    first.padded width < second.padded width ↔ first < second := by
  constructor
  · intro before
    rcases lt_trichotomy first second with less | rfl | greater
    · exact less
    · exact absurd before (String.lt_irrefl _)
    · have after := padded_lt_padded secondNonneg greater secondFits firstFits
      exact absurd after (String.lt_asymm before)
  · intro less
    exact padded_lt_padded firstNonneg less firstFits secondFits

/-- Labels of any sign and size, padded to a width. Different labels are different texts, the text between the
parentheses is the label in decimal, and only a label that is wider than the width makes its text longer. Labels
without a sign that fit into the width stand in the order of the numbers. The texts are there for all widths that a
memory has room for, the others are refused. -/
theorem padded_reads_back_in_order (width : Nat) (first second : Label) :
    (first.paddedTo width =
      if width < 2 ^ 40 then .ok (first.padded width)
      else if width < 2 ^ 63 then .error .exhausting else .error .invalid) ∧
    (first.padded width = second.padded width ↔ first = second) ∧
    (∃ field, first.padded width = "(" ++ field ++ ")" ∧ ' ' ∉ field.toList ∧ field.toInt? = some first) ∧
    (first.padded width).length = 2 + max width (toString first).length ∧
    (0 ≤ first → 0 ≤ second → (toString first).length ≤ width → (toString second).length ≤ width →
      (first.padded width < second.padded width ↔ first < second)) := by
  refine ⟨paddedTo_natCast width first, padded_inj, exists_field width first, length_padded width first, ?_⟩
  intro firstNonneg secondNonneg firstFits secondFits
  rw [length_toString] at firstFits secondFits
  exact padded_lt_iff firstNonneg secondNonneg firstFits secondFits

/-- Without padding the text of 99 comes after the text of 100. -/
theorem padded_reads_back_in_order_carry :
    toString (100 : Label) < toString (99 : Label) ∧ (0 ≤ (99 : Label) ∧ 0 ≤ (100 : Label)) ∧
      ((toString (99 : Label)).length ≤ 3 ∧ (toString (100 : Label)).length ≤ 3) ∧ padded 3 99 < padded 3 100 := by
  obtain ⟨-, -, -, -, sorted⟩ := padded_reads_back_in_order 3 99 100
  have firstFits : (toString (99 : Label)).length ≤ 3 := by decide
  have secondFits : (toString (100 : Label)).length ≤ 3 := by decide
  have inOrder := (sorted (by decide) (by decide) firstFits secondFits).2 (by decide)
  exact ⟨by decide, ⟨by decide, by decide⟩, ⟨firstFits, secondFits⟩, inOrder⟩

/-- A width of more than 63 bits gives no text, so none of the length it asks for. -/
theorem refused_beyond_words :
    paddedTo (2 ^ 63 : Nat) 5 = .error .invalid ∧
      ¬∃ text, paddedTo (2 ^ 63 : Nat) 5 = .ok text ∧ text.length = 2 + max (2 ^ 63) (toString (5 : Label)).length := by
  have refused : paddedTo (2 ^ 63 : Nat) 5 = .error .invalid := by
    rw [paddedTo_natCast, if_neg (by decide), if_neg (by decide)]
  refine ⟨refused, ?_⟩
  rintro ⟨text, rendered, -⟩
  rw [refused] at rendered
  cases rendered

end Label

end RegexAutomaton
