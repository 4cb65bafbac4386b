import Mathlib.Algebra.Group.Nat.Defs
import Mathlib.Data.List.Basic
import RegexAutomaton.Label

/-!
# Padded labels

A padded label can be read back, whatever its sign and the width, so different labels look different. It has no blank
in it. Labels without a sign that fit into the width stand in the order of the numbers, whatever follows them.
-/

set_option autoImplicit false

namespace RegexAutomaton

/-! ## Rows of digits -/

namespace Text

/-- The number that a row of decimal digits writes. -/
abbrev value (digits : List Char) : Nat := Nat.ofDigitChars 10 digits 0

def AreDigits (digits : List Char) : Prop :=
  ∀ digit ∈ digits, digit.isDigit = true

theorem areDigits_toDigits (number : Nat) : AreDigits (Nat.toDigits 10 number) :=
  fun _ member => Nat.isDigit_of_mem_toDigits (by decide) (by decide) member

theorem digit_bounds {digit : Char} (isDigit : digit.isDigit = true) : 48 ≤ digit.toNat ∧ digit.toNat ≤ 57 := by
  simp only [Char.isDigit, Bool.and_eq_true, decide_eq_true_eq] at isDigit
  exact isDigit

theorem value_cons (digit : Char) (rest : List Char) :
    value (digit :: rest) = 10 ^ rest.length * (digit.toNat - 48) + value rest := by
  rw [value, Nat.ofDigitChars_cons, Nat.ofDigitChars_eq_ofDigitChars_zero]
  simp

theorem value_lt {digits : List Char} (areDigits : AreDigits digits) : value digits < 10 ^ digits.length := by
  induction digits with
  | nil => exact Nat.one_pos
  | cons digit rest ih =>
      rw [AreDigits, List.forall_mem_cons] at areDigits
      have bounds := digit_bounds areDigits.1
      have below := ih areDigits.2
      have atMost : 10 ^ rest.length * (digit.toNat - 48) ≤ 10 ^ rest.length * 9 :=
        Nat.mul_le_mul_left _ (by omega)
      rw [value_cons, List.length_cons, Nat.pow_succ]
      omega

/-- Of two rows with as many digits the one with the smaller number comes first, whatever follows them. -/
theorem append_lt_of_value_lt {first second : List Char} (length : first.length = second.length)
    (areFirst : AreDigits first) (areSecond : AreDigits second) (less : value first < value second)
    (rest other : List Char) : first ++ rest < second ++ other := by
  induction first generalizing second with
  | nil =>
      obtain rfl := List.eq_nil_of_length_eq_zero length.symm
      exact absurd less (Nat.lt_irrefl _)
  | cons digit firstRest ih =>
      cases second with
      | nil => cases length
      | cons other secondRest =>
          rw [AreDigits, List.forall_mem_cons] at areFirst areSecond
          have sameLength : firstRest.length = secondRest.length := Nat.succ.inj length
          have firstBounds := digit_bounds areFirst.1
          have secondBounds := digit_bounds areSecond.1
          have firstBelow := value_lt areFirst.2
          have secondBelow := value_lt areSecond.2
          rw [value_cons, value_cons, sameLength] at less
          rw [sameLength] at firstBelow
          rw [List.cons_append, List.cons_append, List.cons_lt_cons_iff]
          rcases Nat.lt_trichotomy digit.toNat other.toNat with smaller | same | greater
          · exact .inl smaller
          · rw [same] at less
            refine .inr ⟨Char.toNat_inj.1 same, ?_⟩
            exact ih sameLength areFirst.2 areSecond.2 (Nat.lt_of_add_lt_add_left less)
          · have step : 10 ^ secondRest.length * (other.toNat - 48 + 1) ≤
                10 ^ secondRest.length * (digit.toNat - 48) := Nat.mul_le_mul_left _ (by omega)
            rw [Nat.mul_add, Nat.mul_one] at step
            omega

end Text

namespace Label

variable {width : Nat} {label first second : Label}

/-! ## Labels in decimal -/

theorem text_eq_toString (label : Label) : label.text = toString label := by
  unfold text decimal sign magnitude
  cases label with
  | ofNat magnitude =>
      rw [Int.ofNat_eq_natCast, if_neg (Int.not_lt.2 (Int.natCast_nonneg magnitude))]
      exact Nat.toString_eq_ofList_toDigits.symm
  | negSucc magnitude =>
      rw [if_pos (Int.negSucc_lt_zero magnitude), String.ofList_append, Int.natAbs_negSucc,
        ← Nat.toString_eq_ofList_toDigits]
      rfl

theorem areDigits_magnitude (label : Label) : Text.AreDigits label.magnitude :=
  Text.areDigits_toDigits label.natAbs

theorem sign_or_isDigit_of_mem_decimal {label : Label} {character : Char} (member : character ∈ label.decimal) :
    character = '-' ∨ character.isDigit = true := by
  rcases List.mem_append.1 member with signed | digit
  · left
    unfold sign at signed
    split at signed
    · exact List.mem_singleton.1 signed
    · cases signed
  · exact .inr (label.areDigits_magnitude character digit)

theorem magnitude_ne_nil (label : Label) : label.magnitude ≠ [] :=
  List.ne_nil_of_length_pos Nat.length_toDigits_pos

theorem decimal_ne_nil (label : Label) : label.decimal ≠ [] :=
  List.append_ne_nil_of_right_ne_nil _ label.magnitude_ne_nil

/-! ## What stands between the parentheses -/

/-- The zeros that fill a label up, and its digits. -/
def digits (width : Nat) (label : Label) : List Char :=
  List.replicate (width - label.decimal.length) '0' ++ label.magnitude

theorem toList_padded (width : Nat) (label : Label) :
    (label.padded width).toList = '(' :: (label.sign ++ label.digits width ++ [')']) := by
  simp [padded, digits]

theorem areDigits_digits (width : Nat) (label : Label) : Text.AreDigits (label.digits width) := by
  intro digit member
  rcases List.mem_append.1 member with zero | inner
  · rw [List.eq_of_mem_replicate zero]
    rfl
  · exact label.areDigits_magnitude digit inner

theorem value_digits (width : Nat) (label : Label) : Text.value (label.digits width) = label.natAbs := by
  rw [Text.value, digits, Nat.ofDigitChars_append, Nat.ofDigitChars_replicate_zero, Nat.mul_zero, magnitude,
    Nat.ofDigitChars_ten_toDigits]

/-- The label that a sign and digits write. -/
def ofField : List Char → Label
  | '-' :: digits => -(Text.value digits : Int)
  | digits => Text.value digits

theorem ofField_of_areDigits {digits : List Char} (areDigits : Text.AreDigits digits) :
    ofField digits = Text.value digits := by
  rw [ofField]
  rintro rest rfl
  exact absurd (areDigits '-' List.mem_cons_self) (by decide)

theorem ofField_padded (width : Nat) (label : Label) : ofField (label.sign ++ label.digits width) = label := by
  by_cases negative : label < 0
  · have signed : label.sign = ['-'] := if_pos negative
    rw [signed]
    change -(Text.value (label.digits width) : Int) = label
    rw [value_digits, Int.ofNat_natAbs_of_nonpos (Int.le_of_lt negative), Int.neg_neg]
  · have unsigned : label.sign = [] := if_neg negative
    rw [unsigned, List.nil_append, ofField_of_areDigits (label.areDigits_digits width), value_digits,
      Int.natAbs_of_nonneg (Int.not_lt.1 negative)]

theorem padded_inj : first.padded width = second.padded width ↔ first = second := by
  constructor
  · intro same
    have chars := congrArg String.toList same
    rw [toList_padded, toList_padded, List.cons.injEq] at chars
    have fields := List.append_cancel_right chars.2
    rw [← first.ofField_padded width, fields, ofField_padded]
  · exact congrArg (padded width)

theorem isDigit_or_of_mem_padded {character : Char} (member : character ∈ (label.padded width).toList) :
    character.isDigit = true ∨ character ∈ ['(', '-', ')'] := by
  simp only [toList_padded, List.mem_cons, List.mem_append, List.not_mem_nil, or_false] at member ⊢
  rcases member with rfl | (signed | digit) | rfl
  · exact .inr (.inl rfl)
  · unfold sign at signed
    split at signed
    · exact .inr (.inr (.inl (List.mem_singleton.1 signed)))
    · cases signed
  · exact .inl (label.areDigits_digits width character digit)
  · exact .inr (.inr (.inr rfl))

theorem blank_not_mem_padded : ' ' ∉ (label.padded width).toList := by
  intro member
  have found := isDigit_or_of_mem_padded member
  exact absurd found (by decide)

/-! ## The order of padded labels -/

theorem sign_of_nonneg (nonneg : 0 ≤ label) : label.sign = [] :=
  if_neg (Int.not_lt.2 nonneg)

theorem decimal_of_nonneg (nonneg : 0 ≤ label) : label.decimal = label.magnitude := by
  rw [decimal, sign_of_nonneg nonneg, List.nil_append]

theorem length_decimal_le (nonneg : 0 ≤ first) (le : first ≤ second) :
    first.decimal.length ≤ second.decimal.length := by
  have secondNonneg := Int.le_trans nonneg le
  have smaller : first.natAbs ≤ second.natAbs := by
    rw [← Int.ofNat_le, Int.natAbs_of_nonneg nonneg, Int.natAbs_of_nonneg secondNonneg]
    exact le
  rw [decimal_of_nonneg nonneg, decimal_of_nonneg secondNonneg, magnitude, magnitude]
  have pos : 0 < (Nat.toDigits 10 second.natAbs).length := Nat.length_toDigits_pos
  have below := (Nat.length_toDigits_le_iff (by decide) pos).1 (Nat.le_refl _)
  apply (Nat.length_toDigits_le_iff (by decide) pos).2
  exact Nat.lt_of_le_of_lt smaller below

theorem length_digits (nonneg : 0 ≤ label) (fits : label.decimal.length ≤ width) :
    (label.digits width).length = width := by
  rw [digits, List.length_append, List.length_replicate, ← decimal_of_nonneg nonneg]
  omega

theorem padded_append_lt (nonneg : 0 ≤ first) (less : first < second)
    (firstFits : first.decimal.length ≤ width) (secondFits : second.decimal.length ≤ width)
    (rest other : List Char) :
    (first.padded width).toList ++ rest < (second.padded width).toList ++ other := by
  have secondNonneg : 0 ≤ second := Int.le_trans nonneg (Int.le_of_lt less)
  have sameLength : (first.digits width).length = (second.digits width).length := by
    rw [length_digits nonneg firstFits, length_digits secondNonneg secondFits]
  have values : Text.value (first.digits width) < Text.value (second.digits width) := by
    rw [value_digits, value_digits]
    exact Int.natAbs_lt_natAbs_of_nonneg_of_lt nonneg less
  have inOrder := Text.append_lt_of_value_lt sameLength (first.areDigits_digits width)
    (second.areDigits_digits width) values ([')'] ++ rest) ([')'] ++ other)
  simp only [toList_padded, sign_of_nonneg nonneg, sign_of_nonneg secondNonneg, List.nil_append, List.cons_append,
    List.append_assoc, List.cons_lt_cons_iff]
  exact .inr ⟨trivial, inOrder⟩

theorem padded_one (number : Nat) : padded 1 number = "(" ++ toString number ++ ")" := by
  have sign : sign number = [] := if_neg (Int.not_lt.2 (Int.natCast_nonneg number))
  have magnitude : magnitude number = Nat.toDigits 10 number :=
    congrArg (Nat.toDigits 10) (Int.natAbs_natCast number)
  have filled : 1 - (Nat.toDigits 10 number).length = 0 := Nat.sub_eq_zero_of_le Nat.length_toDigits_pos
  apply String.toList_inj.1
  rw [toList_padded, digits, decimal, sign, magnitude, List.nil_append, List.nil_append, filled,
    Nat.toString_eq_ofList_toDigits]
  simp

end Label

end RegexAutomaton
