import Mathlib.Data.List.TakeWhile
import RegexAutomaton.Proofs.Label.Padding
import RegexAutomaton.Value.Reader
import RegexAutomaton.Value.Writer

/-!
# Written texts and integers read back

The reader undoes each way in which a character is written, so it finds the end of a written text where the text ends,
whatever stands behind it. It reads the digits of an integer up to the first character that could not go on with a
number.
-/

set_option autoImplicit false

namespace RegexAutomaton

namespace Value.Reader

/-! ## Texts -/

/-- The control characters below the blank are written with four digits that stand for them. -/
theorem hexNumber?_control : ∀ code < 0x20, ∃ first second third fourth,
    (Nat.toDigits 16 code).leftpad 4 '0' = [first, second, third, fourth] ∧
      hexNumber? first second third fourth = some code := by
  intro code isControl
  have digits : ∀ code < 0x20, (Nat.toDigits 16 code).leftpad 4 '0' =
      ['0', '0', Nat.digitChar (code / 16), Nat.digitChar (code % 16)] ∧
        hexNumber? '0' '0' (Nat.digitChar (code / 16)) (Nat.digitChar (code % 16)) = some code := by
    decide
  exact ⟨_, _, _, _, digits code isControl⟩

theorem codes?_plain (codes : List Nat) {character : Char} (notQuote : character ≠ '"') (notBackslash : character ≠ '\\')
    (visible : 0x20 ≤ character.toNat) (rest : List Char) :
    codes? codes (character :: rest) = codes? (character.toNat :: codes) rest := by
  rw [codes?, if_neg (Nat.not_lt.2 visible)]
  · exact notQuote
  · exact fun _ _ _ _ _ isBackslash _ => notBackslash isBackslash
  · exact fun _ _ isBackslash _ => notBackslash isBackslash

/-- A written character is read as its code number. -/
theorem codes?_writtenCharacter (codes : List Nat) (character : Char) (rest : List Char) :
    codes? codes (writtenCharacter character ++ rest) = codes? (character.toNat :: codes) rest := by
  unfold writtenCharacter
  split_ifs with quote backslash feed carriage tab back form isControl
  · rw [quote]; rfl
  · rw [backslash]; rfl
  · rw [feed]; rfl
  · rw [carriage]; rfl
  · rw [tab]; rfl
  · rw [back]; rfl
  · rw [form]; rfl
  · obtain ⟨first, second, third, fourth, digits, number⟩ := hexNumber?_control _ isControl
    rw [digits, List.cons_append, List.cons_append, List.cons_append, List.cons_append, List.cons_append,
      List.cons_append, List.nil_append, codes?, number]
  · exact codes?_plain codes quote backslash (Nat.not_lt.1 isControl) rest

theorem codes?_quoted (codes : List Nat) (characters rest : List Char) :
    codes? codes (characters.flatMap writtenCharacter ++ '"' :: rest) =
      some (codes.reverse ++ characters.map Char.toNat, rest) := by
  induction characters generalizing codes with
  | nil =>
      rw [List.flatMap_nil, List.nil_append, codes?, List.map_nil, List.append_nil]
  | cons character characters ih =>
      rw [List.flatMap_cons, List.append_assoc, codes?_writtenCharacter, ih, List.reverse_cons, List.map_cons,
        List.append_assoc, List.singleton_append]

/-- Characters are no surrogates, so that none of them is taken for a half of a pair. -/
theorem not_isSurrogate (character : Char) :
    isHighSurrogate character.toNat = false ∧ isLowSurrogate character.toNat = false := by
  have valid : character.toNat < 0xd800 ∨ 0xdfff < character.toNat ∧ character.toNat < 0x110000 := character.valid
  simp only [isHighSurrogate, isLowSurrogate, Bool.and_eq_false_iff, decide_eq_false_iff_not]
  omega

theorem decode?_toNat (text : String) (characters : List Char) :
    decode? text (characters.map Char.toNat) = some (text ++ String.ofList characters) := by
  induction characters generalizing text with
  | nil => simp [decode?]
  | cons character rest ih =>
      obtain ⟨notHigh, notLow⟩ := not_isSurrogate character
      have pushed : text.push character ++ String.ofList rest = text ++ String.ofList (character :: rest) := by
        apply String.toList_inj.1
        simp
      rw [List.map_cons, decode?.eq_def]
      dsimp only
      rw [notHigh, notLow, if_neg Bool.false_ne_true, if_neg Bool.false_ne_true, Char.ofNat_toNat, ih, pushed]

/-- A written text ends where it has been written to end. -/
theorem readText_quoted (text : String) (rest : List Char) :
    readText (text.toList.flatMap writtenCharacter ++ '"' :: rest) = .ok (text, rest) := by
  have decoded : decode? "" (text.toList.map Char.toNat) = some text := by
    rw [decode?_toNat, String.ofList_toList, String.empty_append]
  rw [readText, codes?_quoted, List.reverse_nil, List.nil_append]
  dsimp only
  rw [decoded]

/-! ## Integers -/

/-- Nothing at the beginning goes on with a number. -/
def Stops (rest : List Char) : Prop :=
  ∀ first ∈ rest.head?, first.isDigit = false ∧ first ∉ ['.', 'e', 'E']

theorem Stops.takeWhile {rest : List Char} (stops : Stops rest) : rest.takeWhile Char.isDigit = [] := by
  cases rest with
  | nil => rfl
  | cons first rest => exact List.takeWhile_cons_of_neg (by simp [(stops first rfl).1])

theorem Stops.dropWhile {rest : List Char} (stops : Stops rest) : rest.dropWhile Char.isDigit = rest := by
  cases rest with
  | nil => rfl
  | cons first rest => exact List.dropWhile_cons_of_neg (by simp [(stops first rfl).1])

theorem Stops.fraction? {rest : List Char} (stops : Stops rest) : fraction? rest = none := by
  unfold Reader.fraction?
  split
  · exact absurd (stops _ rfl).2 (by decide)
  · rfl

theorem Stops.exponent? {rest : List Char} (stops : Stops rest) : exponent? rest = none := by
  cases rest with
  | nil => rfl
  | cons first rest =>
      have noMark : ¬(first = 'e' ∨ first = 'E') := by
        rintro (rfl | rfl)
        · exact absurd (stops _ rfl).2 (by decide)
        · exact absurd (stops _ rfl).2 (by decide)
      rw [exponent?.eq_def]
      exact if_neg noMark

/-- The digits of a number begin with a zero only if they are no more than that. -/
theorem eq_nil_of_toDigits {number : Nat} {rest : List Char} (digits : Nat.toDigits 10 number = '0' :: rest) :
    rest = [] := by
  by_contra more
  have areDigits : Text.AreDigits ('0' :: rest) := by
    rw [← digits]
    exact Text.areDigits_toDigits number
  have value : Text.value ('0' :: rest) = number := by
    rw [← digits]
    exact Nat.ofDigitChars_ten_toDigits
  have below := Text.value_lt (List.forall_mem_cons.1 areDigits).2
  rw [Text.value_cons] at value
  have shorter : (Nat.toDigits 10 number).length ≤ rest.length := by
    apply (Nat.length_toDigits_le_iff (by decide) (List.length_pos_iff.2 more)).2
    simpa [← value] using below
  rw [digits, List.length_cons] at shorter
  exact absurd shorter (Nat.not_succ_le_self _)

theorem wholeDigits?_toDigits (number : Nat) {rest : List Char} (stops : Stops rest) :
    wholeDigits? (Nat.toDigits 10 number ++ rest) = some (Nat.toDigits 10 number, rest) := by
  have areDigits := Text.areDigits_toDigits number
  cases digits : Nat.toDigits 10 number with
  | nil => exact absurd digits (List.ne_nil_of_length_pos Nat.length_toDigits_pos)
  | cons digit others =>
      rw [digits] at areDigits
      obtain ⟨isDigit, areOthers⟩ := List.forall_mem_cons.1 areDigits
      by_cases zero : digit = '0'
      · subst zero
        rw [eq_nil_of_toDigits digits]
        rfl
      · rw [List.cons_append, wholeDigits?, if_pos isDigit, List.takeWhile_append_of_pos areOthers,
          List.dropWhile_append_of_pos areOthers, stops.takeWhile, stops.dropWhile, List.append_nil]
        exact zero

theorem readUnsigned_toDigits (negative : Bool) {number : Nat} (short : (Nat.toDigits 10 number).length ≤ Text.maxDigits)
    {rest : List Char} (stops : Stops rest) :
    readUnsigned negative (Nat.toDigits 10 number ++ rest) =
      .ok (integer (if negative then -(number : Int) else number), rest) := by
  simp only [readUnsigned, wholeDigits?_toDigits number stops, stops.fraction?, stops.exponent?, Option.getD_none,
    Option.isNone_none, Bool.and_self, if_true, if_neg (Nat.not_lt.2 short), Nat.ofDigitChars_ten_toDigits]

theorem readScalar_of_isDigit {digit : Char} (isDigit : digit.isDigit = true) (others : List Char) :
    readScalar (digit :: others) = readUnsigned false (digit :: others) := by
  rw [readScalar]
  all_goals
    rintro rest ⟨⟩
    cases isDigit

theorem readScalar_minus_of_isDigit {digit : Char} (isDigit : digit.isDigit = true) (others : List Char) :
    readScalar ('-' :: digit :: others) = readUnsigned true (digit :: others) := by
  rw [readScalar]
  rintro rest ⟨⟩
  cases isDigit

/-- One digit more than there may be, and the rest of them is not looked at. -/
theorem readUnsigned_of_lt (negative : Bool) {digit : Char} {others : List Char} (isDigit : digit.isDigit = true)
    (notZero : digit ≠ '0') (areOthers : Text.AreDigits others) (long : Text.maxDigits < (digit :: others).length) :
    readUnsigned negative (digit :: others) = .error .overlong := by
  have whole : wholeDigits? (digit :: others) = some (digit :: others, []) := by
    rw [wholeDigits?, if_pos isDigit, List.takeWhile_eq_self_iff.2 areOthers, List.dropWhile_eq_nil_iff.2 areOthers]
    exact notZero
  have noFraction : fraction? [] = none := rfl
  have noExponent : exponent? [] = none := rfl
  simp only [readUnsigned, whole, noFraction, noExponent, Option.getD_none, Option.isNone_none, Bool.and_self, if_true,
    if_pos long]

/-- An integer that is not too long is read as itself. -/
theorem readScalar_decimal {label : Label} (short : label.magnitude.length ≤ Text.maxDigits) {rest : List Char}
    (stops : Stops rest) : readScalar (label.decimal ++ rest) = .ok (integer label, rest) := by
  have areDigits := label.areDigits_magnitude
  obtain ⟨digit, others, digits⟩ := List.exists_cons_of_length_pos
    (Nat.length_toDigits_pos : 0 < (Nat.toDigits 10 label.natAbs).length)
  have isDigit : digit.isDigit = true := areDigits digit (by rw [Label.magnitude, digits]; exact List.mem_cons_self)
  by_cases negative : label < 0
  · have decimal : label.decimal ++ rest = '-' :: (Nat.toDigits 10 label.natAbs ++ rest) := by
      rw [Label.decimal, Label.sign, if_pos negative]
      rfl
    have read := readUnsigned_toDigits true short stops
    rw [digits, List.cons_append] at decimal read
    rw [decimal, readScalar_minus_of_isDigit isDigit, read, if_pos rfl,
      Int.ofNat_natAbs_of_nonpos (Int.le_of_lt negative), Int.neg_neg]
  · have decimal : label.decimal ++ rest = Nat.toDigits 10 label.natAbs ++ rest := by
      rw [Label.decimal_of_nonneg (Int.not_lt.1 negative), Label.magnitude]
    have read := readUnsigned_toDigits false short stops
    rw [digits, List.cons_append] at decimal read
    rw [decimal, readScalar_of_isDigit isDigit, read, if_neg Bool.false_ne_true,
      Int.natAbs_of_nonneg (Int.not_lt.1 negative)]

end Value.Reader

end RegexAutomaton
