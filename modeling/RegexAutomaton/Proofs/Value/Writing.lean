import RegexAutomaton.Value.Writer
import RegexAutomaton.Proofs.Decimal.Characters

/-!
# Written values

What is written of a value, as a recursive function of the value. It holds none of the control characters below the
blank, whatever the texts in it hold, so it is one line.
-/

set_option autoImplicit false

namespace RegexAutomaton

namespace Value

/-! ## What is written -/

/-- A text with its quotes. -/
def quotedCharacters (content : String) : List Char :=
  '"' :: (content.toList.flatMap writtenCharacter ++ ['"'])

mutual

/-- What is written of a value. -/
def characters : Value → List Char
  | null => "null".toList
  | bool value => (if value then "true" else "false").toList
  | integer value => (toString value).toList
  | real value => (Decimal.text writtenNames value).toList
  | text value => quotedCharacters value
  | list [] => ['[', ']']
  | list (value :: rest) => '[' :: (characters value ++ listEnd rest)
  | object [] => ['\x7b', '\x7d']
  | object ((key, value) :: rest) =>
      '\x7b' :: (quotedCharacters key ++ ':' :: ' ' :: (characters value ++ objectEnd rest))

/-- What is written of a list behind one of its values. -/
def listEnd : List Value → List Char
  | [] => [']']
  | value :: rest => ',' :: ' ' :: (characters value ++ listEnd rest)

/-- What is written of an object behind one of its entries. -/
def objectEnd : List (String × Value) → List Char
  | [] => ['\x7d']
  | (key, value) :: rest =>
      ',' :: ' ' :: (quotedCharacters key ++ ':' :: ' ' :: (characters value ++ objectEnd rest))

end

theorem toList_foldl_push (written : String) (characters : List Char) :
    (characters.foldl String.push written).toList = written.toList ++ characters := by
  induction characters generalizing written with
  | nil => simp
  | cons character rest ih => simp [ih]

theorem toList_writeText (written content : String) :
    (writeText written content).toList = written.toList ++ quotedCharacters content := by
  have inner : ∀ (rest : List Char) (written : String),
      (rest.foldl (fun written character => (writtenCharacter character).foldl String.push written) written).toList =
        written.toList ++ rest.flatMap writtenCharacter := by
    intro rest
    induction rest with
    | nil => simp
    | cons character rest ih =>
        intro written
        rw [List.foldl_cons, ih, toList_foldl_push, List.flatMap_cons, List.append_assoc]
  simp [writeText, inner, quotedCharacters]

mutual

theorem toList_write (written : String) : ∀ value : Value,
    (value.write written).toList = written.toList ++ characters value
  | null => by simp [write, characters]
  | bool value => by simp [write, characters]
  | integer value => by simp [write, characters]
  | real value => by simp [write, characters]
  | text value => by rw [write, toList_writeText, characters]
  | list [] => by simp [write, characters]
  | list (value :: rest) => by simp [write, characters, toList_writeList, toList_write _ value]
  | object [] => by simp [write, characters]
  | object ((key, value) :: rest) => by
      simp [write, characters, toList_writeEntries, toList_write _ value, toList_writeText]

theorem toList_writeList (written : String) : ∀ values : List Value,
    (writeList written values).toList ++ [']'] = written.toList ++ listEnd values
  | [] => by simp [writeList, listEnd]
  | value :: rest => by simp [writeList, listEnd, toList_writeList _ rest, toList_write _ value]

theorem toList_writeEntries (written : String) : ∀ entries : List (String × Value),
    (writeEntries written entries).toList ++ ['\x7d'] = written.toList ++ objectEnd entries
  | [] => by simp [writeEntries, objectEnd]
  | (key, value) :: rest => by
      simp [writeEntries, objectEnd, toList_writeEntries _ rest, toList_write _ value, toList_writeText]

end

theorem toList_written (value : Value) : value.written.toList = value.characters := by
  simp [written, toList_write]

end Value

/-! ## No control characters -/

namespace Text

/-- No character of a text is a control character below the blank. -/
def Plain (text : List Char) : Prop :=
  ∀ character ∈ text, 0x20 ≤ character.toNat

instance (text : List Char) : Decidable (Plain text) :=
  List.decidableBAll (fun character : Char => 0x20 ≤ character.toNat) text

@[simp]
theorem plain_nil : Plain [] :=
  List.forall_mem_nil _

@[simp]
theorem plain_cons {character : Char} {text : List Char} :
    Plain (character :: text) ↔ 0x20 ≤ character.toNat ∧ Plain text :=
  List.forall_mem_cons

@[simp]
theorem plain_append {first second : List Char} : Plain (first ++ second) ↔ Plain first ∧ Plain second :=
  List.forall_mem_append

end Text

open Text (Plain)

namespace Decimal

theorem IsNumeral.visible {character : Char} (numeral : IsNumeral character) : 0x20 ≤ character.toNat := by
  rcases numeral with isDigit | mark
  · have bounds := Text.digit_bounds isDigit
    omega
  · simp only [List.mem_cons, List.not_mem_nil, or_false] at mark
    rcases mark with rfl | rfl | rfl | rfl <;> decide

end Decimal

namespace Value

theorem plain_writtenCharacter (character : Char) : Plain (writtenCharacter character) := by
  have escape : ∀ code < 0x20, Plain ((Nat.toDigits 16 code).leftpad 4 '0') := by
    decide
  unfold writtenCharacter
  split_ifs with quote backslash feed carriage tab back form isControl
  any_goals decide
  · rw [Text.plain_cons, Text.plain_cons]
    exact ⟨by decide, by decide, escape _ isControl⟩
  · rw [Text.plain_cons]
    exact ⟨Nat.not_lt.1 isControl, Text.plain_nil⟩

theorem plain_quotedCharacters (content : String) : Plain (quotedCharacters content) := by
  have inside : Plain (content.toList.flatMap writtenCharacter) := by
    intro character member
    obtain ⟨original, -, isWritten⟩ := List.mem_flatMap.1 member
    exact plain_writtenCharacter original character isWritten
  rw [quotedCharacters, Text.plain_cons, Text.plain_append]
  exact ⟨by decide, inside, by decide⟩

theorem plain_toString (number : Int) : Plain (toString number).toList :=
  fun _ member => (Decimal.isNumeral_toString member).visible

theorem plain_real (number : Float) : Plain (Decimal.text writtenNames number).toList := by
  have undefined : Plain writtenNames.undefined.toList := by decide
  have infinite : Plain writtenNames.infinite.toList := by decide
  exact Decimal.forall_mem_text Decimal.IsNumeral.visible undefined infinite number

mutual

/-- Values are written without control characters. -/
theorem plain_characters : ∀ value : Value, Plain value.characters
  | null => by
      rw [characters]
      decide
  | bool value => by
      rw [characters]
      cases value <;> decide
  | integer value => by
      rw [characters]
      exact plain_toString value
  | real value => by
      rw [characters]
      exact plain_real value
  | text value => by
      rw [characters]
      exact plain_quotedCharacters value
  | list [] => by
      rw [characters]
      decide
  | list (value :: rest) => by simp [characters, plain_characters value, plain_listEnd rest]
  | object [] => by
      rw [characters]
      decide
  | object ((key, value) :: rest) => by
      simp [characters, plain_quotedCharacters key, plain_characters value, plain_objectEnd rest]

theorem plain_listEnd : ∀ values : List Value, Plain (listEnd values)
  | [] => by
      rw [listEnd]
      decide
  | value :: rest => by simp [listEnd, plain_characters value, plain_listEnd rest]

theorem plain_objectEnd : ∀ entries : List (String × Value), Plain (objectEnd entries)
  | [] => by
      rw [objectEnd]
      decide
  | (key, value) :: rest => by
      simp [objectEnd, plain_quotedCharacters key, plain_characters value, plain_objectEnd rest]

end

theorem plain_written (value : Value) : Plain value.written.toList := by
  rw [toList_written]
  exact plain_characters value

end Value

end RegexAutomaton
