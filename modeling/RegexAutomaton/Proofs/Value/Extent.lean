import Mathlib.Data.List.Basic
import RegexAutomaton.Value.Reader

/-!
# How much text a value takes

A value cannot be read from just any text: each list, each object and each of their members takes some characters of its
own. So what is read from a text is never larger than the text.
-/

set_option autoImplicit false

namespace RegexAutomaton.Value

mutual

/-- A number of characters that any text with a value in it has. -/
def extent : Value → Nat
  | null => 1
  | bool _ => 1
  | integer _ => 1
  | real _ => 1
  | text _ => 1
  | list values => 1 + extentOfAll values
  | object entries => 1 + extentOfEntries entries

/-- A value in a list has a comma or a bracket behind it. -/
def extentOfAll : List Value → Nat
  | [] => 0
  | value :: rest => extent value + 1 + extentOfAll rest

/-- An entry has two quotes and a colon in it, and a comma or a brace behind it. -/
def extentOfEntries : List (String × Value) → Nat
  | [] => 0
  | (_, value) :: rest => extent value + 4 + extentOfEntries rest

end

theorem extentOfAll_append (first second : List Value) :
    extentOfAll (first ++ second) = extentOfAll first + extentOfAll second := by
  induction first with
  | nil => rw [List.nil_append, extentOfAll, Nat.zero_add]
  | cons value rest ih => rw [List.cons_append, extentOfAll, extentOfAll, ih, Nat.add_assoc _ (extentOfAll rest)]

theorem extentOfAll_reverse (values : List Value) : extentOfAll values.reverse = extentOfAll values := by
  induction values with
  | nil => rfl
  | cons value rest ih => rw [List.reverse_cons, extentOfAll_append, ih, extentOfAll, extentOfAll, extentOfAll,
      Nat.add_zero, Nat.add_comm]

theorem extentOfEntries_append (first second : List (String × Value)) :
    extentOfEntries (first ++ second) = extentOfEntries first + extentOfEntries second := by
  induction first with
  | nil => rw [List.nil_append, extentOfEntries, Nat.zero_add]
  | cons entry rest ih =>
      rw [List.cons_append, extentOfEntries, extentOfEntries, ih, Nat.add_assoc _ (extentOfEntries rest)]

theorem extentOfEntries_reverse (entries : List (String × Value)) :
    extentOfEntries entries.reverse = extentOfEntries entries := by
  induction entries with
  | nil => rfl
  | cons entry rest ih => rw [List.reverse_cons, extentOfEntries_append, ih, extentOfEntries, extentOfEntries,
      extentOfEntries, Nat.add_zero, Nat.add_comm]

theorem extentOfEntries_setEntry (key : String) (value : Value) (entries : List (String × Value)) :
    extentOfEntries (setEntry key value entries) ≤ extentOfEntries entries + (value.extent + 4) := by
  induction entries with
  | nil => simp [setEntry, extentOfEntries]
  | cons entry rest ih =>
      obtain ⟨name, old⟩ := entry
      rw [setEntry]
      split
      · rw [extentOfEntries, extentOfEntries]
        omega
      · rw [extentOfEntries, extentOfEntries]
        omega

/-- Entries are only dropped where a key is given several times. -/
theorem extentOfEntries_lastEntries (entries : List (String × Value)) :
    extentOfEntries (lastEntries entries) ≤ extentOfEntries entries := by
  have onto : ∀ rest done : List (String × Value),
      extentOfEntries (rest.foldl (fun done entry => setEntry entry.1 entry.2 done) done) ≤
        extentOfEntries done + extentOfEntries rest := by
    intro rest
    induction rest with
    | nil => exact fun done => Nat.le_refl _
    | cons entry rest ih =>
        intro done
        have here := extentOfEntries_setEntry entry.1 entry.2 done
        have later := ih (setEntry entry.1 entry.2 done)
        rw [List.foldl_cons, extentOfEntries]
        omega
  have whole := onto entries []
  rwa [extentOfEntries, Nat.zero_add] at whole

theorem extent_entry? {key : String} {value : Value} {entries : List (String × Value)}
    (found : entry? key entries = some value) : value.extent + 4 ≤ extentOfEntries entries := by
  induction entries with
  | nil => cases found
  | cons entry rest ih =>
      obtain ⟨name, first⟩ := entry
      unfold entry? at found
      rw [extentOfEntries]
      split at found
      · cases found
        omega
      · have later := ih found
        omega

theorem extent_get? {key : String} {value node : Value} (found : node.get? key = some value) :
    value.extent + 5 ≤ node.extent := by
  cases node with
  | object entries =>
      have entry := extent_entry? found
      rw [extent]
      omega
  | _ => cases found

namespace Reader

variable {input rest : List Char} {value : Value}

theorem length_skipBlanks (input : List Char) : (skipBlanks input).length ≤ input.length :=
  (List.dropWhile_suffix _).length_le

theorem length_of_codes? {codes found : List Nat} (read : codes? codes input = some (found, rest)) :
    rest.length < input.length := by
  fun_induction codes? codes input with
  | case1 => cases read
  | case2 => cases read; simp
  | case3 codes first second third fourth input code number ih =>
      have later := ih read
      simp only [List.length_cons]
      omega
  | case4 => cases read
  | case5 codes letter input _ character _ ih =>
      have later := ih read
      simp only [List.length_cons]
      omega
  | case6 => cases read
  | case7 => cases read
  | case8 codes character input _ _ _ _ ih =>
      have later := ih read
      simp only [List.length_cons]
      omega

theorem length_of_readText {content : String} (read : readText input = .ok (content, rest)) :
    rest.length < input.length := by
  unfold readText at read
  split at read
  · cases read
  · rename_i codes behind found
    split at read
    · cases read
    · cases read
      exact length_of_codes? found

/-! ## Numbers -/

theorem length_dropWhile (input : List Char) : (input.dropWhile Char.isDigit).length ≤ input.length :=
  (List.dropWhile_suffix _).length_le

theorem length_of_wholeDigits? {whole : List Char} (read : wholeDigits? input = some (whole, rest)) :
    rest.length < input.length := by
  unfold wholeDigits? at read
  split at read
  · cases read
  · cases read
    exact Nat.lt_succ_self _
  · split at read
    · cases read
      exact Nat.lt_succ_of_le (length_dropWhile _)
    · cases read

theorem length_of_fraction? {decimals : List Char} (read : fraction? input = some (decimals, rest)) :
    rest.length ≤ input.length := by
  unfold fraction? at read
  split at read
  · split at read
    · cases read
    · cases read
      exact Nat.le_succ_of_le (length_dropWhile _)
  · cases read

theorem length_of_exponentDigits? {negative : Bool} {power : Int}
    (read : exponentDigits? negative input = some (power, rest)) : rest.length ≤ input.length := by
  unfold exponentDigits? at read
  dsimp only at read
  split at read
  · cases read
  · cases read
    exact length_dropWhile input

theorem length_of_exponent? {power : Int} (read : exponent? input = some (power, rest)) :
    rest.length ≤ input.length := by
  unfold exponent? at read
  split at read
  · split at read
    · split at read
      all_goals
        have digits := length_of_exponentDigits? read
        simp only [List.length_cons] at digits ⊢
        omega
    · cases read
  · cases read

/-- What may be left out leaves the input as it is. -/
theorem length_of_getD {Part : Type} {found : Option (Part × List Char)}
    (part : ∀ {value rest}, found = some (value, rest) → rest.length ≤ input.length) (absent : Part) :
    (found.getD (absent, input)).2.length ≤ input.length := by
  cases found with
  | none => exact Nat.le_refl _
  | some found => exact part rfl

theorem extent_of_readUnsigned {negative : Bool} (read : readUnsigned negative input = .ok (value, rest)) :
    value.extent + rest.length ≤ input.length := by
  unfold readUnsigned at read
  split at read
  · cases read
  · rename_i whole behind found
    have begins := length_of_wholeDigits? found
    have fraction : ((fraction? behind).getD ([], behind)).2.length ≤ behind.length :=
      length_of_getD (fun read => length_of_fraction? read) []
    have exponent : ((exponent? ((fraction? behind).getD ([], behind)).2).getD
        (0, ((fraction? behind).getD ([], behind)).2)).2.length ≤ ((fraction? behind).getD ([], behind)).2.length :=
      length_of_getD (fun read => length_of_exponent? read) 0
    dsimp only at read
    split at read
    · split at read
      · cases read
      · cases read
        rw [extent]
        omega
    · cases read
      rw [extent]
      omega

theorem extent_of_readScalar (read : readScalar input = .ok (value, rest)) :
    value.extent + rest.length ≤ input.length := by
  unfold readScalar at read
  split at read
  case h_7 =>
    have unsigned := extent_of_readUnsigned read
    rw [List.length_cons]
    omega
  case h_8 => exact extent_of_readUnsigned read
  all_goals
    cases read
    simp only [extent, List.length_cons]
    omega

/-! ## Lists and objects -/

theorem exists_of_readList {limit : Nat} {room : Option Nat} {done : List Value}
    (read : readList (limit + 1) room done input = .ok (value, rest)) :
    ∃ first behind, readValue limit room input = .ok (first, behind) ∧
      ((∃ next, skipBlanks behind = ',' :: next ∧ readList limit room (first :: done) next = .ok (value, rest)) ∨
        skipBlanks behind = ']' :: rest ∧ value = list (first :: done).reverse) := by
  rw [readList] at read
  split at read
  · cases read
  · rename_i first behind found
    refine ⟨first, behind, found, ?_⟩
    split at read
    · exact .inl ⟨_, ‹_›, read⟩
    · cases read
      exact .inr ⟨‹_›, rfl⟩
    · cases read

theorem exists_of_readObject {limit : Nat} {room : Option Nat} {done : List (String × Value)}
    (read : readObject (limit + 1) room done input = .ok (value, rest)) :
    ∃ quoted key named start first behind, skipBlanks input = '"' :: quoted ∧ readText quoted = .ok (key, named) ∧
      skipBlanks named = ':' :: start ∧ readValue limit room start = .ok (first, behind) ∧
      ((∃ next, skipBlanks behind = ',' :: next ∧
          readObject limit room ((key, first) :: done) next = .ok (value, rest)) ∨
        skipBlanks behind = '\x7d' :: rest ∧ value = object (lastEntries ((key, first) :: done).reverse)) := by
  rw [readObject] at read
  split at read
  case h_2 => cases read
  split at read
  · cases read
  split at read
  case h_2 => cases read
  split at read
  · cases read
  refine ⟨_, _, _, _, _, _, ‹_›, ‹_›, ‹_›, ‹_›, ?_⟩
  split at read
  · exact .inl ⟨_, ‹_›, read⟩
  · cases read
    exact .inr ⟨‹_›, rfl⟩
  · cases read

/-- A value that is read takes up what it needs of the input. -/
def ValuesFit (limit : Nat) : Prop :=
  ∀ ⦃room input rest value⦄, readValue limit room input = .ok (value, rest) →
    value.extent + rest.length ≤ input.length

/-- So does a list, together with the values that have been read before. -/
def ListsFit (limit : Nat) : Prop :=
  ∀ ⦃room done input rest value⦄, readList limit room done input = .ok (value, rest) →
    value.extent + rest.length ≤ (list done).extent + input.length

def ObjectsFit (limit : Nat) : Prop :=
  ∀ ⦃room done input rest value⦄, readObject limit room done input = .ok (value, rest) →
    value.extent + rest.length ≤ (object done).extent + input.length

section Steps

variable {limit : Nat}

theorem ValuesFit.step (lists : ListsFit limit) (objects : ObjectsFit limit) : ValuesFit (limit + 1) := by
  intro room input rest value read
  have skipped := length_skipBlanks input
  rw [readValue] at read
  split at read
  · rename_i quoted opening
    rw [opening, List.length_cons] at skipped
    split at read
    · cases read
    · cases read
      have shorter := length_of_readText ‹_›
      rw [extent]
      omega
  · rename_i inside opening
    have inner := length_skipBlanks inside
    rw [opening, List.length_cons] at skipped
    split at read
    · cases read
    split at read
    · cases read
      rename_i closing
      rw [closing, List.length_cons] at inner
      rw [extent, extentOfAll]
      omega
    · have members := lists read
      rw [extent, extentOfAll] at members
      omega
  · rename_i inside opening
    have inner := length_skipBlanks inside
    rw [opening, List.length_cons] at skipped
    split at read
    · cases read
    split at read
    · cases read
      rename_i closing
      rw [closing, List.length_cons] at inner
      rw [extent, extentOfEntries]
      omega
    · have members := objects read
      rw [extent, extentOfEntries] at members
      omega
  · have scalar := extent_of_readScalar read
    omega

theorem ListsFit.step (values : ValuesFit limit) (lists : ListsFit limit) : ListsFit (limit + 1) := by
  intro room done input rest value read
  obtain ⟨first, behind, found, more⟩ := exists_of_readList read
  have here := values found
  have skipped := length_skipBlanks behind
  rcases more with ⟨next, separator, later⟩ | ⟨closing, rfl⟩
  · have others := lists later
    rw [separator, List.length_cons] at skipped
    rw [extent, extentOfAll] at others
    rw [extent]
    omega
  · rw [closing, List.length_cons] at skipped
    rw [extent, extentOfAll_reverse, extentOfAll, extent]
    omega

theorem ObjectsFit.step (values : ValuesFit limit) (objects : ObjectsFit limit) : ObjectsFit (limit + 1) := by
  intro room done input rest value read
  obtain ⟨quoted, key, named, start, first, behind, quote, isKey, colon, found, more⟩ := exists_of_readObject read
  have here := values found
  have skippedFirst := length_skipBlanks input
  have keyLength := length_of_readText isKey
  have skippedKey := length_skipBlanks named
  have skipped := length_skipBlanks behind
  rw [quote, List.length_cons] at skippedFirst
  rw [colon, List.length_cons] at skippedKey
  rcases more with ⟨next, separator, later⟩ | ⟨closing, rfl⟩
  · have others := objects later
    rw [separator, List.length_cons] at skipped
    rw [extent, extentOfEntries] at others
    rw [extent]
    omega
  · have kept := extentOfEntries_lastEntries ((key, first) :: done).reverse
    rw [extentOfEntries_reverse, extentOfEntries] at kept
    rw [closing, List.length_cons] at skipped
    rw [extent, extent]
    omega

end Steps

theorem readers_fit (limit : Nat) : ValuesFit limit ∧ ListsFit limit ∧ ObjectsFit limit := by
  induction limit with
  | zero => exact ⟨nofun, nofun, nofun⟩
  | succ limit ih =>
      obtain ⟨values, lists, objects⟩ := ih
      exact ⟨.step lists objects, .step values lists, .step values objects⟩

end Reader

/-- What is read from a text is not larger than the text. -/
theorem extent_le_length {input : String} {value : Value} (found : read input = .ok value) :
    value.extent ≤ input.toList.length := by
  rw [read, readWithin] at found
  split at found
  · cases found
  · rename_i whole behind readIt
    split at found
    · cases found
      have bounds := (Reader.readers_fit _).1 readIt
      omega
    · cases found

end RegexAutomaton.Value
