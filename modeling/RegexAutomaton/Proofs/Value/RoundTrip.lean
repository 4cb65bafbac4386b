import Mathlib.Data.List.TakeWhile
import RegexAutomaton.Proofs.Value.Scanning
import RegexAutomaton.Proofs.Value.Writing

/-!
# Written values read back

What has been written of a value is read as the value again, in front of anything that does not go on with a number. This
needs integers that are not too long to be read and, in each object, distinct keys. Floating point numbers are left out.
-/

set_option autoImplicit false

namespace RegexAutomaton.Value

/-- Values without floating point numbers, whose integers are not too long to be read and whose keys are distinct. -/
inductive Readable : Value → Prop where
  | null : Readable null
  | bool (value : Bool) : Readable (bool value)
  | integer {number : Int} (short : (Label.magnitude number).length ≤ Text.maxDigits) : Readable (integer number)
  | text (content : String) : Readable (text content)
  | list {values : List Value} (each : ∀ value ∈ values, Readable value) : Readable (list values)
  | object {entries : List (String × Value)} (distinct : (entries.map Prod.fst).Nodup)
      (each : ∀ entry ∈ entries, Readable entry.2) : Readable (object entries)

/-! ## Distinct keys -/

theorem setEntry_of_notMem {key : String} {entries : List (String × Value)} (absent : key ∉ entries.map Prod.fst)
    (value : Value) : setEntry key value entries = entries ++ [(key, value)] := by
  induction entries with
  | nil => rfl
  | cons entry rest ih =>
      rw [List.map_cons, List.mem_cons, not_or] at absent
      rw [setEntry, if_neg (Ne.symm absent.1), ih absent.2, List.cons_append]

/-- No entry with a key of its own is dropped. -/
theorem lastEntries_of_nodup {entries : List (String × Value)} (distinct : (entries.map Prod.fst).Nodup) :
    lastEntries entries = entries := by
  have onto : ∀ rest done : List (String × Value), ((done ++ rest).map Prod.fst).Nodup →
      rest.foldl (fun done entry => setEntry entry.1 entry.2 done) done = done ++ rest := by
    intro rest
    induction rest with
    | nil => simp
    | cons entry rest ih =>
        intro done distinct
        have absent : entry.1 ∉ done.map Prod.fst := by
          intro member
          rw [List.map_append, List.map_cons] at distinct
          exact (List.nodup_append.1 distinct).2.2 _ member _ List.mem_cons_self rfl
        rw [List.foldl_cons, setEntry_of_notMem absent, ih]
        · simp
        · simpa using distinct
  exact onto entries [] distinct

/-! ## Reading -/

namespace Reader

/-- A value is read from what has been written of it, in front of anything that does not go on with a number. -/
def ReadsBack (value : Value) : Prop :=
  ∀ (limit : Nat) (rest : List Char), 2 * value.characters.length < limit → Stops rest →
    readValue limit none (value.characters ++ rest) = .ok (value, rest)

theorem stops_listEnd (values : List Value) (rest : List Char) : Stops (listEnd values ++ rest) := by
  cases values <;> (rw [listEnd]; rintro first ⟨⟩; decide)

theorem stops_objectEnd (entries : List (String × Value)) (rest : List Char) : Stops (objectEnd entries ++ rest) := by
  rcases entries with _ | ⟨⟨key, value⟩, others⟩ <;> (rw [objectEnd]; rintro first ⟨⟩; decide)

/-! ### Blanks in front -/

theorem skipBlanks_cons {first : Char} (solid : isBlank first = false) (rest : List Char) :
    skipBlanks (first :: rest) = first :: rest :=
  List.dropWhile_cons_of_neg (by simp [solid])

theorem skipBlanks_quote (rest : List Char) : skipBlanks ('"' :: rest) = '"' :: rest :=
  skipBlanks_cons rfl rest

theorem skipBlanks_colon (rest : List Char) : skipBlanks (':' :: rest) = ':' :: rest :=
  skipBlanks_cons rfl rest

theorem readValue_blank (limit : Nat) (input : List Char) :
    readValue limit none (' ' :: input) = readValue limit none input := by
  cases limit <;> rfl

theorem readList_blank (limit : Nat) (done : List Value) (input : List Char) :
    readList limit none done (' ' :: input) = readList limit none done input := by
  cases limit with
  | zero => rfl
  | succ limit => rw [readList, readList, readValue_blank]

theorem readObject_blank (limit : Nat) (done : List (String × Value)) (input : List Char) :
    readObject limit none done (' ' :: input) = readObject limit none done input := by
  cases limit <;> rfl

/-! ### Texts and integers -/

theorem quotedCharacters_append (content : String) (rest : List Char) :
    quotedCharacters content ++ rest = '"' :: (content.toList.flatMap writtenCharacter ++ '"' :: rest) := by
  simp [quotedCharacters]

theorem readValue_quoted (limit : Nat) (content : String) (rest : List Char) :
    readValue (limit + 1) none (quotedCharacters content ++ rest) = .ok (text content, rest) := by
  rw [quotedCharacters_append, readValue.eq_def]
  simp only [skipBlanks_quote, readText_quoted]

theorem readValue_scalar (limit : Nat) (room : Option Nat) {first : Char} (solid : isBlank first = false)
    (plain : first ∉ ['"', '[', '\x7b']) (rest : List Char) :
    readValue (limit + 1) room (first :: rest) = readScalar (first :: rest) := by
  rw [readValue.eq_def]
  dsimp only
  rw [skipBlanks_cons solid]
  split
  · exact absurd plain (by simp_all)
  · exact absurd plain (by simp_all)
  · exact absurd plain (by simp_all)
  · rfl

theorem solid_of_isDigit {digit : Char} (isDigit : digit.isDigit = true) :
    isBlank digit = false ∧ digit ∉ ['"', '[', '\x7b', ']'] := by
  simp only [isBlank, Bool.or_eq_false_iff, beq_eq_false_iff_ne, List.mem_cons, List.not_mem_nil, or_false, not_or]
  refine ⟨⟨⟨⟨?_, ?_⟩, ?_⟩, ?_⟩, ?_, ?_, ?_, ?_⟩
  all_goals
    rintro rfl
    cases isDigit

/-- An integer begins like no other value. -/
theorem exists_cons_of_decimal (label : Label) :
    ∃ first rest, label.decimal = first :: rest ∧ isBlank first = false ∧ first ∉ ['"', '[', '\x7b', ']'] := by
  obtain ⟨first, rest, split⟩ := List.exists_cons_of_ne_nil label.decimal_ne_nil
  refine ⟨first, rest, split, ?_⟩
  rcases label.sign_or_isDigit_of_mem_decimal (by rw [split]; exact List.mem_cons_self) with rfl | isDigit
  · decide
  · exact solid_of_isDigit isDigit

theorem readValue_decimal (limit : Nat) {label : Label} (short : label.magnitude.length ≤ Text.maxDigits)
    {rest : List Char} (stops : Stops rest) :
    readValue (limit + 1) none (label.decimal ++ rest) = .ok (integer label, rest) := by
  obtain ⟨first, others, split, solid, plain⟩ := exists_cons_of_decimal label
  have whole := readScalar_decimal short stops
  rw [split, List.cons_append] at whole ⊢
  rw [readValue_scalar limit none solid (by simp_all), whole]

/-! ### Lists and objects -/

section Steps

variable {limit : Nat} {value : Value} {input rest : List Char}

theorem readList_more (reads : readValue limit none input = .ok (value, ',' :: rest)) (done : List Value) :
    readList (limit + 1) none done input = readList limit none (value :: done) rest := by
  rw [readList, reads]
  rfl

theorem readList_last (reads : readValue limit none input = .ok (value, ']' :: rest)) (done : List Value) :
    readList (limit + 1) none done input = .ok (list (value :: done).reverse, rest) := by
  rw [readList, reads]
  rfl

variable {key : String}

theorem readObject_more (reads : readValue limit none input = .ok (value, ',' :: rest)) (done : List (String × Value)) :
    readObject (limit + 1) none done (quotedCharacters key ++ ':' :: input) =
      readObject limit none ((key, value) :: done) rest := by
  rw [quotedCharacters_append, readObject.eq_def]
  simp only [skipBlanks_quote, readText_quoted, skipBlanks_colon, reads]
  rfl

theorem readObject_last (reads : readValue limit none input = .ok (value, '\x7d' :: rest))
    (done : List (String × Value)) :
    readObject (limit + 1) none done (quotedCharacters key ++ ':' :: input) =
      .ok (object (lastEntries ((key, value) :: done).reverse), rest) := by
  rw [quotedCharacters_append, readObject.eq_def]
  simp only [skipBlanks_quote, readText_quoted, skipBlanks_colon, reads]
  rfl

end Steps

/-- The values of a list are read one after the other. -/
theorem readList_characters {first : Value} {others : List Value} (firstReads : ReadsBack first)
    (each : ∀ value ∈ others, ReadsBack value) (done : List Value) {limit : Nat} (rest : List Char)
    (enough : 2 * (first.characters ++ listEnd others).length < limit) :
    readList limit none done (first.characters ++ (listEnd others ++ rest)) =
      .ok (list (done.reverse ++ first :: others), rest) := by
  induction others generalizing first done limit with
  | nil =>
      obtain _ | limit := limit
      · exact absurd enough (Nat.not_lt_zero _)
      rw [listEnd] at enough ⊢
      rw [List.length_append, List.length_singleton] at enough
      have reads := firstReads limit (']' :: rest) (by omega) (stops_listEnd [] rest)
      rw [List.singleton_append, readList_last reads, List.reverse_cons]
  | cons next others ih =>
      obtain _ | limit := limit
      · exact absurd enough (Nat.not_lt_zero _)
      obtain ⟨nextReads, othersRead⟩ := List.forall_mem_cons.1 each
      have stops := stops_listEnd (next :: others) rest
      rw [listEnd] at enough stops ⊢
      rw [List.length_append, List.length_cons, List.length_cons] at enough
      have reads := firstReads limit _ (by omega) stops
      have later := @ih next nextReads othersRead (first :: done) limit (by omega)
      rw [readList_more reads]
      change readList limit none (first :: done) (' ' :: (next.characters ++ listEnd others ++ rest)) = _
      rw [readList_blank, List.append_assoc, later, List.reverse_cons, List.append_assoc, List.singleton_append]

/-- The entries of an object are read one after the other. -/
theorem readObject_characters {key : String} {first : Value} {others : List (String × Value)}
    (firstReads : ReadsBack first) (each : ∀ entry ∈ others, ReadsBack entry.2) (done : List (String × Value))
    {limit : Nat} (rest : List Char) (enough : 2 * (first.characters ++ objectEnd others).length < limit) :
    readObject limit none done
        (quotedCharacters key ++ ':' :: ' ' :: (first.characters ++ (objectEnd others ++ rest))) =
      .ok (object (lastEntries (done.reverse ++ (key, first) :: others)), rest) := by
  induction others generalizing key first done limit with
  | nil =>
      obtain _ | limit := limit
      · exact absurd enough (Nat.not_lt_zero _)
      rw [objectEnd] at enough ⊢
      rw [List.length_append, List.length_singleton] at enough
      have reads := firstReads limit ('\x7d' :: rest) (by omega) (stops_objectEnd [] rest)
      rw [← readValue_blank] at reads
      rw [List.singleton_append, readObject_last reads, List.reverse_cons]
  | cons next others ih =>
      obtain ⟨nextKey, value⟩ := next
      obtain _ | limit := limit
      · exact absurd enough (Nat.not_lt_zero _)
      obtain ⟨nextReads, othersRead⟩ := List.forall_mem_cons.1 each
      have stops := stops_objectEnd ((nextKey, value) :: others) rest
      rw [objectEnd] at enough stops ⊢
      rw [List.length_append, List.length_cons, List.length_cons, List.length_append, List.length_cons,
        List.length_cons] at enough
      have reads := firstReads limit _ (by omega) stops
      have later := @ih nextKey value nextReads othersRead ((key, first) :: done) limit (by omega)
      rw [← readValue_blank] at reads
      rw [readObject_more reads]
      change readObject limit none ((key, first) :: done)
        (' ' :: (quotedCharacters nextKey ++ ':' :: ' ' :: (value.characters ++ objectEnd others) ++ rest)) = _
      rw [readObject_blank, List.append_assoc, List.cons_append, List.cons_append, List.append_assoc, later,
        List.reverse_cons, List.append_assoc, List.singleton_append]

/-! ## Values -/

/-- A value that can be read begins neither with a blank nor as the end of a list. -/
theorem exists_cons_of_readable {value : Value} (readable : value.Readable) :
    ∃ first rest, value.characters = first :: rest ∧ isBlank first = false ∧ first ≠ ']' := by
  cases readable with
  | null => exact ⟨_, _, rfl, by decide⟩
  | bool value => cases value <;> exact ⟨_, _, rfl, by decide⟩
  | integer short =>
      obtain ⟨first, rest, split, solid, plain⟩ := exists_cons_of_decimal _
      refine ⟨first, rest, ?_, solid, by simp_all⟩
      rw [characters, ← Label.text_eq_toString, Label.text, String.toList_ofList, split]
  | text content => exact ⟨_, _, rfl, by decide⟩
  | @list values each => cases values <;> exact ⟨_, _, rfl, by decide⟩
  | @object entries distinct each => rcases entries with _ | ⟨⟨key, value⟩, rest⟩ <;> exact ⟨_, _, rfl, by decide⟩

theorem readValue_list (limit : Nat) {input : List Char}
    (opens : ∃ first rest, input = first :: rest ∧ isBlank first = false ∧ first ≠ ']') :
    readValue (limit + 1) none ('[' :: input) = readList limit none [] input := by
  obtain ⟨first, rest, rfl, solid, notEnd⟩ := opens
  have bracket : skipBlanks ('[' :: first :: rest) = '[' :: first :: rest := skipBlanks_cons rfl _
  rw [readValue.eq_def]
  simp only [bracket, roomInside?, skipBlanks_cons solid]
  split
  · exact absurd (List.cons.inj ‹_›).1 notEnd
  · rfl

theorem readsBack_of_succ {value : Value}
    (reads : ∀ (limit : Nat) (rest : List Char), 2 * value.characters.length < limit + 1 → Stops rest →
      readValue (limit + 1) none (value.characters ++ rest) = .ok (value, rest)) : ReadsBack value := by
  intro limit rest enough stops
  cases limit with
  | zero => exact absurd enough (Nat.not_lt_zero _)
  | succ limit => exact reads limit rest enough stops

theorem readsBack_of_readable {value : Value} (readable : value.Readable) : ReadsBack value := by
  induction readable with
  | null => exact readsBack_of_succ fun _ _ _ _ => rfl
  | bool value => cases value <;> exact readsBack_of_succ fun _ _ _ _ => rfl
  | @integer number short =>
      refine readsBack_of_succ fun limit rest _ stops => ?_
      rw [characters, ← Label.text_eq_toString, Label.text, String.toList_ofList, readValue_decimal limit short stops]
  | text content =>
      refine readsBack_of_succ fun limit rest _ _ => ?_
      rw [characters, readValue_quoted]
  | @list values each ih =>
      refine readsBack_of_succ fun limit rest enough _ => ?_
      cases values with
      | nil => rfl
      | cons first others =>
          obtain ⟨firstReads, othersRead⟩ := List.forall_mem_cons.1 ih
          obtain ⟨head, tail, split, solid, notEnd⟩ := exists_cons_of_readable (each first List.mem_cons_self)
          rw [characters, List.length_cons] at enough
          have inner := @readList_characters first others firstReads othersRead [] limit rest (by omega)
          rw [characters, List.cons_append, List.append_assoc, readValue_list, inner]
          · rfl
          · rw [split]
            exact ⟨head, _, rfl, solid, notEnd⟩
  | @object entries distinct each ih =>
      refine readsBack_of_succ fun limit rest enough _ => ?_
      rcases entries with _ | ⟨⟨key, first⟩, others⟩
      · rfl
      · obtain ⟨firstReads, othersRead⟩ := List.forall_mem_cons.1 ih
        rw [characters, List.length_cons, List.length_append, List.length_cons, List.length_cons] at enough
        have inner := @readObject_characters key first others firstReads othersRead [] limit rest (by omega)
        have opened : readValue (limit + 1) none (characters (object ((key, first) :: others)) ++ rest) =
            readObject limit none []
              (quotedCharacters key ++ ':' :: ' ' :: (first.characters ++ (objectEnd others ++ rest))) := by
          rw [characters, List.cons_append, List.append_assoc, List.cons_append, List.cons_append, List.append_assoc,
            quotedCharacters_append]
          rfl
        rw [opened, inner, List.reverse_nil, List.nil_append, lastEntries_of_nodup distinct]

theorem stops_of_blanks {blanks : List Char} (blank : ∀ character ∈ blanks, isBlank character = true) : Stops blanks := by
  intro first isFirst
  have isBlank := blank first (List.mem_of_mem_head? isFirst)
  simp only [Reader.isBlank, Bool.or_eq_true, beq_iff_eq] at isBlank
  rcases isBlank with ((rfl | rfl) | rfl) | rfl <;> decide

end Reader

/-- An integer of too many digits is not read, whatever the room. -/
theorem readWithin_of_lt (room : Option Nat) {digit : Char} {others : List Char} (isDigit : digit.isDigit = true)
    (notZero : digit ≠ '0') (areOthers : Text.AreDigits others) (long : Text.maxDigits < others.length + 1) :
    readWithin room (String.ofList (digit :: others)) = .error .overlong := by
  obtain ⟨solid, plain⟩ := Reader.solid_of_isDigit isDigit
  rw [readWithin, String.toList_ofList, Reader.readValue_scalar _ room solid (by simp_all),
    Reader.readScalar_of_isDigit isDigit, Reader.readUnsigned_of_lt false isDigit notZero areOthers long]

/-- A written value with blanks behind it is read as the value. -/
theorem read_written {value : Value} (readable : value.Readable) {blanks : String}
    (blank : ∀ character ∈ blanks.toList, Reader.isBlank character = true) :
    read (value.written ++ blanks) = .ok value := by
  have behind : Reader.skipBlanks blanks.toList = [] := List.dropWhile_eq_nil_iff.2 blank
  have enough : 2 * value.characters.length < 2 * (value.characters ++ blanks.toList).length + 2 := by
    rw [List.length_append]
    omega
  have reads := Reader.readsBack_of_readable readable _ blanks.toList enough (Reader.stops_of_blanks blank)
  rw [read, readWithin, String.toList_append, toList_written, reads]
  simp [behind]

/-- A value on a line of its own. -/
theorem read_line {value : Value} (readable : value.Readable) : read (value.written ++ "\n") = .ok value := by
  apply read_written readable
  simp [Reader.isBlank]

end RegexAutomaton.Value
