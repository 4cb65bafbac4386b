import RegexAutomaton.Proofs.Regex.Language

/-!
# How words begin

Whether an expression has the empty word, and the letters that its words begin with, found by recursion on the
expression. A sequence begins as its first part does, and as the others do if the first part may be empty. Since every
expression has some word, what a part begins with is never lost for the want of a word of a later part.
-/

set_option autoImplicit false

namespace RegexAutomaton.Regex

open Computability

mutual

def nullable : Regex → Bool
  | empty => true
  | text _ => false
  | alternation first others => first.nullable || nullableAny others
  | sequence first others => first.nullable && nullableAll others
  | repetition .star _ => true
  | repetition .plus body => body.nullable
  | repetition .optional _ => true

def nullableAny : List Regex → Bool
  | [] => false
  | regex :: rest => regex.nullable || nullableAny rest

def nullableAll : List Regex → Bool
  | [] => true
  | regex :: rest => regex.nullable && nullableAll rest

end

mutual

def firstLetters : Regex → List Letter
  | empty => []
  | text letter => [letter]
  | alternation first others => first.firstLetters ++ firstLettersOfAny others
  | sequence first others =>
      first.firstLetters ++ if first.nullable then firstLettersOfAll others else []
  | repetition _ body => body.firstLetters

def firstLettersOfAny : List Regex → List Letter
  | [] => []
  | regex :: rest => regex.firstLetters ++ firstLettersOfAny rest

/-- The first letters of the parts up to the first one that is not nullable. -/
def firstLettersOfAll : List Regex → List Letter
  | [] => []
  | regex :: rest => regex.firstLetters ++ if regex.nullable then firstLettersOfAll rest else []

end

/-- Some of the words begins with the letter. -/
def Begins (letter : Letter) (words : Language Letter) : Prop :=
  ∃ word, letter :: word ∈ words

section Words

variable {letter : Letter} {first rest : Language Letter}

theorem nil_mem_mul : [] ∈ first * rest ↔ [] ∈ first ∧ [] ∈ rest := by
  rw [Language.mem_mul]
  constructor
  · rintro ⟨before, inFirst, after, inRest, empty⟩
    obtain ⟨rfl, rfl⟩ := List.append_eq_nil_iff.1 empty
    exact ⟨inFirst, inRest⟩
  · rintro ⟨inFirst, inRest⟩
    exact ⟨[], inFirst, [], inRest, rfl⟩

theorem begins_add : Begins letter (first + rest) ↔ Begins letter first ∨ Begins letter rest := by
  simp only [Begins, Language.mem_add, exists_or]

theorem begins_mul :
    Begins letter (first * rest) ↔
      (Begins letter first ∧ ∃ word, word ∈ rest) ∨ ([] ∈ first ∧ Begins letter rest) := by
  constructor
  · rintro ⟨word, spelled⟩
    obtain ⟨before, inFirst, after, inRest, split⟩ := Language.mem_mul.1 spelled
    cases before with
    | nil =>
        obtain rfl : after = letter :: word := split
        exact .inr ⟨inFirst, word, inRest⟩
    | cons head before =>
        obtain ⟨rfl, -⟩ := List.cons.inj split
        exact .inl ⟨⟨before, inFirst⟩, after, inRest⟩
  · rintro (⟨⟨before, inFirst⟩, after, inRest⟩ | ⟨inFirst, word, inRest⟩)
    · exact ⟨before ++ after, Language.append_mem_mul inFirst inRest⟩
    · exact ⟨word, Language.append_mem_mul inFirst inRest⟩

theorem begins_kstar : Begins letter first∗ ↔ Begins letter first := by
  constructor
  · rintro ⟨word, spelled⟩
    obtain ⟨words, split, all⟩ := Language.mem_kstar_iff_exists_nonempty.1 spelled
    cases words with
    | nil => cases split
    | cons head words =>
        obtain ⟨inFirst, nonempty⟩ := all head List.mem_cons_self
        cases head with
        | nil => exact absurd rfl nonempty
        | cons start head =>
            obtain ⟨rfl, -⟩ := List.cons.inj split
            exact ⟨head, inFirst⟩
  · rintro ⟨word, inFirst⟩
    have once : first ≤ first∗ := le_kstar
    exact ⟨word, once inFirst⟩

theorem not_begins_one : ¬Begins letter 1 := by
  rintro ⟨word, spelled⟩
  cases (Language.mem_one _).1 spelled

end Words

/-! ## The empty word -/

theorem nullableAny_iff (parts : List Regex)
    (empty : ∀ part ∈ parts, part.nullable = true ↔ [] ∈ part.language) :
    nullableAny parts = true ↔ [] ∈ languageOfAny parts := by
  induction parts with
  | nil => simp [nullableAny, languageOfAny, Language.notMem_zero]
  | cons regex rest ih =>
      rw [List.forall_mem_cons] at empty
      rw [nullableAny, languageOfAny, Bool.or_eq_true, Language.mem_add, empty.1, ih empty.2]

theorem nullableAll_iff (parts : List Regex)
    (empty : ∀ part ∈ parts, part.nullable = true ↔ [] ∈ part.language) :
    nullableAll parts = true ↔ [] ∈ languageOfAll parts := by
  induction parts with
  | nil => simp [nullableAll, languageOfAll]
  | cons regex rest ih =>
      rw [List.forall_mem_cons] at empty
      rw [nullableAll, languageOfAll, Bool.and_eq_true, nil_mem_mul, empty.1, ih empty.2]

theorem nullable_iff (regex : Regex) : regex.nullable = true ↔ [] ∈ regex.language := by
  induction regex using Regex.induction with
  | empty => simp [nullable, language]
  | text letter =>
      have notEmpty : [] ∉ ({[letter]} : Language Letter) := fun member => by cases member
      simp [nullable, language, notEmpty]
  | alternation first others ih =>
      rw [language_alternation, ← nullableAny_iff (first :: others) ih, nullable, nullableAny]
  | sequence first others ih =>
      rw [language_sequence, ← nullableAll_iff (first :: others) ih, nullable, nullableAll]
  | repetition mode body ih =>
      cases mode with
      | star => simp [nullable, language, Language.nil_mem_kstar]
      | plus => rw [nullable, language, nil_mem_mul, ih, and_iff_left (Language.nil_mem_kstar _)]
      | optional =>
          have skipped : [] ∈ 1 + body.language := (Language.mem_add _ _ _).2 (.inl Language.nil_mem_one)
          simp only [nullable, language, skipped]

/-! ## The first letters -/

theorem exists_mem_languageOfAll (parts : List Regex) (words : ∀ part ∈ parts, ∃ word, word ∈ part.language) :
    ∃ word, word ∈ languageOfAll parts := by
  induction parts with
  | nil => exact ⟨[], Language.nil_mem_one⟩
  | cons regex rest ih =>
      rw [List.forall_mem_cons] at words
      obtain ⟨first, inFirst⟩ := words.1
      obtain ⟨others, inOthers⟩ := ih words.2
      exact ⟨first ++ others, Language.append_mem_mul inFirst inOthers⟩

theorem exists_mem_language (regex : Regex) : ∃ word, word ∈ regex.language := by
  induction regex using Regex.induction with
  | empty => exact ⟨[], Language.nil_mem_one⟩
  | text letter => exact ⟨[letter], Set.mem_singleton _⟩
  | alternation first others ih =>
      obtain ⟨word, member⟩ := ih first List.mem_cons_self
      refine ⟨word, ?_⟩
      rw [language_alternation, mem_languageOfAny]
      exact ⟨first, List.mem_cons_self, member⟩
  | sequence first others ih =>
      rw [language_sequence]
      exact exists_mem_languageOfAll (first :: others) ih
  | repetition mode body ih =>
      obtain ⟨word, member⟩ := ih
      refine ⟨word ++ [], ?_⟩
      rw [language_repetition]
      refine (Language.mem_add _ _ _).2 (.inr (Language.append_mem_mul member ?_))
      cases mode.loops with
      | true => exact Language.nil_mem_kstar _
      | false => exact Language.nil_mem_one

variable {letter : Letter}

theorem mem_firstLettersOfAny_iff (parts : List Regex)
    (begins : ∀ part ∈ parts, letter ∈ part.firstLetters ↔ Begins letter part.language) :
    letter ∈ firstLettersOfAny parts ↔ Begins letter (languageOfAny parts) := by
  induction parts with
  | nil => simp [firstLettersOfAny, languageOfAny, Begins, Language.notMem_zero]
  | cons regex rest ih =>
      rw [List.forall_mem_cons] at begins
      rw [firstLettersOfAny, languageOfAny, List.mem_append, begins_add, begins.1, ih begins.2]

theorem mem_firstLettersOfAll_iff (parts : List Regex)
    (begins : ∀ part ∈ parts, letter ∈ part.firstLetters ↔ Begins letter part.language) :
    letter ∈ firstLettersOfAll parts ↔ Begins letter (languageOfAll parts) := by
  induction parts with
  | nil => simp [firstLettersOfAll, languageOfAll, not_begins_one]
  | cons regex rest ih =>
      rw [List.forall_mem_cons] at begins
      have others : ∃ word, word ∈ languageOfAll rest :=
        exists_mem_languageOfAll rest fun part _ => part.exists_mem_language
      rw [firstLettersOfAll, languageOfAll, List.mem_append, begins_mul, begins.1, ← regex.nullable_iff,
        and_iff_left others]
      cases regex.nullable with
      | true => simp [ih begins.2]
      | false => simp

theorem mem_firstLetters_iff (regex : Regex) :
    letter ∈ regex.firstLetters ↔ Begins letter regex.language := by
  induction regex using Regex.induction with
  | empty => simp [firstLetters, language, not_begins_one]
  | text other =>
      constructor
      · intro same
        obtain rfl := List.mem_singleton.1 same
        exact ⟨[], Set.mem_singleton _⟩
      · rintro ⟨word, spelled⟩
        cases spelled
        exact List.mem_singleton_self _
  | alternation first others ih =>
      rw [language_alternation, ← mem_firstLettersOfAny_iff (first :: others) ih, firstLetters, firstLettersOfAny]
  | sequence first others ih =>
      rw [language_sequence, ← mem_firstLettersOfAll_iff (first :: others) ih, firstLetters, firstLettersOfAll]
  | repetition mode body ih =>
      rw [firstLetters, ih]
      cases mode with
      | star => rw [language, begins_kstar]
      | plus =>
          rw [language, begins_mul, begins_kstar, and_iff_left ⟨[], Language.nil_mem_kstar _⟩]
          exact (or_iff_left_of_imp And.right).symm
      | optional => rw [language, begins_add, or_iff_right not_begins_one]

end RegexAutomaton.Regex
