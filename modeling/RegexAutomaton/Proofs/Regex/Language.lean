import Mathlib.Computability.Language
import RegexAutomaton.Proofs.Regex.Induction

/-!
# The words of an expression

What a regular expression denotes: a set of words over letters. A letter is a whole symbol, whatever its
spelling.
-/

set_option autoImplicit false

namespace RegexAutomaton.Regex

open Computability

mutual

/-- The words that an expression stands for. -/
def language : Regex → Language Letter
  | empty => 1
  | text letter => {[letter]}
  | alternation first others => first.language + languageOfAny others
  | sequence first others => first.language * languageOfAll others
  | repetition .star body => body.language∗
  | repetition .plus body => body.language * body.language∗
  | repetition .optional body => 1 + body.language

def languageOfAny : List Regex → Language Letter
  | [] => 0
  | regex :: rest => regex.language + languageOfAny rest

def languageOfAll : List Regex → Language Letter
  | [] => 1
  | regex :: rest => regex.language * languageOfAll rest

end

theorem language_alternation (first : Regex) (others : List Regex) :
    (alternation first others).language = languageOfAny (first :: others) := by
  simp only [language, languageOfAny]

theorem language_sequence (first : Regex) (others : List Regex) :
    (sequence first others).language = languageOfAll (first :: others) := by
  simp only [language, languageOfAll]

/-- A repetition takes its body at least once if it takes it at all, and only once unless it loops. -/
theorem language_repetition (mode : Repetition) (body : Regex) :
    (repetition mode body).language =
      (if mode.skips then 1 else 0) +
        body.language * (if mode.loops then body.language∗ else 1) := by
  cases mode with
  | star =>
      simp only [language, Repetition.skips, Repetition.loops, if_true]
      exact (Language.one_add_self_mul_kstar_eq_kstar body.language).symm
  | plus => simp [language, Repetition.skips, Repetition.loops]
  | optional => simp [language, Repetition.skips, Repetition.loops]

theorem mem_languageOfAny (parts : List Regex) (word : List Letter) :
    word ∈ languageOfAny parts ↔ ∃ part ∈ parts, word ∈ part.language := by
  induction parts with
  | nil => simp [languageOfAny, Language.notMem_zero]
  | cons first rest ih =>
      rw [languageOfAny, Language.mem_add, ih, List.exists_mem_cons_iff]

/-- What a repetition takes is a first word of its body, and further ones if it loops. -/
theorem exists_rounds {mode : Repetition} {body : Regex} {word : List Letter}
    (taken : word ∈ body.language * (if mode.loops then body.language∗ else 1)) :
    ∃ first words, word = (first :: words).flatten ∧
      (∀ part ∈ first :: words, part ∈ body.language) ∧ (words = [] ∨ mode.loops = true) := by
  obtain ⟨first, firstSpelled, more, moreSpelled, rfl⟩ := Language.mem_mul.1 taken
  cases loops : mode.loops with
  | true =>
      rw [loops, if_pos rfl] at moreSpelled
      obtain ⟨words, rfl, all⟩ := Language.mem_kstar.1 moreSpelled
      exact ⟨first, words, rfl, List.forall_mem_cons.2 ⟨firstSpelled, all⟩, .inr rfl⟩
  | false =>
      rw [loops] at moreSpelled
      obtain rfl : more = [] := (Language.mem_one more).1 moreSpelled
      exact ⟨first, [], by simp, by simpa using firstSpelled, .inl rfl⟩

end RegexAutomaton.Regex
