import RegexAutomaton.Regex.Basic

/-!
# Induction on regular expressions

A property of all expressions follows when it passes from the parts of an expression to the expression.
-/

set_option autoImplicit false

namespace RegexAutomaton.Regex

/-- Induction on an expression, with an assumption for every part of a choice or a sequence. -/
@[elab_as_elim]
theorem induction {motive : Regex → Prop}
    (empty : motive .empty)
    (text : ∀ letter, motive (.text letter))
    (alternation : ∀ first others, (∀ part ∈ first :: others, motive part) →
      motive (.alternation first others))
    (sequence : ∀ first others, (∀ part ∈ first :: others, motive part) →
      motive (.sequence first others))
    (repetition : ∀ mode body, motive body → motive (.repetition mode body))
    (regex : Regex) : motive regex := by
  refine @Regex.rec motive (fun parts => ∀ part ∈ parts, motive part)
    empty text ?_ ?_ repetition ?_ ?_ regex
  · intro first others firstInduction othersInduction
    exact alternation first others (List.forall_mem_cons.2 ⟨firstInduction, othersInduction⟩)
  · intro first others firstInduction othersInduction
    exact sequence first others (List.forall_mem_cons.2 ⟨firstInduction, othersInduction⟩)
  · intro part member
    cases member
  · intro first others firstInduction othersInduction
    exact List.forall_mem_cons.2 ⟨firstInduction, othersInduction⟩

end RegexAutomaton.Regex
