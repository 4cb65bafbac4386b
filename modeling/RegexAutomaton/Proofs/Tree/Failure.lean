import RegexAutomaton.Tree.Defect

/-!
# Errors of computations in a row

A computation made of several ones in a row has the error of the first one that fails, and its value only if none of
them does.
-/

set_option autoImplicit false

namespace RegexAutomaton.StructureError

variable {α β γ : Type} {error : StructureError}

/-- The error of a computation that has failed. -/
def of? {α : Type} : Except StructureError α → Option StructureError
  | .ok _ => none
  | .error error => some error

theorem of?_eq_some_iff {result : Except StructureError α} : of? result = some error ↔ result = .error error := by
  cases result with
  | ok value => simp [of?]
  | error found => simp [of?]

theorem of?_eq_none_iff {result : Except StructureError α} : of? result = none ↔ ∃ value, result = .ok value := by
  cases result with
  | ok value => simp [of?]
  | error found => simp [of?]

theorem bind_eq_ok_iff {Error : Type} {first : Except Error α} {next : α → Except Error β} {value : β} :
    first >>= next = .ok value ↔ ∃ middle, first = .ok middle ∧ next middle = .ok value := by
  cases first with
  | ok middle => exact ⟨fun success => ⟨middle, rfl, success⟩, fun ⟨_, rfl, success⟩ => success⟩
  | error found =>
      constructor
      · intro success
        cases success
      · rintro ⟨middle, failed, -⟩
        cases failed

theorem some_eq_ok_iff {Error : Type} {result : Except Error α} {value? : Option α} :
    (do let value ← result; return some value) = Except.ok value? ↔
      ∃ value, value? = some value ∧ result = .ok value := by
  cases result with
  | ok value => cases value? <;> simp [pure, Except.pure, bind, Except.bind, eq_comm]
  | error found => simp [bind, Except.bind]

/-- What follows a computation may use its value, but has the same error for all values. -/
theorem of?_bind_of (first : Except StructureError α) {next : α → Except StructureError β}
    {later : Option StructureError} (same : ∀ value, of? (next value) = later) :
    of? (first >>= next) = (of? first).or later := by
  cases first with
  | ok value => exact same value
  | error found => rfl

theorem of?_map (result : Except StructureError α) (next : α → β) :
    of? (do let value ← result; return next value) = of? result := by
  cases result <;> rfl

theorem of?_bind (first : Except StructureError α) (second : Except StructureError β) (next : α → β → γ) :
    of? (do let value ← first; let other ← second; return next value other) =
      (of? first).or (of? second) :=
  of?_bind_of first fun value => of?_map second (next value)

end RegexAutomaton.StructureError
