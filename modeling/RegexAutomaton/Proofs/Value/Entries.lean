import Mathlib.Data.List.Find
import Mathlib.Data.List.Nodup
import RegexAutomaton.Value.Basic

/-!
# Looking up entries

What stands under a key of an object when its entries are put together, rearranged or changed. The first entry with a
key counts, so the order of the entries matters no more once their keys are distinct.
-/

set_option autoImplicit false

namespace RegexAutomaton.Value

variable {key : String} {entries others : List (String × Value)}

theorem entry?_eq_find? (key : String) (entries : List (String × Value)) :
    entry? key entries = (entries.find? fun entry => entry.1 = key).map Prod.snd := by
  induction entries with
  | nil => rfl
  | cons entry rest ih =>
      rw [Value.entry?.eq_def, List.find?_cons]
      by_cases here : entry.1 = key
      · simp [here]
      · simpa [here] using ih

theorem entry?_append (key : String) (first rest : List (String × Value)) :
    entry? key (first ++ rest) = (Value.entry? key first).or (Value.entry? key rest) := by
  simp only [entry?_eq_find?, List.find?_append, Option.map_or]

theorem entry?_eq_none_iff : entry? key entries = none ↔ ∀ entry ∈ entries, entry.1 ≠ key := by
  simp [entry?_eq_find?]

/-- The order of entries with distinct keys does not matter. -/
theorem entry?_perm (key : String) (order : entries.Perm others) (distinct : (entries.map Prod.fst).Nodup) :
    entry? key others = entry? key entries := by
  have single : {entry | entry ∈ entries ∧ decide (entry.1 = key)}.Subsingleton := by
    rintro first ⟨firstMember, firstKey⟩ second ⟨secondMember, secondKey⟩
    apply List.inj_on_of_nodup_map distinct firstMember secondMember
    rw [of_decide_eq_true firstKey, of_decide_eq_true secondKey]
  rw [entry?_eq_find?, entry?_eq_find?, List.find?_eq_find?_of_perm order single]

/-! ## Changes -/

/-- Removes what stands under a key. -/
def eraseEntry (key : String) (entries : List (String × Value)) : List (String × Value) :=
  entries.filter fun entry => entry.1 ≠ key

/-- Puts what stands under one key under another one, at its place. -/
def renameEntry (old new : String) (entries : List (String × Value)) : List (String × Value) :=
  entries.map fun entry => (if entry.1 = old then new else entry.1, entry.2)

theorem entry?_eraseEntry (key name : String) (entries : List (String × Value)) :
    entry? name (eraseEntry key entries) = if name = key then none else entry? name entries := by
  by_cases erased : name = key
  · rw [if_pos erased, entry?_eq_none_iff]
    intro entry member same
    exact of_decide_eq_true (List.mem_filter.1 member).2 (same.trans erased)
  · rw [if_neg erased, entry?_eq_find?, entry?_eq_find?, eraseEntry, List.find?_filter]
    congr 1
    apply List.find?_congr
    intro entry _
    by_cases here : entry.1 = name
    · simp [here, erased]
    · simp [here]

/-- The new key takes over from the old one if it was not there before. -/
theorem entry?_renameEntry {old new : String} (absent : entry? new entries = none) (different : old ≠ new)
    (name : String) :
    entry? name (renameEntry old new entries) =
      if name = new then entry? old entries else if name = old then none else entry? name entries := by
  rw [entry?_eq_none_iff] at absent
  have looked : entry? name (renameEntry old new entries) =
      (entries.find? fun entry => (if entry.1 = old then new else entry.1) = name).map Prod.snd := by
    rw [entry?_eq_find?, renameEntry, List.find?_map, Option.map_map]
    rfl
  rw [looked]
  by_cases isNew : name = new
  · rw [if_pos isNew, entry?_eq_find?]
    congr 1
    apply List.find?_congr
    intro entry member
    by_cases here : entry.1 = old
    · simp [here, isNew]
    · simp [here, isNew, absent entry member]
  · rw [if_neg isNew]
    by_cases isOld : name = old
    · rw [if_pos isOld, Option.map_eq_none_iff, List.find?_eq_none]
      intro entry _
      by_cases here : entry.1 = old
      · simp [here, isOld, different.symm]
      · simp [here, isOld]
    · rw [if_neg isOld, entry?_eq_find?]
      congr 1
      apply List.find?_congr
      intro entry _
      by_cases here : entry.1 = old
      · simp [here, Ne.symm isNew, Ne.symm isOld]
      · simp [here]

end RegexAutomaton.Value
