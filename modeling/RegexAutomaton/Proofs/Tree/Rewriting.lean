import Mathlib.Logic.Relation
import RegexAutomaton.Proofs.Tree.Grammar
import RegexAutomaton.Proofs.Value.Entries

/-!
# Objects that say the same

The object of a node may be put differently: its entries in another order, with or without entries that nobody asks for,
the literal under the other key, an absent field as a null. One change at one node leaves the outcome of reading as it
was, whether that is a tree or the report of a defect, and so does any number of changes anywhere.
-/

set_option autoImplicit false

namespace RegexAutomaton

namespace Value

/-- The keys that are asked for at a node. -/
def nodeKeys : List String := ["type", "symbol", "text", "parts", "sub"]

/-- Nothing is read from the key at a node with these entries: it is none that is asked for, or it is `text` and hidden
by `symbol`, under which there may be a null. -/
def Idle (entries : List (String × Value)) (key : String) : Prop :=
  key ∉ nodeKeys ∨ key = "text" ∧ (Value.entry? "symbol" entries).isSome

/-- One change of the entries of a node. As everywhere in objects the keys are distinct. -/
inductive Change : List (String × Value) → List (String × Value) → Prop
  | reorder {entries others : List (String × Value)} (order : entries.Perm others)
      (distinct : (entries.map Prod.fst).Nodup) : Change entries others
  /-- Adds an entry that is not read, or gives it another value. -/
  | set {entries : List (String × Value)} {key : String} (value : Value) (idle : Idle entries key) :
      Change entries (setEntry key value entries)
  | erase {entries : List (String × Value)} {key : String} (idle : Idle entries key) :
      Change entries (eraseEntry key entries)
  | rename {entries : List (String × Value)} (absent : entry? "symbol" entries = none) :
      Change entries (renameEntry "text" "symbol" entries)
  | eraseNull {entries : List (String × Value)} {key : String} (nested : key = "parts" ∨ key = "sub")
      (isNull : entry? key entries = some .null) : Change entries (eraseEntry key entries)

/-- One change at one node of a value: at the root, or at a node below it. -/
inductive Rewrites : Value → Value → Prop
  | root {entries others : List (String × Value)} (change : Change entries others) :
      Rewrites (.object entries) (.object others)
  | part {entries : List (String × Value)} (earlier later : List Value) {part other : Value}
      (listed : entry? "parts" entries = some (.list (earlier ++ part :: later))) (below : Rewrites part other) :
      Rewrites (.object entries) (.object (setEntry "parts" (.list (earlier ++ other :: later)) entries))
  | sub {entries : List (String × Value)} {sub other : Value} (found : entry? "sub" entries = some sub)
      (below : Rewrites sub other) : Rewrites (.object entries) (.object (setEntry "sub" other entries))

/-! ## What a change keeps -/

/-- Entries from which the same is read: the type and the literal are the same, and each of the other fields is the same
unless it was null and is absent now. -/
structure Alike (entries others : List (String × Value)) : Prop where
  type : entry? "type" others = entry? "type" entries
  literal : (Value.entry? "symbol" others).or (Value.entry? "text" others) =
    (Value.entry? "symbol" entries).or (Value.entry? "text" entries)
  nested : ∀ key, key = "parts" ∨ key = "sub" →
    entry? key others = entry? key entries ∨ entry? key others = none ∧ entry? key entries = some .null

variable {entries others : List (String × Value)} {key name : String}

theorem Idle.ne (idle : Idle entries key) (asked : name ∈ nodeKeys) (shown : name ≠ "text") : name ≠ key := by
  rintro rfl
  exact idle.elim (fun foreign => foreign asked) fun hidden => shown hidden.1

/-- Entries that differ under an idle key only. -/
theorem Idle.alike (idle : Idle entries key) (elsewhere : ∀ name, name ≠ key → entry? name others = entry? name entries) :
    Alike entries others where
  type := elsewhere "type" (idle.ne (by decide) (by decide))
  literal := by
    rw [elsewhere "symbol" (idle.ne (by decide) (by decide))]
    rcases idle with foreign | ⟨-, hidden⟩
    · have different : "text" ≠ key := fun same => foreign (same ▸ by decide)
      rw [elsewhere "text" different]
    · obtain ⟨found, symbol⟩ := Option.isSome_iff_exists.1 hidden
      rw [symbol]
      rfl
  nested name isNested := by
    apply Or.inl
    rcases isNested with rfl | rfl
    · exact elsewhere "parts" (idle.ne (by decide) (by decide))
    · exact elsewhere "sub" (idle.ne (by decide) (by decide))

theorem ne_of_nested (nested : key = "parts" ∨ key = "sub") (notParts : name ≠ "parts") (notSub : name ≠ "sub") :
    name ≠ key := by
  rintro rfl
  exact nested.elim notParts notSub

theorem alike_eraseEntry_null (nested : key = "parts" ∨ key = "sub") (isNull : entry? key entries = some .null) :
    Alike entries (eraseEntry key entries) := by
  have elsewhere : ∀ name, name ≠ "parts" → name ≠ "sub" →
      entry? name (eraseEntry key entries) = entry? name entries := by
    intro name notParts notSub
    rw [entry?_eraseEntry, if_neg (ne_of_nested nested notParts notSub)]
  refine ⟨elsewhere _ (by decide) (by decide), ?_, ?_⟩
  · rw [elsewhere "symbol" (by decide) (by decide), elsewhere "text" (by decide) (by decide)]
  · intro name _
    rw [entry?_eraseEntry]
    by_cases erased : name = key
    · rw [if_pos erased, erased]
      exact .inr ⟨rfl, isNull⟩
    · rw [if_neg erased]
      exact .inl rfl

theorem Change.alike (change : Change entries others) : Alike entries others := by
  cases change with
  | reorder order distinct =>
      have same : ∀ name, entry? name others = entry? name entries := fun name => entry?_perm name order distinct
      exact ⟨same _, by rw [same, same], fun name _ => .inl (same name)⟩
  | set value idle =>
      apply idle.alike
      intro name different
      rw [entry?_setEntry, if_neg different.symm]
  | erase idle =>
      apply idle.alike
      intro name different
      rw [entry?_eraseEntry, if_neg different]
  | rename absent =>
      have renamed := entry?_renameEntry absent (by decide : "text" ≠ "symbol")
      refine ⟨renamed "type", ?_, ?_⟩
      · rw [renamed, renamed, absent]
        simp
      · rintro name (rfl | rfl)
        · exact .inl (renamed "parts")
        · exact .inl (renamed "sub")
  | eraseNull nested isNull => exact alike_eraseEntry_null nested isNull

theorem Rewrites.isObject {value other : Value} (rewrites : value.Rewrites other) :
    ∃ entries others, value = .object entries ∧ other = .object others := by
  cases rewrites <;> exact ⟨_, _, rfl, rfl⟩

end Value

namespace Tree

open Value

variable {entries others : List (String × Value)}

theorem ofValue_congr (type : entry? "type" others = entry? "type" entries)
    (literal : ∀ kind, readLiteral kind others = readLiteral kind entries)
    (parts : ∀ kind, readParts kind others = readParts kind entries)
    (sub : ∀ kind, readSub kind others = readSub kind entries) : ofValue (.object others) = ofValue (.object entries) := by
  simp only [ofValue, type, literal, parts, sub]

theorem ofValue_of_alike (alike : Alike entries others) : ofValue (.object others) = ofValue (.object entries) := by
  apply ofValue_congr alike.type
  · intro kind
    rw [readLiteral, readLiteral, alike.literal]
  · intro kind
    rw [readParts_eq, readParts_eq]
    rcases alike.nested "parts" (.inl rfl) with same | ⟨absent, isNull⟩
    · rw [same]
    · rw [absent, isNull]
  · intro kind
    rw [readSub_eq, readSub_eq]
    rcases alike.nested "sub" (.inr rfl) with same | ⟨absent, isNull⟩
    · rw [same]
    · rw [absent, isNull]

theorem ofValues_congr {part other : Value} (same : ofValue other = ofValue part) (earlier later : List Value) :
    ofValues (earlier ++ other :: later) = ofValues (earlier ++ part :: later) := by
  induction earlier with
  | nil => rw [List.nil_append, List.nil_append, ofValues, ofValues, same]
  | cons first rest ih => rw [List.cons_append, List.cons_append, ofValues, ofValues, ih]

/-- The type and the literal are not read from a nested field. -/
theorem ofValue_setEntry {key : String} {value : Value} (nested : key = "parts" ∨ key = "sub")
    (parts : ∀ kind, readParts kind (setEntry key value entries) = readParts kind entries)
    (sub : ∀ kind, readSub kind (setEntry key value entries) = readSub kind entries) :
    ofValue (.object (setEntry key value entries)) = ofValue (.object entries) := by
  have elsewhere : ∀ name, name ≠ "parts" → name ≠ "sub" →
      entry? name (setEntry key value entries) = entry? name entries := by
    intro name notParts notSub
    rw [entry?_setEntry, if_neg (ne_of_nested nested notParts notSub).symm]
  apply ofValue_congr (elsewhere "type" (by decide) (by decide)) _ parts sub
  intro kind
  rw [readLiteral, readLiteral, elsewhere "symbol" (by decide) (by decide), elsewhere "text" (by decide) (by decide)]

/-- One change at one node. -/
theorem ofValue_of_rewrites {value other : Value} (rewrites : value.Rewrites other) : ofValue other = ofValue value := by
  induction rewrites with
  | root change => exact ofValue_of_alike change.alike
  | part earlier later listed below ih =>
      apply ofValue_setEntry (.inl rfl)
      · intro kind
        rw [readParts_eq, readParts_eq, entry?_setEntry, listed, if_pos rfl]
        simp only [ofValues_congr ih]
      · intro kind
        rw [readSub_eq, readSub_eq, entry?_setEntry]
        rfl
  | sub found below ih =>
      obtain ⟨inner, otherInner, rfl, rfl⟩ := below.isObject
      apply ofValue_setEntry (.inr rfl)
      · intro kind
        rw [readParts_eq, readParts_eq, entry?_setEntry]
        rfl
      · intro kind
        rw [readSub_eq, readSub_eq, entry?_setEntry, found, if_pos rfl]
        simp only [ih]

/-- Reading has the same outcome, a tree or the report of a defect, after any changes at any nodes. -/
theorem ofValue_rewritten {value other : Value} (rewritten : Relation.ReflTransGen Value.Rewrites value other) :
    ofValue other = ofValue value := by
  induction rewritten with
  | refl => rfl
  | tail _ last ih => exact (ofValue_of_rewrites last).trans ih

/-- The literal of a part comes under the other key, and a null of the part goes. Then the root loses a text that a null
hides, and its entries change places. -/
theorem ofValue_rewritten_nested :
    let part (fields : List (String × Value)) : Value := .list [.object (("type", .text "text") :: fields)]
    let value := Value.object
      [("parts", part [("text", .text "a"), ("sub", .null)]), ("type", .text "cat"), ("symbol", .null), ("text", .list [])]
    let other := Value.object [("type", .text "cat"), ("parts", part [("symbol", .text "a")]), ("symbol", .null)]
    Relation.ReflTransGen Value.Rewrites value other ∧ ofValue other = ofValue value ∧
      ofValue value = .ok (sequence [text "a"]) := by
  intro part value other
  let renamed := Value.object
    [("parts", part [("symbol", .text "a"), ("sub", .null)]), ("type", .text "cat"), ("symbol", .null), ("text", .list [])]
  let shortened := Value.object
    [("parts", part [("symbol", .text "a")]), ("type", .text "cat"), ("symbol", .null), ("text", .list [])]
  let bared := Value.object [("parts", part [("symbol", .text "a")]), ("type", .text "cat"), ("symbol", .null)]
  have first : value.Rewrites renamed := .part [] [] rfl (.root (.rename rfl))
  have second : renamed.Rewrites shortened := .part [] [] rfl (.root (.eraseNull (.inr rfl) rfl))
  have third : shortened.Rewrites bared := .root (.erase (.inr ⟨rfl, rfl⟩))
  have fourth : bared.Rewrites other := .root (.reorder (.swap _ _ _) (by decide))
  have rewritten : Relation.ReflTransGen Value.Rewrites value other :=
    (((Relation.ReflTransGen.single first).tail second).tail third).tail fourth
  exact ⟨rewritten, ofValue_rewritten rewritten, rfl⟩

end Tree

end RegexAutomaton
