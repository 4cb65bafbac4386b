import RegexAutomaton.Proofs.Tree.Grammar

/-!
# Reading within a limit

A limit on the calls inside each other decides only how far reading gets. As long as calls are left each node is read as
without a limit, and the trees that can be read are those that are not deeper than the limit.
-/

set_option autoImplicit false

namespace RegexAutomaton.Tree

open StructureError

mutual

/-- The number of nodes on the longest way down. -/
def depth : Tree → Nat
  | node _ _ parts sub => max (depthParts parts) (depthSub sub) + 1

def depthAll : List Tree → Nat
  | [] => 0
  | tree :: rest => max (depth tree) (depthAll rest)

def depthParts : Option (List Tree) → Nat
  | none => 0
  | some parts => depthAll parts

def depthSub : Option Tree → Nat
  | none => 0
  | some sub => depth sub

end

theorem ofValueWithin_none (value : Value) : ofValueWithin none value = (ofValue value).mapError .malformed :=
  rfl

theorem ofValueWithin_zero (value : Value) : ofValueWithin (some 0) value = .error .exhausted :=
  rfl

theorem ofValueWithin_succ (limit : Nat) (value : Value) :
    ofValueWithin (some (limit + 1)) value = readNodeBy (ofValueWithin (some limit)) value :=
  rfl

theorem ofValueWithin_none_eq_ok_iff {value : Value} {tree : Tree} :
    ofValueWithin none value = .ok tree ↔ ofValue value = .ok tree := by
  rw [ofValueWithin_none]
  cases ofValue value with
  | error error => exact ⟨nofun, nofun⟩
  | ok read =>
      constructor
      · intro same
        cases same
        rfl
      · intro same
        cases same
        rfl

/-! ## Node by node -/

section Errors

variable {α β : Type}

theorem mapError_bind (first : Except StructureError α) (next : α → Except StructureError β) :
    (first >>= next).mapError ReadError.malformed =
      first.mapError .malformed >>= fun value => (next value).mapError .malformed := by
  cases first <;> rfl

theorem mapError_ofValues (values : List Value) :
    (ofValues values).mapError ReadError.malformed = values.mapM (ofValueWithin none) := by
  induction values with
  | nil => rfl
  | cons value rest ih =>
      rw [ofValues, mapError_bind, List.mapM_cons, ← ih, ofValueWithin_none]
      cases ofValue value with
      | error error => rfl
      | ok tree => exact mapError_bind _ _

end Errors

variable {kind : Value}

theorem mapError_readParts (kind : Value) (entries : List (String × Value)) :
    (readParts kind entries).mapError ReadError.malformed =
      readPartsBy (ofValueWithin none) kind (Value.entry? "parts" entries) := by
  rw [readParts_eq]
  cases Value.entry? "parts" entries with
  | none => rfl
  | some found =>
      cases found with
      | list values =>
          dsimp only
          rw [mapError_bind, mapError_ofValues]
          rfl
      | _ => rfl

theorem mapError_readSub (kind : Value) (entries : List (String × Value)) :
    (readSub kind entries).mapError ReadError.malformed =
      readSubBy (ofValueWithin none) kind (Value.entry? "sub" entries) := by
  rw [readSub_eq]
  cases Value.entry? "sub" entries with
  | none => rfl
  | some found =>
      cases found with
      | object inner =>
          dsimp only
          rw [mapError_bind]
          rfl
      | _ => rfl

/-- Reading without a limit is reading the nodes below in the same way. -/
theorem ofValueWithin_none_eq (value : Value) :
    ofValueWithin none value = readNodeBy (ofValueWithin none) value := by
  cases value with
  | object entries =>
      cases typed : Value.entry? "type" entries with
      | none => simp only [ofValueWithin_none, ofValue, readNodeBy, typed]; rfl
      | some kind =>
          simp only [ofValueWithin_none, ofValue, readNodeBy, typed, mapError_bind, mapError_readParts,
            mapError_readSub]
          rfl
  | _ => rfl

/-! ## The limit used up -/

/-- The first result is the second one, unless the limit was used up before it was there. -/
def Agrees {α : Type} (limited free : Except ReadError α) : Prop :=
  limited = .error .exhausted ∨ limited = free

namespace Agrees

variable {α β : Type} {limited free : Except ReadError α}

theorem refl (result : Except ReadError α) : Agrees result result :=
  .inr rfl

theorem bind (first : Agrees limited free) {limitedNext freeNext : α → Except ReadError β}
    (next : ∀ value, Agrees (limitedNext value) (freeNext value)) :
    Agrees (limited >>= limitedNext) (free >>= freeNext) := by
  rcases first with rfl | rfl
  · exact .inl rfl
  · cases limited with
    | error error => exact .inr rfl
    | ok value => exact next value

section Nodes

variable {read : Value → Except ReadError Tree} (each : ∀ value, Agrees (read value) (ofValueWithin none value))

include each

theorem mapM (values : List Value) : Agrees (values.mapM read) (values.mapM (ofValueWithin none)) := by
  induction values with
  | nil => exact .refl _
  | cons value rest ih =>
      rw [List.mapM_cons, List.mapM_cons]
      exact (each value).bind fun tree => ih.bind fun trees => .refl _

theorem readPartsBy (found : Option Value) :
    Agrees (readPartsBy read kind found) (readPartsBy (ofValueWithin none) kind found) := by
  unfold Tree.readPartsBy
  split
  · exact .refl _
  · exact .refl _
  · exact (mapM each _).bind fun trees => .refl _
  · exact .refl _

theorem readSubBy (found : Option Value) :
    Agrees (readSubBy read kind found) (readSubBy (ofValueWithin none) kind found) := by
  unfold Tree.readSubBy
  split
  · exact .refl _
  · exact .refl _
  · exact (each _).bind fun tree => .refl _
  · exact .refl _

theorem readNodeBy (value : Value) : Agrees (readNodeBy read value) (readNodeBy (ofValueWithin none) value) := by
  unfold Tree.readNodeBy
  split
  · split
    · exact .refl _
    · exact (Agrees.refl _).bind fun literal =>
        (readPartsBy each _).bind fun parts => (readSubBy each _).bind fun sub => .refl _
  · exact .refl _

end Nodes

end Agrees

theorem agrees_ofValueWithin (limit : Option Nat) (value : Value) :
    Agrees (ofValueWithin limit value) (ofValueWithin none value) := by
  cases limit with
  | none => exact .refl _
  | some limit =>
      induction limit generalizing value with
      | zero => exact .inl rfl
      | succ limit ih =>
          rw [ofValueWithin_succ, ofValueWithin_none_eq]
          exact .readNodeBy ih value

/-! ## The trees within the limit -/

theorem depthAll_le_iff {trees : List Tree} {limit : Nat} :
    depthAll trees ≤ limit ↔ ∀ tree ∈ trees, tree.depth ≤ limit := by
  induction trees with
  | nil => simp [depthAll]
  | cons tree rest ih => rw [depthAll, Nat.max_le, ih, List.forall_mem_cons]

/-- What is read within a limit is what is read without, as long as it is not deeper. -/
def ReadsWithin (limit : Nat) (read : Value → Except ReadError Tree) : Prop :=
  ∀ value tree, read value = .ok tree ↔ ofValueWithin none value = .ok tree ∧ tree.depth ≤ limit

namespace ReadsWithin

variable {limit : Nat} {read : Value → Except ReadError Tree} (reads : ReadsWithin limit read)

include reads

theorem mapM (values : List Value) (trees : List Tree) :
    values.mapM read = .ok trees ↔ values.mapM (ofValueWithin none) = .ok trees ∧ depthAll trees ≤ limit := by
  induction values generalizing trees with
  | nil => cases trees <;> simp [depthAll, pure, Except.pure]
  | cons value rest ih =>
      simp only [List.mapM_cons, bind_eq_ok_iff, reads value, ih]
      constructor
      · rintro ⟨tree, ⟨first, firstBelow⟩, others, ⟨later, othersBelow⟩, same⟩
        cases same
        exact ⟨⟨tree, first, others, later, rfl⟩, Nat.max_le.2 ⟨firstBelow, othersBelow⟩⟩
      · rintro ⟨⟨tree, first, others, later, same⟩, below⟩
        cases same
        obtain ⟨firstBelow, othersBelow⟩ := Nat.max_le.1 below
        exact ⟨tree, ⟨first, firstBelow⟩, others, ⟨later, othersBelow⟩, rfl⟩

theorem readPartsBy (found : Option Value) (parts : Option (List Tree)) :
    readPartsBy read kind found = .ok parts ↔
      readPartsBy (ofValueWithin none) kind found = .ok parts ∧ depthParts parts ≤ limit := by
  unfold Tree.readPartsBy
  split
  · cases parts <;> simp [depthParts]
  · cases parts <;> simp [depthParts]
  · simp only [some_eq_ok_iff, reads.mapM]
    cases parts <;> simp [depthParts]
  · simp

theorem readSubBy (found : Option Value) (sub : Option Tree) :
    readSubBy read kind found = .ok sub ↔
      readSubBy (ofValueWithin none) kind found = .ok sub ∧ depthSub sub ≤ limit := by
  unfold Tree.readSubBy
  split
  · cases sub <;> simp [depthSub]
  · cases sub <;> simp [depthSub]
  · simp only [some_eq_ok_iff, reads _]
    cases sub <;> simp [depthSub]
  · simp

/-- One more call reads one more level. -/
theorem readNodeBy : ReadsWithin (limit + 1) (readNodeBy read) := by
  intro value tree
  rw [ofValueWithin_none_eq]
  unfold Tree.readNodeBy
  split
  · split
    · simp
    · simp only [bind_eq_ok_iff, reads.readPartsBy, reads.readSubBy]
      constructor
      · rintro ⟨literal, isLiteral, parts, ⟨areParts, partsBelow⟩, sub, ⟨isSub, subBelow⟩, same⟩
        cases same
        refine ⟨⟨literal, isLiteral, parts, areParts, sub, isSub, rfl⟩, ?_⟩
        exact Nat.succ_le_succ (Nat.max_le.2 ⟨partsBelow, subBelow⟩)
      · rintro ⟨⟨literal, isLiteral, parts, areParts, sub, isSub, same⟩, below⟩
        cases same
        obtain ⟨partsBelow, subBelow⟩ := Nat.max_le.1 (Nat.le_of_succ_le_succ below)
        exact ⟨literal, isLiteral, parts, ⟨areParts, partsBelow⟩, sub, ⟨isSub, subBelow⟩, rfl⟩
  · simp

end ReadsWithin

theorem readsWithin_ofValueWithin (limit : Nat) : ReadsWithin limit (ofValueWithin (some limit)) := by
  induction limit with
  | zero =>
      rintro value ⟨kind, literal, parts, sub⟩
      simp [ofValueWithin_zero, depth]
  | succ limit ih => exact ih.readNodeBy

/-- A tree is read within a limit if it is read without one and is not deeper. -/
theorem ofValueWithin_eq_ok_iff {limit : Nat} {value : Value} {tree : Tree} :
    ofValueWithin (some limit) value = .ok tree ↔ ofValue value = .ok tree ∧ tree.depth ≤ limit := by
  rw [readsWithin_ofValueWithin, ofValueWithin_none_eq_ok_iff]

/-- A tree that is deeper than the limit uses it up. -/
theorem ofValueWithin_of_lt {limit : Nat} {value : Value} {tree : Tree} (read : ofValue value = .ok tree)
    (deeper : limit < tree.depth) : ofValueWithin (some limit) value = .error .exhausted := by
  rcases agrees_ofValueWithin (some limit) value with spent | same
  · exact spent
  · rw [ofValueWithin_none_eq_ok_iff.2 read, ofValueWithin_eq_ok_iff] at same
    exact absurd same.2 (Nat.not_le.2 deeper)

-- a node that no call is left for is not looked at, even where it would be rejected
example :
    let value := Value.object [("type", .null), ("parts", .list [.null])]
    ofValueWithin (some 2) value = .error (.malformed (Defect.missingType.report .null)) ∧
      ofValueWithin (some 1) value = .error .exhausted :=
  ⟨rfl, rfl⟩

end RegexAutomaton.Tree
