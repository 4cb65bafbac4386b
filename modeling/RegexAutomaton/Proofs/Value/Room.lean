import RegexAutomaton.Value.Reader

/-!
# Reading within some room

The room for lists and objects inside each other decides only how far reading gets. As long as it does not run out, each
reader does what it does with room without end.
-/

set_option autoImplicit false

namespace RegexAutomaton.Value

namespace Reader

def ValuesAgree (limit : Nat) : Prop :=
  ∀ room input, readValue limit room input = .error .nested ∨ readValue limit room input = readValue limit none input

def ListsAgree (limit : Nat) : Prop :=
  ∀ room done input, readList limit room done input = .error .nested ∨
    readList limit room done input = readList limit none done input

def ObjectsAgree (limit : Nat) : Prop :=
  ∀ room done input, readObject limit room done input = .error .nested ∨
    readObject limit room done input = readObject limit none done input

section Steps

variable {limit : Nat}

theorem ValuesAgree.step (lists : ListsAgree limit) (objects : ObjectsAgree limit) : ValuesAgree (limit + 1) := by
  intro room input
  rw [readValue, readValue]
  split
  · exact .inr rfl
  · cases inside : roomInside? room with
    | none => exact .inl rfl
    | some room =>
        dsimp only [roomInside?]
        split
        · exact .inr rfl
        · exact lists room [] _
  · cases inside : roomInside? room with
    | none => exact .inl rfl
    | some room =>
        dsimp only [roomInside?]
        split
        · exact .inr rfl
        · exact objects room [] _
  · exact .inr rfl

theorem ListsAgree.step (values : ValuesAgree limit) (lists : ListsAgree limit) : ListsAgree (limit + 1) := by
  intro room done input
  rw [readList, readList]
  rcases values room input with spent | same
  · rw [spent]
    exact .inl rfl
  · rw [same]
    split
    · exact .inr rfl
    · split
      · exact lists room _ _
      · exact .inr rfl
      · exact .inr rfl

theorem ObjectsAgree.step (values : ValuesAgree limit) (objects : ObjectsAgree limit) : ObjectsAgree (limit + 1) := by
  intro room done input
  rw [readObject, readObject]
  split
  case h_2 => exact .inr rfl
  split
  · exact .inr rfl
  split
  case h_2 => exact .inr rfl
  rename_i start _
  rcases values room start with spent | same
  · rw [spent]
    exact .inl rfl
  · rw [same]
    split
    · exact .inr rfl
    · split
      · exact objects room _ _
      · exact .inr rfl
      · exact .inr rfl

end Steps

theorem readers_agree (limit : Nat) : ValuesAgree limit ∧ ListsAgree limit ∧ ObjectsAgree limit := by
  induction limit with
  | zero => exact ⟨fun _ _ => .inr rfl, fun _ _ _ => .inr rfl, fun _ _ _ => .inr rfl⟩
  | succ limit ih =>
      obtain ⟨values, lists, objects⟩ := ih
      exact ⟨.step lists objects, .step values lists, .step values objects⟩

end Reader

theorem readWithin_none (input : String) : readWithin none input = read input :=
  rfl

theorem readWithin_eq_or (room : Option Nat) (input : String) :
    readWithin room input = .error .nested ∨ readWithin room input = read input := by
  rw [read, readWithin, readWithin]
  rcases (Reader.readers_agree _).1 room input.toList with spent | same
  · rw [spent]
    exact .inl rfl
  · rw [same]
    exact .inr rfl

-- an empty list needs room too, and what stands behind a list that finds none is not looked at
example : readWithin (some 1) "[[]" = .error .nested ∧ readWithin (some 2) "[[]" = .error .malformed :=
  ⟨rfl, rfl⟩

end RegexAutomaton.Value
