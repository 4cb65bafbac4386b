/-!
# Values

The values of a data format with objects, lists, texts, numbers and names: what trees are read from and
what exports are written as. Integers and floating point numbers are different kinds of numbers. The
entries of an object keep their order.
-/

set_option autoImplicit false

namespace RegexAutomaton

inductive Value where
  | null
  | bool (value : Bool)
  | integer (value : Int)
  | real (value : Float)
  | text (value : String)
  | list (values : List Value)
  | object (entries : List (String × Value))
deriving Inhabited

namespace Value

def entry? (key : String) : List (String × Value) → Option Value
  | [] => none
  | (name, value) :: rest => if name = key then some value else entry? key rest

def get? (key : String) : Value → Option Value
  | object entries => entry? key entries
  | _ => none

/-- Sets the value under a key. A key that is there keeps its place, a new one comes last. -/
def setEntry (key : String) (value : Value) : List (String × Value) → List (String × Value)
  | [] => [(key, value)]
  | (name, old) :: rest =>
      if name = key then (name, value) :: rest else (name, old) :: setEntry key value rest

/-- The entries of an object in which a key was given several times: the last value counts, at the first place. -/
def lastEntries (entries : List (String × Value)) : List (String × Value) :=
  entries.foldl (fun done entry => setEntry entry.1 entry.2 done) []

theorem entry?_setEntry (key name : String) (value : Value) (entries : List (String × Value)) :
    entry? name (setEntry key value entries) =
      if key = name then some value else entry? name entries := by
  induction entries with
  | nil => simp [setEntry, entry?]
  | cons entry rest inductionHypothesis =>
      obtain ⟨first, old⟩ := entry
      by_cases here : first = key
      · subst here
        by_cases same : first = name <;> simp [setEntry, entry?, same]
      · by_cases same : first = name
        · subst same
          simp [setEntry, entry?, here, Ne.symm here]
        · simp [setEntry, entry?, here, same, inductionHypothesis]

end Value

end RegexAutomaton
