import RegexAutomaton.Value.Basic
import RegexAutomaton.Decimal.Notation
import RegexAutomaton.Text.Quoted

/-!
# Values in messages

How a value is shown to people, on one line: texts in quotes, lists in brackets, objects in braces.
-/

set_option autoImplicit false

namespace RegexAutomaton.Value

def messageNames : Decimal.Names := ⟨"nan", "inf"⟩

mutual

def display : Value → String
  | null => "None"
  | bool value => if value then "True" else "False"
  | integer value => toString value
  | real value => Decimal.text messageNames value
  | text value => Text.quoted value
  | list values => "[" ++ ", ".intercalate (displayList values) ++ "]"
  | object entries => "\x7b" ++ ", ".intercalate (displayEntries entries) ++ "\x7d"

def displayList : List Value → List String
  | [] => []
  | value :: rest => display value :: displayList rest

def displayEntries : List (String × Value) → List String
  | [] => []
  | (key, value) :: rest => (Text.quoted key ++ ": " ++ display value) :: displayEntries rest

end

end RegexAutomaton.Value
