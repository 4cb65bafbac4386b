import RegexAutomaton.Tree.Basic
import RegexAutomaton.Value.Display

/-!
# Trees in messages

How a tree is shown to people: every node with all its fields, on one line.
-/

set_option autoImplicit false

namespace RegexAutomaton.Tree

/-- Parts between parentheses. A single part has a comma after it. -/
def displayTuple : List String → String
  | [part] => "(" ++ part ++ ",)"
  | parts => "(" ++ ", ".intercalate parts ++ ")"

mutual

def display : Tree → String
  | node kind literal parts sub =>
      "SyntaxNode(type=" ++ kind.display ++
        ", symbol=" ++ (match literal with
          | some literal => Text.quoted literal
          | none => "None") ++
        ", parts=" ++ (match parts with
          | some parts => displayTuple (displayAll parts)
          | none => "None") ++
        ", sub=" ++ (match sub with
          | some sub => display sub
          | none => "None") ++ ")"

def displayAll : List Tree → List String
  | [] => []
  | tree :: rest => display tree :: displayAll rest

end

end RegexAutomaton.Tree
