import RegexAutomaton.Tree.Basic
import RegexAutomaton.Value.Equality

/-!
# Equal trees

Trees are equal when their kinds are equal values and their fields are equal. A field that is absent equals
nothing but an absent field.
-/

set_option autoImplicit false

namespace RegexAutomaton.Tree

mutual

def same : Tree → Tree → Bool
  | node kind literal parts sub, node kind' literal' parts' sub' =>
      kind.same kind' && literal == literal' &&
        (match parts, parts' with
          | none, none => true
          | some parts, some parts' => sameAll parts parts'
          | _, _ => false) &&
        (match sub, sub' with
          | none, none => true
          | some sub, some sub' => same sub sub'
          | _, _ => false)

def sameAll : List Tree → List Tree → Bool
  | [], [] => true
  | tree :: rest, tree' :: rest' => same tree tree' && sameAll rest rest'
  | _, _ => false

end

end RegexAutomaton.Tree
