import RegexAutomaton.Regex.Basic
import RegexAutomaton.Tree.Basic
import RegexAutomaton.Tree.Defect

/-!
# The expression that a tree stands for

A tree stands for an expression when its kind is known and the one field that the kind uses is there, and
the same holds of the nodes in that field. The other fields are never looked at. The first defect counts, a
node coming before its parts and a part before the parts after it.
-/

set_option autoImplicit false

namespace RegexAutomaton.Tree

mutual

def regex : Tree → Except StructureError Regex
  | node kind literal parts sub =>
      match Kind.ofValue? kind with
      | none => .error (Defect.unknownKind.report kind)
      | some .empty => .ok .empty
      | some .text =>
          match literal.bind Letter.ofText? with
          | some letter => .ok (.text letter)
          | none => .error (Defect.missingLiteral.report kind)
      | some .alternation =>
          match parts with
          | some (first :: others) => do
              let first ← regex first
              let others ← regexes others
              return .alternation first others
          | _ => .error (Defect.missingParts.report kind)
      | some .sequence =>
          match parts with
          | some (first :: others) => do
              let first ← regex first
              let others ← regexes others
              return .sequence first others
          | _ => .error (Defect.missingParts.report kind)
      | some (.repetition mode) =>
          match sub with
          | some sub => do
              let body ← regex sub
              return .repetition mode body
          | none => .error (Defect.missingSub.report kind)

def regexes : List Tree → Except StructureError (List Regex)
  | [] => .ok []
  | tree :: rest => do
      let first ← regex tree
      let others ← regexes rest
      return first :: others

end

end RegexAutomaton.Tree
