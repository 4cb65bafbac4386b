import RegexAutomaton.Value.Display

/-!
# What is wrong with a tree

A structure error names what is wrong with a node, the kind of that node, and the field to blame if there is
one. Its text takes one line whatever the kind is.
-/

set_option autoImplicit false

namespace RegexAutomaton

structure StructureError where
  summary : String
  /-- The kind of the offending node, or null where the node has none. -/
  nodeType : Value
  /-- The field to blame, mostly by its key. -/
  field : Option Value
deriving Inhabited

def StructureError.text (error : StructureError) : String :=
  match error.field with
  | none => error.summary ++ ": " ++ error.nodeType.display
  | some field =>
      error.summary ++ ". Node " ++ error.nodeType.display ++ " requires " ++ field.display

/-- What can be wrong with a node. The first four are found while a tree is read, the others when it is taken
for a regular expression. -/
inductive Defect where
  | missingType
  | literalNotText
  | partsNotList
  | subNotObject
  | unknownKind
  | missingLiteral
  | missingParts
  | missingSub
deriving DecidableEq, Repr

namespace Defect

def summary : Defect → String
  | missingType => "Missing node type"
  | literalNotText => "Literal is not a string"
  | partsNotList => "Sub-nodes are not a list"
  | subNotObject => "Sub-node is not a mapping"
  | unknownKind => "Unrecognized node kind"
  | missingLiteral => "Missing literal"
  | missingParts => "Missing sub-nodes"
  | missingSub => "Missing sub-node"

def field? : Defect → Option String
  | missingType => some "type"
  | literalNotText => some "symbol"
  | partsNotList => some "parts"
  | subNotObject => some "sub"
  | unknownKind => none
  | missingLiteral => some "symbol"
  | missingParts => some "parts"
  | missingSub => some "sub"

def report (defect : Defect) (nodeType : Value) : StructureError :=
  ⟨defect.summary, nodeType, defect.field?.map .text⟩

end Defect

end RegexAutomaton
