import RegexAutomaton.Tree.Basic
import RegexAutomaton.Tree.Defect

/-!
# Trees and values

A tree is written as an object with a key for each field, and read back from one. Reading stops at the
first defect: a missing type, then the literal, then the parts from left to right, then the sub-node. A
field that is null is absent. The literal stands under `symbol`, or under `text` where there is no `symbol`
at all.

Each node is read by a call inside that for the node above it. Where such calls are limited, reading stops
also at a node that no call is left for, before anything about the node is looked at.
-/

set_option autoImplicit false

namespace RegexAutomaton.Tree

/-- The literal among the entries of a node. A `symbol` that is null hides a `text`. -/
def readLiteral (kind : Value) (entries : List (String × Value)) :
    Except StructureError (Option String) :=
  match (Value.entry? "symbol" entries).or (Value.entry? "text" entries) with
  | none => .ok none
  | some .null => .ok none
  | some (.text literal) => .ok (some literal)
  | some _ => .error (Defect.literalNotText.report kind)

mutual

def ofValue : Value → Except StructureError Tree
  | .object entries =>
      match Value.entry? "type" entries with
      | none => .error (Defect.missingType.report .null)
      | some kind => do
          let literal ← readLiteral kind entries
          let parts ← readParts kind entries
          let sub ← readSub kind entries
          return node kind literal parts sub
  | _ => .error (Defect.missingType.report .null)

def ofValues : List Value → Except StructureError (List Tree)
  | [] => .ok []
  | value :: rest => do
      let tree ← ofValue value
      let trees ← ofValues rest
      return tree :: trees

def readParts (kind : Value) : List (String × Value) → Except StructureError (Option (List Tree))
  | [] => .ok none
  | (key, value) :: rest =>
      if key = "parts" then
        match value with
        | .null => .ok none
        | .list values => do
            let trees ← ofValues values
            return some trees
        | _ => .error (Defect.partsNotList.report kind)
      else readParts kind rest

def readSub (kind : Value) : List (String × Value) → Except StructureError (Option Tree)
  | [] => .ok none
  | (key, value) :: rest =>
      if key = "sub" then
        match value with
        | .null => .ok none
        | .object _ => do
            let tree ← ofValue value
            return some tree
        | _ => .error (Defect.subNotObject.report kind)
      else readSub kind rest

end

/-! ## Reading within a limit -/

inductive ReadError where
  | malformed (error : StructureError)
  | exhausted

section Nodes

variable (read : Value → Except ReadError Tree) (kind : Value)

def readPartsBy : Option Value → Except ReadError (Option (List Tree))
  | none => .ok none
  | some .null => .ok none
  | some (.list values) => do
      let trees ← values.mapM read
      return some trees
  | some _ => .error (.malformed (Defect.partsNotList.report kind))

def readSubBy : Option Value → Except ReadError (Option Tree)
  | none => .ok none
  | some .null => .ok none
  | some (.object entries) => do
      let tree ← read (.object entries)
      return some tree
  | some _ => .error (.malformed (Defect.subNotObject.report kind))

/-- The tree that a value describes, if `read` gives those below its root. -/
def readNodeBy : Value → Except ReadError Tree
  | .object entries =>
      match Value.entry? "type" entries with
      | none => .error (.malformed (Defect.missingType.report .null))
      | some kind => do
          let literal ← (readLiteral kind entries).mapError .malformed
          let parts ← readPartsBy read kind (Value.entry? "parts" entries)
          let sub ← readSubBy read kind (Value.entry? "sub" entries)
          return node kind literal parts sub
  | _ => .error (.malformed (Defect.missingType.report .null))

end Nodes

/-- The tree that a value describes, read by no more than some number of calls inside each other. -/
def ofValueBelow : Nat → Value → Except ReadError Tree
  | 0, _ => .error .exhausted
  | limit + 1, value => readNodeBy (ofValueBelow limit) value

/-- The tree that a value describes, read within a limit. `none` is no limit. -/
def ofValueWithin : Option Nat → Value → Except ReadError Tree
  | none, value => (ofValue value).mapError .malformed
  | some limit, value => ofValueBelow limit value

/-! ## Writing -/

mutual

/-- The object that describes a tree, with all four keys. -/
def toValue : Tree → Value
  | node kind literal parts sub =>
      .object
        [("type", kind),
          ("symbol", match literal with
            | some literal => .text literal
            | none => .null),
          ("parts", match parts with
            | some parts => .list (toValues parts)
            | none => .null),
          ("sub", match sub with
            | some sub => toValue sub
            | none => .null)]

def toValues : List Tree → List Value
  | [] => []
  | tree :: rest => toValue tree :: toValues rest

end

end RegexAutomaton.Tree
