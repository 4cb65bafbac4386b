import RegexAutomaton.Repetition
import RegexAutomaton.Value.Basic

/-!
# Syntax trees

The tree of a regular expression as a parser hands it over. A node has a kind, which may be any value, and
up to three fields, of which a well-formed node needs the one that its kind uses. Nothing about a tree is
checked here.
-/

set_option autoImplicit false

namespace RegexAutomaton

inductive Tree where
  | node (kind : Value) (literal : Option String) (parts : Option (List Tree)) (sub : Option Tree)
deriving Inhabited

/-- The kinds of nodes that stand for regular expressions. -/
inductive Kind where
  | empty
  | text
  | alternation
  | sequence
  | repetition (mode : Repetition)
deriving DecidableEq, Repr

namespace Kind

def name : Kind → String
  | empty => "empty"
  | text => "text"
  | alternation => "or"
  | sequence => "cat"
  | repetition .star => "star"
  | repetition .plus => "plus"
  | repetition .optional => "optional"

def ofValue? : Value → Option Kind
  | .text "empty" => some empty
  | .text "text" => some text
  | .text "or" => some alternation
  | .text "cat" => some sequence
  | .text "star" => some (repetition .star)
  | .text "plus" => some (repetition .plus)
  | .text "optional" => some (repetition .optional)
  | _ => none

theorem ofValue?_name (kind : Kind) : ofValue? (.text kind.name) = some kind := by
  cases kind with
  | repetition mode => cases mode <;> rfl
  | _ => rfl

end Kind

namespace Tree

def kind : Tree → Value
  | node kind _ _ _ => kind

def literal : Tree → Option String
  | node _ literal _ _ => literal

def parts : Tree → Option (List Tree)
  | node _ _ parts _ => parts

def sub : Tree → Option Tree
  | node _ _ _ sub => sub

mutual

def size : Tree → Nat
  | node _ _ parts sub => sizeParts parts + sizeSub sub + 1

def sizeAll : List Tree → Nat
  | [] => 0
  | tree :: rest => size tree + sizeAll rest

def sizeParts : Option (List Tree) → Nat
  | none => 0
  | some parts => sizeAll parts

def sizeSub : Option Tree → Nat
  | none => 0
  | some sub => size sub

end

def empty : Tree :=
  node (.text Kind.empty.name) none none none

def text (literal : String) : Tree :=
  node (.text Kind.text.name) (some literal) none none

def alternation (parts : List Tree) : Tree :=
  node (.text Kind.alternation.name) none (some parts) none

def sequence (parts : List Tree) : Tree :=
  node (.text Kind.sequence.name) none (some parts) none

def repetition (mode : Repetition) (sub : Tree) : Tree :=
  node (.text (Kind.repetition mode).name) none none (some sub)

end Tree

end RegexAutomaton
