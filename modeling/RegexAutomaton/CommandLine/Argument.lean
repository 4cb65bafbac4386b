import RegexAutomaton.Text.DecimalDigit

/-!
# Arguments of the command line

An argument is an option, the sign `--` that ends the options, or an operand. A long option may be
cut short as long as it can be told from the others, and may have its value behind an equals sign. A short
option may have its value, or further short options, right behind its letter; an equals sign right behind the
first letter is left out. Blanks inside an argument, or
the look of a negative number, make it an operand unless it can be taken for an option.
-/

set_option autoImplicit false

namespace RegexAutomaton.CommandLine

inductive Switch where
  | help
  | split
  | closure
  | symbol
  | verbose
deriving DecidableEq, Repr

def Switch.takesValue : Switch → Bool
  | closure => true
  | symbol => true
  | _ => false

def longNames : List (String × Switch) :=
  [("help", .help), ("split", .split), ("closure", .closure), ("symbol", .symbol),
    ("verbose", .verbose)]

def short? : Char → Option Switch
  | 'h' => some .help
  | 's' => some .split
  | 'c' => some .closure
  | 'v' => some .verbose
  | _ => none

inductive Argument where
  | operand (text : String)
  | separator
  /-- An option by its letter, with the characters behind the letter if there are any. The equals sign that
  may stand before them is not one of them, so they may be none at all. -/
  | short (switch : Switch) (attached : Option (List Char))
  | long (switch : Switch) (value : Option String)
  | unknown (text : String)
deriving DecidableEq, Repr

inductive UsageError where
  | ambiguous (text : String)
  | missingValue (switch : Switch)
  | needlessValue (switch : Switch)
  | notInteger (text : String)
  | unrecognized
  | unreadable (name : String)
deriving DecidableEq, Repr

def areDigits (text : List Char) : Bool :=
  !text.isEmpty && text.all fun character => (Text.digitValue? character).isSome

/-- Whether a text looks like a negative number: a dash and digits, which may have a point before or among
them. A line feed may end it. -/
def isNegativeNumber : List Char → Bool
  | '-' :: text =>
      let text := if text.getLast? = some '\n' then text.dropLast else text
      areDigits text ||
        match text.span fun character => character != '.' with
        | (whole, '.' :: fraction) => (whole.isEmpty || areDigits whole) && areDigits fraction
        | _ => false
  | _ => false

def Argument.ofPlain (text : String) : Argument :=
  if isNegativeNumber text.toList || ' ' ∈ text.toList then operand text else unknown text

/-- An argument that begins with two dashes. Its name must be the beginning of just one of the names. -/
def Argument.ofLong? (text : String) (content : List Char) : Except UsageError Argument :=
  let (name, behind) := content.span fun character => character != '='
  let value :=
    match behind with
    | _ :: value => some (String.ofList value)
    | [] => none
  match longNames.filter fun entry => name.isPrefixOf entry.1.toList with
  | [] => .ok (ofPlain text)
  | [(_, switch)] => .ok (long switch value)
  | _ => .error (.ambiguous text)

def attached? : List Char → Option (List Char)
  | [] => none
  | '=' :: text => some text
  | text => some text

def Argument.ofText? (text : String) : Except UsageError Argument :=
  match text.toList with
  | '-' :: '-' :: content => ofLong? text content
  | '-' :: letter :: rest =>
      match short? letter with
      | some switch => .ok (short switch (attached? rest))
      | none => .ok (ofPlain text)
  | _ => .ok (operand text)

/-- What the arguments are taken for. Behind the first separator all are operands. -/
def arguments? : List String → Except UsageError (List Argument)
  | [] => .ok []
  | "--" :: rest => .ok (.separator :: rest.map .operand)
  | text :: rest => do
      let argument ← Argument.ofText? text
      let arguments ← arguments? rest
      return argument :: arguments

end RegexAutomaton.CommandLine
