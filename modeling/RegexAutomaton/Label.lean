/-!
# State labels

States are known by integers of any size and sign. A padded label has a fixed width, so that labels
without a sign stand in the same order as text and as numbers.
-/

set_option autoImplicit false

namespace RegexAutomaton

abbrev Label := Int

namespace Label

def sign (label : Label) : List Char :=
  if label < 0 then ['-'] else []

def magnitude (label : Label) : List Char :=
  Nat.toDigits 10 label.natAbs

def decimal (label : Label) : List Char :=
  label.sign ++ label.magnitude

def text (label : Label) : String :=
  String.ofList label.decimal

/-- The label between parentheses. Zeros after the sign fill it up to the width, which counts the sign. -/
def padded (width : Nat) (label : Label) : String :=
  String.ofList
    ('(' :: label.sign ++ List.replicate (width - label.decimal.length) '0' ++ label.magnitude ++ [')'])

inductive WidthError where
  /-- It is negative, or takes more than 63 bits. -/
  | invalid
  /-- A text of so many characters fits in no memory. -/
  | exhausting
deriving DecidableEq, Repr

def checkWidth (width : Int) : Except WidthError Nat :=
  if width < 0 ∨ Nat.pow 2 63 ≤ width then .error .invalid
  else if Nat.pow 2 40 ≤ width then .error .exhausting
  else .ok width.toNat

def paddedTo (width : Int) (label : Label) : Except WidthError String := do
  let width ← checkWidth width
  return label.padded width

end Label

end RegexAutomaton
