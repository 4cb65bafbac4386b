import RegexAutomaton.Text.DecimalDigit

/-!
# Integers written by people

An integer may have blanks around it, a sign directly before its digits, leading zeros, digits of any
script and single underscores between digits. It has at most 4300 digits.
-/

set_option autoImplicit false

namespace RegexAutomaton.Text

/-- Whether a character may stand around an integer: the blanks of all scripts, without the four
information separators. -/
def isBlank (character : Char) : Bool :=
  let code := character.toNat
  (0x09 ≤ code && code ≤ 0x0d) || (0x2000 ≤ code && code ≤ 0x200a) ||
    code ∈ [0x20, 0x85, 0xa0, 0x1680, 0x2028, 0x2029, 0x202f, 0x205f, 0x3000]

def trimBlanks (text : List Char) : List Char :=
  ((text.dropWhile isBlank).reverse.dropWhile isBlank).reverse

/-- The values of one or more digits, with at most one underscore between two of them. -/
def digitValues? : List Char → Option (List Nat)
  | [] => none
  | [digit] => (digitValue? digit).map fun value => [value]
  | digit :: '_' :: rest => do
      let value ← digitValue? digit
      let values ← digitValues? rest
      return value :: values
  | digit :: rest => do
      let value ← digitValue? digit
      let values ← digitValues? rest
      return value :: values

def maxDigits : Nat := 4300

def natural? (digits : List Char) : Option Nat := do
  let values ← digitValues? digits
  if values.length ≤ maxDigits then
    return values.foldl (fun number value => 10 * number + value) 0
  else none

def integer? (text : String) : Option Int :=
  match trimBlanks text.toList with
  | '-' :: digits => (natural? digits).map fun number => -(number : Int)
  | '+' :: digits => (natural? digits).map fun number => (number : Int)
  | digits => (natural? digits).map fun number => (number : Int)

end RegexAutomaton.Text
