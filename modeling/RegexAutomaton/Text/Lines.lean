/-!
# Lines of a text

A text is cut at every character that breaks a line, not only at line feeds. A carriage return with a
line feed after it is one break. The breaks themselves are dropped, and a break at the end of the text
starts no further line.
-/

set_option autoImplicit false

namespace RegexAutomaton.Text

/-- Whether a character ends a line: line feed, carriage return, vertical tab, form feed, the file,
group and record separators, next line, and the line and paragraph separators. -/
def isLineBreak (character : Char) : Bool :=
  character.toNat ∈ [0x0a, 0x0d, 0x0b, 0x0c, 0x1c, 0x1d, 0x1e, 0x85, 0x2028, 0x2029]

/-- Cuts the rest of a text. The characters of the line under way and the finished lines stand in front
of it, both latest first. -/
def cutLines (line : List Char) (lines : List String) : List Char → List String
  | [] => (if line.isEmpty then lines else String.ofList line.reverse :: lines).reverse
  | '\r' :: '\n' :: rest => cutLines [] (String.ofList line.reverse :: lines) rest
  | character :: rest =>
      if isLineBreak character then cutLines [] (String.ofList line.reverse :: lines) rest
      else cutLines (character :: line) lines rest

def lines (text : String) : List String :=
  cutLines [] [] text.toList

end RegexAutomaton.Text
