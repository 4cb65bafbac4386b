import RegexAutomaton.Text.Printable

/-!
# Quoted texts

A quoted text stands between quotes and shows every character of the text on one line. The quote in use
and the backslash get a backslash, line feed, carriage return and tab a letter, and any other
character that is not printable its number in hexadecimal.
-/

set_option autoImplicit false

namespace RegexAutomaton.Text

/-- Single quotes, unless the text holds some of them and no double ones. -/
def quoteFor (text : List Char) : Char :=
  if '\'' ∈ text ∧ '"' ∉ text then '"' else '\''

def hexadecimal (width number : Nat) : List Char :=
  (Nat.toDigits 16 number).leftpad width '0'

def quotedCharacter (quote character : Char) : List Char :=
  if character = quote ∨ character = '\\' then ['\\', character]
  else if character = '\n' then ['\\', 'n']
  else if character = '\r' then ['\\', 'r']
  else if character = '\t' then ['\\', 't']
  else if isPrintable character then [character]
  else if character.toNat < 0x100 then '\\' :: 'x' :: hexadecimal 2 character.toNat
  else if character.toNat < 0x10000 then '\\' :: 'u' :: hexadecimal 4 character.toNat
  else '\\' :: 'U' :: hexadecimal 8 character.toNat

def quoted (text : String) : String :=
  let quote := quoteFor text.toList
  String.ofList (quote :: text.toList.flatMap (quotedCharacter quote) ++ [quote])

end RegexAutomaton.Text
