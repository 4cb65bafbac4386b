import RegexAutomaton.Value.Basic
import RegexAutomaton.Decimal.Notation

/-!
# Writing values

Values are written on one line, with a blank after each comma and colon. In texts the quote, the backslash
and the control characters below the blank are escaped, and every other character stands for itself.
-/

set_option autoImplicit false

namespace RegexAutomaton.Value

def writtenNames : Decimal.Names := ⟨"NaN", "Infinity"⟩

def writtenCharacter (character : Char) : List Char :=
  if character = '"' then ['\\', '"']
  else if character = '\\' then ['\\', '\\']
  else if character = '\n' then ['\\', 'n']
  else if character = '\r' then ['\\', 'r']
  else if character = '\t' then ['\\', 't']
  else if character = '\x08' then ['\\', 'b']
  else if character = '\x0c' then ['\\', 'f']
  else if character.toNat < 0x20 then
    '\\' :: 'u' :: (Nat.toDigits 16 character.toNat).leftpad 4 '0'
  else [character]

/-- Writes a text after what has been written. -/
def writeText (written : String) (text : String) : String :=
  (text.toList.foldl (fun written character =>
    (writtenCharacter character).foldl String.push written) (written.push '"')).push '"'

mutual

def write (written : String) : Value → String
  | null => written ++ "null"
  | bool value => written ++ if value then "true" else "false"
  | integer value => written ++ toString value
  | real value => written ++ Decimal.text writtenNames value
  | text value => writeText written value
  | list [] => written ++ "[]"
  | list (value :: rest) => (writeList (write (written.push '[') value) rest).push ']'
  | object [] => written ++ "\x7b\x7d"
  | object ((key, value) :: rest) =>
      (writeEntries (write (writeText (written.push '\x7b') key ++ ": ") value) rest).push '\x7d'

def writeList (written : String) : List Value → String
  | [] => written
  | value :: rest => writeList (write (written ++ ", ") value) rest

def writeEntries (written : String) : List (String × Value) → String
  | [] => written
  | (key, value) :: rest =>
      writeEntries (write (writeText (written ++ ", ") key ++ ": ") value) rest

end

def written (value : Value) : String :=
  value.write ""

end RegexAutomaton.Value
