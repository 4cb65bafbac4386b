import RegexAutomaton.Value.Basic
import RegexAutomaton.Decimal.Notation
import RegexAutomaton.Text.Numeral

/-!
# Reading values

The reader accepts one value with blanks around it and between its parts. A blank is a space, a tab, a line
feed or a carriage return. Numbers without fraction and exponent are integers. The names of the undefined
number and of the two infinite ones are accepted too. A text holds no control character below the blank as
itself. The number of a character beyond the first 65536 may be escaped as a surrogate pair. Where a key is
given several times the last value counts.

Reading stops at the first mistake. Three things stop it that are no mistakes: an integer of more digits than
an integer may have, more lists and objects inside each other than there is room for, and an escape for a half
of a surrogate pair alone, which stands for no character.
-/

set_option autoImplicit false

namespace RegexAutomaton.Value

/-- Why reading a text gives no value. Behind anything but `malformed` the text may be well-formed. -/
inductive ReadError where
  | malformed
  | overlong
  | nested
  | unpaired
deriving DecidableEq, Repr

namespace Reader

def isBlank (character : Char) : Bool :=
  character == ' ' || character == '\t' || character == '\n' || character == '\r'

def skipBlanks (input : List Char) : List Char :=
  input.dropWhile isBlank

/-! ## Texts -/

def hexDigit? (character : Char) : Option Nat :=
  if character.isDigit then some (character.toNat - '0'.toNat)
  else if 'a' ≤ character ∧ character ≤ 'f' then some (character.toNat - 'a'.toNat + 10)
  else if 'A' ≤ character ∧ character ≤ 'F' then some (character.toNat - 'A'.toNat + 10)
  else none

def hexNumber? (first second third fourth : Char) : Option Nat := do
  let first ← hexDigit? first
  let second ← hexDigit? second
  let third ← hexDigit? third
  let fourth ← hexDigit? fourth
  return ((first * 16 + second) * 16 + third) * 16 + fourth

def escaped? : Char → Option Char
  | '"' => some '"'
  | '\\' => some '\\'
  | '/' => some '/'
  | 'b' => some '\x08'
  | 'f' => some '\x0c'
  | 'n' => some '\n'
  | 'r' => some '\r'
  | 't' => some '\t'
  | _ => none

/-- The code numbers of a text up to its closing quote, and what is left behind it. `codes` holds those
before the input, latest first. -/
def codes? (codes : List Nat) : List Char → Option (List Nat × List Char)
  | [] => none
  | '"' :: rest => some (codes.reverse, rest)
  | '\\' :: 'u' :: first :: second :: third :: fourth :: rest =>
      match hexNumber? first second third fourth with
      | some code => codes? (code :: codes) rest
      | none => none
  | '\\' :: letter :: rest =>
      match escaped? letter with
      | some character => codes? (character.toNat :: codes) rest
      | none => none
  | character :: rest =>
      if character.toNat < 0x20 then none else codes? (character.toNat :: codes) rest

def isHighSurrogate (code : Nat) : Bool := 0xd800 ≤ code && code < 0xdc00

def isLowSurrogate (code : Nat) : Bool := 0xdc00 ≤ code && code < 0xe000

/-- Puts the characters with some code numbers behind a text. Surrogates count in pairs only. -/
def decode? (text : String) : List Nat → Option String
  | [] => some text
  | code :: rest =>
      if isHighSurrogate code then
        match rest with
        | low :: rest =>
            if isLowSurrogate low then
              decode? (text.push (Char.ofNat (0x10000 + (code - 0xd800) * 0x400 + (low - 0xdc00)))) rest
            else none
        | [] => none
      else if isLowSurrogate code then none
      else decode? (text.push (Char.ofNat code)) rest

def readText (input : List Char) : Except ReadError (String × List Char) :=
  match codes? [] input with
  | none => .error .malformed
  | some (codes, rest) =>
      match decode? "" codes with
      | none => .error .unpaired
      | some content => .ok (content, rest)

/-! ## Numbers -/

/-- The digits before the fraction: a zero alone, or digits that do not begin with zero. -/
def wholeDigits? : List Char → Option (List Char × List Char)
  | [] => none
  | '0' :: rest => some (['0'], rest)
  | digit :: rest =>
      if digit.isDigit then some (digit :: rest.takeWhile Char.isDigit, rest.dropWhile Char.isDigit)
      else none

def fraction? : List Char → Option (List Char × List Char)
  | '.' :: rest =>
      if (rest.takeWhile Char.isDigit).isEmpty then none
      else some (rest.takeWhile Char.isDigit, rest.dropWhile Char.isDigit)
  | _ => none

def exponentDigits? (negative : Bool) (input : List Char) : Option (Int × List Char) :=
  let digits := input.takeWhile Char.isDigit
  let magnitude : Int := Nat.ofDigitChars 10 digits 0
  if digits.isEmpty then none
  else some (if negative then -magnitude else magnitude, input.dropWhile Char.isDigit)

def exponent? : List Char → Option (Int × List Char)
  | mark :: rest =>
      if mark = 'e' ∨ mark = 'E' then
        match rest with
        | '-' :: rest => exponentDigits? true rest
        | '+' :: rest => exponentDigits? false rest
        | rest => exponentDigits? false rest
      else none
  | [] => none

def readUnsigned (negative : Bool) (input : List Char) : Except ReadError (Value × List Char) :=
  match wholeDigits? input with
  | none => .error .malformed
  | some (whole, rest) =>
      let fraction := fraction? rest
      let (decimals, rest) := fraction.getD ([], rest)
      let exponent := exponent? rest
      let (power, rest) := exponent.getD (0, rest)
      if fraction.isNone && exponent.isNone then
        if Text.maxDigits < whole.length then .error .overlong
        else
          let magnitude : Int := Nat.ofDigitChars 10 whole 0
          .ok (integer (if negative then -magnitude else magnitude), rest)
      else
        let digits := Nat.ofDigitChars 10 (whole ++ decimals) 0
        .ok (real (Decimal.toFloat negative digits (power - decimals.length)), rest)

def readScalar : List Char → Except ReadError (Value × List Char)
  | 'n' :: 'u' :: 'l' :: 'l' :: rest => .ok (null, rest)
  | 't' :: 'r' :: 'u' :: 'e' :: rest => .ok (bool true, rest)
  | 'f' :: 'a' :: 'l' :: 's' :: 'e' :: rest => .ok (bool false, rest)
  | 'N' :: 'a' :: 'N' :: rest => .ok (real (0.0 / 0.0), rest)
  | 'I' :: 'n' :: 'f' :: 'i' :: 'n' :: 'i' :: 't' :: 'y' :: rest => .ok (real (1.0 / 0.0), rest)
  | '-' :: 'I' :: 'n' :: 'f' :: 'i' :: 'n' :: 'i' :: 't' :: 'y' :: rest =>
      .ok (real (-1.0 / 0.0), rest)
  | '-' :: rest => readUnsigned true rest
  | input => readUnsigned false input

/-! ## Values -/

/-- The room inside one more list or object, if there is any. `none` is room without end. -/
def roomInside? : Option Nat → Option (Option Nat)
  | none => some none
  | some 0 => none
  | some (room + 1) => some (some room)

mutual

/-- The value at the beginning of the input, and what is left behind it. The first argument bounds the
number of calls inside each other, the second one is the room for lists and objects. -/
def readValue : Nat → Option Nat → List Char → Except ReadError (Value × List Char)
  | 0, _, _ => .error .malformed
  | limit + 1, room, input =>
      match skipBlanks input with
      | '"' :: rest =>
          match readText rest with
          | .error error => .error error
          | .ok (content, rest) => .ok (text content, rest)
      | '[' :: rest =>
          match roomInside? room with
          | none => .error .nested
          | some room =>
              match skipBlanks rest with
              | ']' :: rest => .ok (list [], rest)
              | _ => readList limit room [] rest
      | '\x7b' :: rest =>
          match roomInside? room with
          | none => .error .nested
          | some room =>
              match skipBlanks rest with
              | '\x7d' :: rest => .ok (object [], rest)
              | _ => readObject limit room [] rest
      | input => readScalar input

/-- The rest of a list, up to its bracket. `done` holds the values before it, latest first. -/
def readList : Nat → Option Nat → List Value → List Char → Except ReadError (Value × List Char)
  | 0, _, _, _ => .error .malformed
  | limit + 1, room, done, input =>
      match readValue limit room input with
      | .error error => .error error
      | .ok (value, rest) =>
          match skipBlanks rest with
          | ',' :: rest => readList limit room (value :: done) rest
          | ']' :: rest => .ok (list (value :: done).reverse, rest)
          | _ => .error .malformed

def readObject : Nat → Option Nat → List (String × Value) → List Char → Except ReadError (Value × List Char)
  | 0, _, _, _ => .error .malformed
  | limit + 1, room, done, input =>
      match skipBlanks input with
      | '"' :: rest =>
          match readText rest with
          | .error error => .error error
          | .ok (key, rest) =>
              match skipBlanks rest with
              | ':' :: rest =>
                  match readValue limit room rest with
                  | .error error => .error error
                  | .ok (value, rest) =>
                      match skipBlanks rest with
                      | ',' :: rest => readObject limit room ((key, value) :: done) rest
                      | '\x7d' :: rest => .ok (object (lastEntries ((key, value) :: done).reverse), rest)
                      | _ => .error .malformed
              | _ => .error .malformed
      | _ => .error .malformed

end

end Reader

/-- The value that a text writes, if there is room for its lists and objects inside each other. Every second
call reads at least one character, which bounds their number. -/
def readWithin (room : Option Nat) (input : String) : Except ReadError Value :=
  match Reader.readValue (2 * input.toList.length + 2) room input.toList with
  | .error error => .error error
  | .ok (value, rest) => if (Reader.skipBlanks rest).isEmpty then .ok value else .error .malformed

def read (input : String) : Except ReadError Value :=
  readWithin none input

end RegexAutomaton.Value
