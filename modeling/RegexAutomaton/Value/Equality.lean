import RegexAutomaton.Value.Basic
import RegexAutomaton.Decimal.Binary

/-!
# Equal values

Numbers are equal when they are the same number, whatever their kind, and the two truth values count as one
and zero. The order of the entries of an object does not matter. Every value equals itself, an undefined
number included.
-/

set_option autoImplicit false

namespace RegexAutomaton.Value

/-- The integer that a value counts as, if it is no floating point number. -/
def integer? : Value → Option Int
  | bool value => some (if value then 1 else 0)
  | integer value => some value
  | _ => none

def realIsInteger (number : Float) (integer : Int) : Bool :=
  !number.isNaN && !number.isInf && (Decimal.Binary.ofFloat number).isInteger integer

mutual

def same : Value → Value → Bool
  | null, null => true
  | text first, text second => first == second
  | list first, list second => sameList first second
  | object first, object second => first.length == second.length && sameEntries first second
  | real first, real second => first == second || (first.isNaN && second.isNaN)
  | real first, second => second.integer?.any (realIsInteger first)
  | first, real second => first.integer?.any (realIsInteger second)
  | first, second =>
      match first.integer?, second.integer? with
      | some first, some second => first == second
      | _, _ => false

def sameList : List Value → List Value → Bool
  | [], [] => true
  | first :: firsts, second :: seconds => same first second && sameList firsts seconds
  | _, _ => false

/-- Whether every entry of the first object has an equal value under its key in the second. -/
def sameEntries : List (String × Value) → List (String × Value) → Bool
  | [], _ => true
  | (key, first) :: rest, seconds =>
      (match entry? key seconds with
        | some second => same first second
        | none => false) && sameEntries rest seconds

end

end RegexAutomaton.Value
