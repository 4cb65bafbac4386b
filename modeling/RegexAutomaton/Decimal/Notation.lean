import RegexAutomaton.Decimal.Shortest

/-!
# Floating point numbers in decimal notation

Numbers are written with the fewest digits that identify them: in full when the first digit stands for at
least `10 ^ -4` and less than `10 ^ 16`, with a point and at least one digit after it, and otherwise with
an exponent that has a sign and at least two digits.
-/

set_option autoImplicit false

namespace RegexAutomaton.Decimal

/-- The significant digits of a decimal, and the power of ten its first digit stands for. -/
def Scaled.significant (decimal : Scaled) : List Char × Int :=
  let digits := Nat.toDigits 10 decimal.digits
  let kept := (digits.reverse.dropWhile fun digit => digit == '0').reverse
  (kept, decimal.exponent + digits.length - 1)

def layout (digits : List Char) (power : Int) : List Char :=
  if -4 ≤ power ∧ power < 0 then
    '0' :: '.' :: List.replicate (-power - 1).toNat '0' ++ digits
  else if 0 ≤ power ∧ power < 16 then
    let whole := power.toNat + 1
    let fraction := digits.drop whole
    (digits.take whole).rightpad whole '0' ++ '.' :: if fraction.isEmpty then ['0'] else fraction
  else
    let fraction := digits.drop 1
    let point := if fraction.isEmpty then [] else '.' :: fraction
    let sign := if power < 0 then '-' else '+'
    digits.take 1 ++ point ++ 'e' :: sign :: (Nat.toDigits 10 power.natAbs).leftpad 2 '0'

def Binary.decimalNotation (number : Binary) : List Char :=
  let sign := if number.negative then ['-'] else []
  if number.mantissa = 0 then sign ++ ['0', '.', '0']
  else
    let (digits, power) := number.shortest.significant
    sign ++ layout digits power

structure Names where
  undefined : String
  infinite : String

def text (names : Names) (number : Float) : String :=
  if number.isNaN then names.undefined
  else if number.isInf then (if number < 0 then "-" else "") ++ names.infinite
  else String.ofList (Binary.ofFloat number).decimalNotation

/-- The number nearest to `digits * 10 ^ exponent`, negated if `negative`. A decimal whose first digit stands
for more than `10 ^ 310` is infinite and one below `10 ^ -330` is zero, whatever its digits. -/
def toFloat (negative : Bool) (digits : Nat) (exponent : Int) : Float :=
  let power := exponent + (Nat.toDigits 10 digits).length - 1
  let magnitude : Float :=
    if digits = 0 ∨ power < -330 then 0.0
    else if 310 < power then 1.0 / 0.0
    else Float.ofScientific digits (exponent < 0) exponent.natAbs
  if negative then -magnitude else magnitude

end RegexAutomaton.Decimal
