import RegexAutomaton.Decimal.Binary

/-!
# The shortest decimal of a number

Among the decimals that round to a given binary number, the shortest are those with the fewest digits,
and the best of these lies nearest to the number, or has an even last digit if two lie equally near.
All comparisons are exact.
-/

set_option autoImplicit false

namespace RegexAutomaton.Decimal

/-- The decimal `digits * 10 ^ exponent`. -/
structure Scaled where
  digits : Nat
  exponent : Int
deriving DecidableEq, Repr

def Scaled.compareTo (decimal : Scaled) (mantissa : Nat) (power : Int) : Ordering :=
  compare (decimal.digits * Nat.pow 10 decimal.exponent.toNat * Nat.pow 2 (-power).toNat)
    (mantissa * Nat.pow 2 power.toNat * Nat.pow 10 (-decimal.exponent).toNat)

/-- Whether a decimal lies among the numbers that round to the magnitude of this one. The two ends of that
interval are a quarter of a unit or half a unit away, and belong to it when the mantissa is even. -/
def Binary.readsBack (number : Binary) (decimal : Scaled) : Bool :=
  let below := 4 * number.mantissa - if number.narrowBelow then 1 else 2
  let above := 4 * number.mantissa + 2
  let ends := number.mantissa % 2 == 0
  let lower := decimal.compareTo below (number.exponent - 2)
  let upper := decimal.compareTo above (number.exponent - 2)
  (lower == .gt || (ends && lower == .eq)) && (upper == .lt || (ends && upper == .eq))

/-- The least `scale` for which the magnitude lies below `10 ^ scale`. The binary logarithm gives it up to a
step or two, and exact comparisons settle it. -/
def Binary.scale (number : Binary) : Int :=
  let estimate := ((number.mantissa.log2 : Int) + number.exponent) * 30103 / 100000
  let candidates := [estimate - 1, estimate, estimate + 1, estimate + 2]
  let fits := fun scale => (⟨1, scale⟩ : Scaled).compareTo number.mantissa number.exponent == .gt
  (candidates.find? fits).getD (estimate + 3)

def Binary.neighbours (number : Binary) (exponent : Int) : List Scaled :=
  let above := number.mantissa * Nat.pow 2 number.exponent.toNat * Nat.pow 10 (-exponent).toNat
  let unit := Nat.pow 2 (-number.exponent).toNat * Nat.pow 10 exponent.toNat
  let digits := above / unit
  let low : Scaled := ⟨digits, exponent⟩
  let high : Scaled := ⟨digits + 1, exponent⟩
  match compare (2 * above) ((2 * digits + 1) * unit) with
  | .lt => [low, high]
  | .gt => [high, low]
  | .eq => if digits % 2 = 0 then [low, high] else [high, low]

def Binary.withDigits? (number : Binary) (count : Nat) : Option Scaled :=
  (number.neighbours (number.scale - count)).find? number.readsBack

def Binary.inFull (number : Binary) : Scaled :=
  if 0 ≤ number.exponent then ⟨number.mantissa * Nat.pow 2 number.exponent.toNat, 0⟩
  else ⟨number.mantissa * Nat.pow 5 (-number.exponent).toNat, number.exponent⟩

/-- The shortest decimal of the magnitude of a number other than zero. Seventeen digits are enough. -/
def Binary.shortest (number : Binary) : Scaled :=
  ((List.range 17).findSome? fun count => number.withDigits? (count + 1)).getD number.inFull

end RegexAutomaton.Decimal
