/-!
# Floating point numbers as exact numbers

A finite number is an integer times a power of two. This module decodes one into these two parts, all
further work on it is done on integers.
-/

set_option autoImplicit false

namespace RegexAutomaton.Decimal

/-- The number `mantissa * 2 ^ exponent`, negated if `negative`. -/
structure Binary where
  negative : Bool
  mantissa : Nat
  exponent : Int
  /-- The next number towards zero is only half as far away as the next one away from it. -/
  narrowBelow : Bool
deriving DecidableEq, Repr

def Binary.ofBits (bits : UInt64) : Binary :=
  let negative := bits >>> 63 == 1
  let exponent := ((bits >>> 52) &&& 0x7ff).toNat
  let fraction := (bits &&& 0xfffffffffffff).toNat
  if exponent = 0 then ⟨negative, fraction, -1074, false⟩
  else ⟨negative, Nat.pow 2 52 + fraction, (exponent : Int) - 1075, fraction == 0 && exponent > 1⟩

def Binary.ofFloat (number : Float) : Binary :=
  Binary.ofBits number.toBits

def Binary.isInteger (number : Binary) (integer : Int) : Bool :=
  (integer < 0) == (number.negative && number.mantissa != 0) &&
    integer.natAbs * Nat.pow 2 (-number.exponent).toNat ==
      number.mantissa * Nat.pow 2 number.exponent.toNat

end RegexAutomaton.Decimal
