/-! # Shortest decimals of binary numbers

A binary floating-point number stands for all reals that round to it. Its shortest decimal is, of
the decimals among those reals with the fewest digits, the one nearest to the number itself; of two
equally near ones the even one. Everything is exact arithmetic on natural numbers. -/

namespace ClassLowering

/-- A decimal number `digits * 10 ^ exponent`. -/
structure Decimal where
  digits : Nat
  exponent : Int
  deriving DecidableEq, Repr

namespace Decimal

/-- A positive binary number `significand * 2 ^ exponent`. -/
structure Binary where
  significand : Nat
  exponent : Int
  /-- Whether the gap to the number below is half the gap to the number above. -/
  narrowBelow : Bool
  deriving DecidableEq, Repr

/-- The layout of a binary floating-point format. -/
structure Format where
  /-- Bits of the stored fraction. -/
  fractionBits : Nat
  /-- Bits of the stored exponent. -/
  exponentBits : Nat
  deriving DecidableEq, Repr

/-- Numbers of 32 bits. -/
def Format.single : Format := ⟨23, 8⟩

/-- Numbers of 64 bits. -/
def Format.double : Format := ⟨52, 11⟩

namespace Format

/-- The stored fraction. -/
def fraction (format : Format) (bits : Nat) : Nat := bits % Nat.pow 2 format.fractionBits

/-- The stored exponent. -/
def biasedExponent (format : Format) (bits : Nat) : Nat :=
  bits / Nat.pow 2 format.fractionBits % Nat.pow 2 format.exponentBits

/-- Whether the sign bit is set. -/
def isNegative (format : Format) (bits : Nat) : Bool :=
  bits / Nat.pow 2 (format.fractionBits + format.exponentBits) % 2 == 1

/-- Whether the bits are neither an infinity nor a not-a-number. -/
def isFinite (format : Format) (bits : Nat) : Bool :=
  format.biasedExponent bits != Nat.pow 2 format.exponentBits - 1

/-- The magnitude of a finite number. -/
def magnitude (format : Format) (bits : Nat) : Binary :=
  let fraction := format.fraction bits
  let exponent := format.biasedExponent bits
  let least : Int := 2 - Nat.pow 2 (format.exponentBits - 1) - format.fractionBits
  if exponent = 0 then ⟨fraction, least, false⟩
  else
    ⟨Nat.pow 2 format.fractionBits + fraction, least + exponent - 1, fraction == 0 && 1 < exponent⟩

end Format

/-- Compares `a * 10 ^ i` with `n * 2 ^ j`. -/
def compareScaled (a : Nat) (i : Int) (n : Nat) (j : Int) : Ordering :=
  compare (a * Nat.pow 10 i.toNat * Nat.pow 2 (-j).toNat)
    (n * Nat.pow 2 j.toNat * Nat.pow 10 (-i).toNat)

namespace Binary

/-- Whether a decimal rounds to the number: it is not past halfway to either neighbour, and only
an even significand takes the halfway points themselves. -/
def readsBack (number : Binary) (decimal : Decimal) : Bool :=
  let low := 4 * number.significand - if number.narrowBelow then 1 else 2
  let high := 4 * number.significand + 2
  let closed := number.significand % 2 == 0
  let below := compareScaled decimal.digits decimal.exponent low (number.exponent - 2)
  let above := compareScaled decimal.digits decimal.exponent high (number.exponent - 2)
  (below == .gt || closed && below == .eq) && (above == .lt || closed && above == .eq)

/-- The number in units of `10 ^ unit`, rounded down. -/
def floorAt (number : Binary) (unit : Int) : Nat :=
  number.significand * Nat.pow 2 number.exponent.toNat * Nat.pow 10 (-unit).toNat /
    (Nat.pow 2 (-number.exponent).toNat * Nat.pow 10 unit.toNat)

/-- A power of ten that divides the smallest number of either format with room to spare. -/
def finest : Nat := 400

/-- The greatest `e` with `10 ^ e` not above the number. -/
def scale (number : Binary) : Int :=
  ((toString (number.floorAt (-finest))).length : Int) - 1 - finest

/-- The one of two neighbouring decimals, `digits` units and one more, that is nearer to the
number; of two equally near ones the even one. -/
def nearer (number : Binary) (digits : Nat) (unit : Int) : Decimal :=
  match compareScaled (2 * digits + 1) unit number.significand (number.exponent + 1) with
  | .gt => ⟨digits, unit⟩
  | .lt => ⟨digits + 1, unit⟩
  | .eq => ⟨if digits % 2 = 0 then digits else digits + 1, unit⟩

/-- A decimal in units of `10 ^ unit` that reads back, if there is one. -/
def shortestAt (number : Binary) (unit : Int) : Option Decimal :=
  let digits := number.floorAt unit
  match number.readsBack ⟨digits, unit⟩, number.readsBack ⟨digits + 1, unit⟩ with
  | true, true => some (number.nearer digits unit)
  | true, false => some ⟨digits, unit⟩
  | false, true => some ⟨digits + 1, unit⟩
  | false, false => none

/-- Seventeen digits always read back. -/
def mostDigits : Nat := 17

end Binary

/-- Moves trailing zeros of the digits into the exponent, as long as `count` allows. -/
def strip (decimal : Decimal) : (count : Nat) → Decimal
  | 0 => decimal
  | count + 1 =>
    if decimal.digits ≠ 0 ∧ decimal.digits % 10 = 0 then
      strip ⟨decimal.digits / 10, decimal.exponent + 1⟩ count
    else decimal

/-- The shortest decimal of a positive number. -/
def shortest (number : Binary) : Decimal :=
  let scale := number.scale
  let found := (List.range Binary.mostDigits).findSome? fun (count : Nat) =>
    number.shortestAt (scale - count)
  (found.getD ⟨number.floorAt (-Binary.finest), -Binary.finest⟩).strip (2 * Binary.finest)

end Decimal

end ClassLowering
