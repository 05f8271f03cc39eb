import Mustache.Number.Binary64

/-!
# Shortest decimals

The decimal with the fewest digits among those that read back as a given number, and of these
the nearest to it. The reals that read back as a number form an interval around it; on each
decimal grid only the two neighbours of the number need a look.
-/

namespace Mustache

/-- A positive decimal: a whole number times a power of ten. -/
structure Decimal where
  /-- The digits, as a whole number. -/
  significand : Nat
  /-- The exponent of the power of ten. -/
  exponent : Int
  deriving Repr, DecidableEq, Inhabited

/-- Which of two equally near decimals is taken. -/
inductive Tie where
  /-- The one whose last digit is even. -/
  | toEven
  /-- The larger one. -/
  | up
  deriving Repr, DecidableEq, Inhabited

namespace Decimal

/-- The digits of a whole number. -/
def digitsOf (number : Nat) : List Char :=
  Nat.toDigits 10 number

/-- How many digits a whole number has. -/
def digitCount (number : Nat) : Nat :=
  (digitsOf number).length

/-- The least count below `limit` for which a condition holds, or `limit`. -/
def leastBelow (limit : Nat) (condition : Nat → Bool) : Nat :=
  ((List.range limit).find? condition).getD limit

/-- The exponent of the leading digit of a positive fraction. -/
def leadingExponent (numerator denominator : Nat) : Int :=
  if denominator ≤ numerator then (digitCount (numerator / denominator) : Int) - 1
  else -(leastBelow 400 fun places => denominator ≤ numerator * Nat.pow 10 places : Nat)

/-- A decimal without zeros at the end of its digits. -/
def stripZeros (fuel : Nat) (decimal : Decimal) : Decimal :=
  match fuel with
  | 0 => decimal
  | fuel + 1 =>
    if decimal.significand ≠ 0 ∧ decimal.significand % 10 = 0 then
      stripZeros fuel ⟨decimal.significand / 10, decimal.exponent + 1⟩
    else decimal

/-- A fraction over a power of ten, again as a fraction. -/
def scaleDown (numerator denominator : Nat) (exponent : Int) : Nat × Nat :=
  if 0 ≤ exponent then (numerator, denominator * Nat.pow 10 exponent.toNat)
  else (numerator * Nat.pow 10 (-exponent).toNat, denominator)

/-- The reals that read back as a finite number other than zero, as quarters of the unit in
which its significand counts: the lower end, the number itself, the upper end, and whether the
ends belong to them. -/
def readingInterval (number : Binary64) : Nat × Nat × Nat × Bool :=
  let middle := 4 * number.significand
  let lower := if number.fraction = 0 ∧ 1 < number.exponentField then middle - 1 else middle - 2
  (lower, middle, middle + 2, number.significand % 2 == 0)

/-- The neighbour of a number on the grid of a power of ten that reads back as the number, the
nearer one if both do. -/
def onGrid? (tie : Tie) (number : Binary64) (exponent : Int) : Option Nat :=
  let (lower, middle, upper, closed) := readingInterval number
  let unit := number.exponent - 2
  let fraction (quarters : Nat) : Nat × Nat :=
    let (numerator, denominator) := Binary64.scaleDown quarters 1 (-unit)
    scaleDown numerator denominator exponent
  let (lowerNumerator, denominator) := fraction lower
  let (numerator, _) := fraction middle
  let (upperNumerator, _) := fraction upper
  let inside (candidate : Nat) : Bool :=
    if closed then
      lowerNumerator ≤ candidate * denominator && candidate * denominator ≤ upperNumerator
    else lowerNumerator < candidate * denominator && candidate * denominator < upperNumerator
  let floor := numerator / denominator
  let twice := 2 * (numerator % denominator)
  match inside floor, inside (floor + 1) with
  | false, false => none
  | true, false => some floor
  | false, true => some (floor + 1)
  | true, true =>
    if twice < denominator then some floor
    else if twice > denominator then some (floor + 1)
    else
      match tie with
      | .toEven => some (floor + floor % 2)
      | .up => some (floor + 1)

/-- The decimal with the fewest digits that reads back as the size of a finite number other
than zero. Seventeen digits always suffice. -/
def shortest (tie : Tie) (number : Binary64) : Decimal :=
  let (numerator, denominator) := number.ratio
  let leading := leadingExponent numerator denominator
  let grids := (List.range 17).map fun (count : Nat) => leading - (count : Int)
  let found := grids.findSome? fun exponent =>
    (onGrid? tie number exponent).map fun significand => Decimal.mk significand exponent
  stripZeros 20 (found.getD ⟨0, 0⟩)

end Decimal

end Mustache
