/-!
# Double precision numbers

A double precision number is kept as its sixty-four bits, and what it stands for is worked out
in exact arithmetic: a significand times a power of two. `Binary64.ofRatio` goes the other way
and takes the number nearest to a fraction, of two equally near ones the one with the even
significand.
-/

namespace Mustache

/-- A double precision number, by its bits. -/
structure Binary64 where
  /-- Sign, exponent and fraction, from the highest bit down. -/
  bits : UInt64
  deriving Repr, DecidableEq, Inhabited

namespace Binary64

/-- Whether the sign bit is set. -/
def isNegative (number : Binary64) : Bool :=
  number.bits.toNat ≥ Nat.pow 2 63

/-- The eleven bits of the exponent. -/
def exponentField (number : Binary64) : Nat :=
  number.bits.toNat / Nat.pow 2 52 % Nat.pow 2 11

/-- The fifty-two bits of the fraction. -/
def fraction (number : Binary64) : Nat :=
  number.bits.toNat % Nat.pow 2 52

/-- Whether a number is infinite. -/
def isInfinite (number : Binary64) : Bool :=
  number.exponentField == 2047 && number.fraction == 0

/-- Whether the bits stand for no number. -/
def isNaN (number : Binary64) : Bool :=
  number.exponentField == 2047 && number.fraction != 0

/-- Whether a number is neither infinite nor missing. -/
def isFinite (number : Binary64) : Bool :=
  number.exponentField != 2047

/-- Whether a number is one of the two zeros. -/
def isZero (number : Binary64) : Bool :=
  number.exponentField == 0 && number.fraction == 0

/-- The whole number that a finite number is a power of two times of. -/
def significand (number : Binary64) : Nat :=
  if number.exponentField = 0 then number.fraction else Nat.pow 2 52 + number.fraction

/-- The exponent of that power of two. -/
def exponent (number : Binary64) : Int :=
  if number.exponentField = 0 then -1074 else (number.exponentField : Int) - 1075

/-- The size of a finite number as a fraction. -/
def ratio (number : Binary64) : Nat × Nat :=
  if 0 ≤ number.exponent then (number.significand * Nat.pow 2 number.exponent.toNat, 1)
  else (number.significand, Nat.pow 2 (-number.exponent).toNat)

/-- A number with the sign bit set as asked. -/
def withSign (negative : Bool) (magnitude : Nat) : Binary64 :=
  ⟨UInt64.ofNat (if negative then Nat.pow 2 63 + magnitude else magnitude)⟩

/-- The whole number nearest to a fraction, of two the even one. -/
def roundToEven (numerator denominator : Nat) : Nat :=
  let floor := numerator / denominator
  let twice := 2 * (numerator % denominator)
  if twice < denominator then floor
  else if twice > denominator then floor + 1
  else floor + floor % 2

/-- A fraction over a power of two, again as a fraction. -/
def scaleDown (numerator denominator : Nat) (exponent : Int) : Nat × Nat :=
  if 0 ≤ exponent then (numerator, denominator * Nat.pow 2 exponent.toNat)
  else (numerator * Nat.pow 2 (-exponent).toNat, denominator)

/-- The bits of the infinities, without the sign. -/
def infinityMagnitude : Nat := 2047 * Nat.pow 2 52

/-- The number nearest to a fraction with a sign. What is too large becomes infinite. -/
def ofRatio (negative : Bool) (numerator denominator : Nat) : Binary64 :=
  if numerator = 0 then withSign negative 0
  else
    let estimate : Int := (Nat.log2 numerator : Int) - (Nat.log2 denominator : Int) - 53
    let (trialNumerator, trialDenominator) := scaleDown numerator denominator estimate
    let normal :=
      if trialNumerator / trialDenominator < Nat.pow 2 53 then estimate else estimate + 1
    let exponent := max normal (-1074)
    let (scaledNumerator, scaledDenominator) := scaleDown numerator denominator exponent
    let significand := roundToEven scaledNumerator scaledDenominator
    let magnitude := (exponent + 1074).toNat * Nat.pow 2 52 + significand
    withSign negative (min magnitude infinityMagnitude)

/-- The number nearest to a whole number. -/
def ofNat (number : Nat) : Binary64 :=
  ofRatio false number 1

/-- A number with the other sign. -/
def neg (number : Binary64) : Binary64 :=
  withSign (! number.isNegative) (number.bits.toNat % Nat.pow 2 63)

/-- The product of two finite numbers of positive sign. -/
def mul (left right : Binary64) : Binary64 :=
  let (leftNumerator, leftDenominator) := left.ratio
  let (rightNumerator, rightDenominator) := right.ratio
  ofRatio false (leftNumerator * rightNumerator) (leftDenominator * rightDenominator)

/-- The quotient of two finite numbers of positive sign, the second not zero. -/
def div (left right : Binary64) : Binary64 :=
  let (leftNumerator, leftDenominator) := left.ratio
  let (rightNumerator, rightDenominator) := right.ratio
  ofRatio false (leftNumerator * rightDenominator) (leftDenominator * rightNumerator)

/-- Equality of what the bits stand for: the zeros are equal, and what is no number equals
nothing. -/
def same (left right : Binary64) : Bool :=
  ! left.isNaN && ! right.isNaN && (left.bits == right.bits || (left.isZero && right.isZero))

end Binary64

end Mustache
