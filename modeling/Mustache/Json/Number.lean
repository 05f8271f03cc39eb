import Mustache.Number.Format

/-!
# Numbers in documents

A number of a document is a whole number of at most sixty-four bits or a double. A double is
read by scaling: the leading digits that fit an unsigned word, times or over a power of ten,
with a rounding at each step. What would be infinite is no number.
-/

namespace Mustache.Json

/-- A number of a document. -/
inductive Number where
  /-- A whole number. -/
  | integer (value : Int)
  /-- A number with a point or an exponent, or too large to be whole. -/
  | double (value : Binary64)
  deriving Repr, DecidableEq, Inhabited

/-- The parts of a number as it is written. -/
structure Numeral where
  /-- Whether there is a minus sign. -/
  negative : Bool
  /-- The digits before the point. -/
  whole : List Char
  /-- The digits after the point, if there is one. -/
  decimals : Option (List Char)
  /-- Whether the exponent is negative, and its digits, if there is one. -/
  power : Option (Bool × List Char)
  deriving Repr, DecidableEq, Inhabited

/-- The value of a digit. -/
def digitValue (digit : Char) : Nat :=
  digit.toNat - '0'.toNat

/-- The value of a sequence of digits. -/
def digitsValue (digits : List Char) : Nat :=
  digits.foldl (fun value digit => 10 * value + digitValue digit) 0

/-- The value of the leading digits that keep a value below the limit of an unsigned word, and
the digits that are left. -/
def leadingDigits (value : Nat) : List Char → Nat × List Char
  | [] => (value, [])
  | digit :: rest =>
    if 10 * value + digitValue digit < Nat.pow 2 64 then
      leadingDigits (10 * value + digitValue digit) rest
    else (value, digit :: rest)

/-- The largest power of ten by which a number is scaled at once. -/
def maxPower : Nat := 308

/-- A power of ten as a double. -/
def powerOfTen (exponent : Nat) : Binary64 :=
  Binary64.ofNat (Nat.pow 10 exponent)

/-- A double over a power of ten, in steps of at most `maxPower`. -/
def scaledDown (number : Binary64) (exponent : Nat) : Binary64 :=
  if exponent ≤ maxPower then number.div (powerOfTen exponent)
  else if number.isZero then number
  else scaledDown (number.div (powerOfTen maxPower)) (exponent - maxPower)
  termination_by exponent
  decreasing_by simp only [maxPower] at *; omega

/-- A double times or over a power of ten, unless it becomes infinite. -/
def scaled? (number : Binary64) (exponent : Int) : Option Binary64 :=
  if exponent < 0 then some (scaledDown number exponent.natAbs)
  else if exponent.toNat ≤ maxPower then
    let product := number.mul (powerOfTen exponent.toNat)
    if product.isInfinite then none else some product
  else if number.isZero then some number
  else none

namespace Numeral

/-- The value of the exponent. -/
def powerValue (numeral : Numeral) : Int :=
  match numeral.power with
  | none => 0
  | some (true, digits) => -(digitsValue digits : Int)
  | some (false, digits) => digitsValue digits

/-- What is written as a double. -/
def double? (numeral : Numeral) : Option Binary64 :=
  let (wholeValue, dropped) := leadingDigits 0 numeral.whole
  let decimals := numeral.decimals.getD []
  let (value, unread) := leadingDigits wholeValue decimals
  let places : Int := (dropped.length : Int) - ((decimals.length - unread.length : Nat) : Int)
  (scaled? (Binary64.ofNat value) (places + numeral.powerValue)).map fun number =>
    if numeral.negative then number.neg else number

/-- The number that is written, unless it is too large for a double. A negative zero is a
double. -/
def value? (numeral : Numeral) : Option Number :=
  let wholeValue := digitsValue numeral.whole
  let fits :=
    if numeral.negative then 0 < wholeValue ∧ wholeValue ≤ Nat.pow 2 63
    else wholeValue < Nat.pow 2 64
  if numeral.decimals.isNone ∧ numeral.power.isNone ∧ fits then
    some (.integer (if numeral.negative then -(wholeValue : Int) else wholeValue))
  else numeral.double?.map .double

end Numeral

namespace Number

/-- A number as it is written. -/
def write : Number → String
  | .integer value => toString value
  | .double value => NumberFormat.document.write value

/-- Equality of numbers; a whole number and a double are never equal. -/
def same : Number → Number → Bool
  | .integer left, .integer right => left == right
  | .double left, .double right => left.same right
  | _, _ => false

end Number

end Mustache.Json
