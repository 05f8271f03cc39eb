import Mustache.Number.Shortest

/-!
# Written numbers

How a double precision number is written: which of them are written with an exponent, whether
a whole number keeps a point, and which digits are taken when two decimals are equally near.
Each such choice is a `NumberFormat`.
-/

namespace Mustache

/-- How double precision numbers are written. -/
structure NumberFormat where
  /-- The exponents of the leading digit at which no exponent is written; all, if missing. -/
  plainExponents : Option (Int × Int)
  /-- Whether a number without decimals is written with a zero after a point. -/
  keepsPoint : Bool
  /-- Whether a positive exponent is written with its sign. -/
  showsPlus : Bool
  /-- Which of two equally near decimals is written. -/
  tie : Tie

namespace NumberFormat

/-- Numbers in documents: the exponents from -5 to 15 are not written, a point is kept, a half
goes to the even digit. -/
def document : NumberFormat := ⟨some (-5, 15), true, true, .toEven⟩

/-- Numbers in output: an exponent is never written, nor is a point without need. -/
def output : NumberFormat := ⟨none, false, false, .up⟩

/-- Numbers shown for inspection: the exponents from -4 to 15 are not written, a point is
kept. -/
def inspection : NumberFormat := ⟨some (-4, 15), true, false, .up⟩

/-- Digits with a point and without an exponent. -/
def plain (format : NumberFormat) (digits : List Char) (exponent : Int) : List Char :=
  if 0 ≤ exponent then
    digits ++ List.replicate exponent.toNat '0' ++ (if format.keepsPoint then ['.', '0'] else [])
  else
    let decimals := (-exponent).toNat
    if decimals < digits.length then
      digits.take (digits.length - decimals) ++ '.' :: digits.drop (digits.length - decimals)
    else ['0', '.'] ++ List.replicate (decimals - digits.length) '0' ++ digits

/-- Digits with a point after the first one, and the exponent of the first one. -/
def scientific (format : NumberFormat) (digits : List Char) (leading : Int) : List Char :=
  let decimals := digits.drop 1
  let point := if decimals.isEmpty then [] else '.' :: decimals
  let sign := if leading < 0 then ['-'] else if format.showsPlus then ['+'] else []
  digits.take 1 ++ point ++ 'e' :: sign ++ Decimal.digitsOf leading.natAbs

/-- A decimal without its sign. -/
def magnitude (format : NumberFormat) (decimal : Decimal) : List Char :=
  let digits := Decimal.digitsOf decimal.significand
  let leading := decimal.exponent + (digits.length : Int) - 1
  match format.plainExponents with
  | none => format.plain digits decimal.exponent
  | some (low, high) =>
    if low ≤ leading ∧ leading ≤ high then format.plain digits decimal.exponent
    else format.scientific digits leading

/-- A number as it is written. -/
def write (format : NumberFormat) (number : Binary64) : String :=
  if number.isNaN then "NaN"
  else
    let sign := if number.isNegative then ['-'] else []
    let size :=
      if number.isInfinite then ['i', 'n', 'f']
      else if number.isZero then format.magnitude ⟨0, 0⟩
      else format.magnitude (Decimal.shortest format.tie number)
    String.ofList (sign ++ size)

end NumberFormat

end Mustache
