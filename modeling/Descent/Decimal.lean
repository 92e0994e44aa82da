import Descent.Binary64

/-!
# Decimal numerals

A numeral such as `12.5e-3` is kept exactly, as a whole number of digits and a power of ten.
Rounding it to a binary fraction is a separate step, the last one.
-/

namespace Descent

/-- The number `digits * 10 ^ exponent`. -/
structure Decimal where
  digits : Nat
  exponent : Int
deriving Repr, DecidableEq

namespace Decimal

open Binary64 (tenTo)

/-- The value of a decimal digit; other characters count as zero. -/
def digitValue (c : Char) : Nat :=
  if '0' ≤ c ∧ c ≤ '9' then c.toNat - 48 else 0

/-- The number a row of digits denotes. -/
def ofDigits (row : List Char) : Nat :=
  row.foldl (fun number c => 10 * number + digitValue c) 0

/-- The number of the given whole digits, digits after the point, and power of ten. -/
def ofParts (whole fraction : List Char) (power : Int) : Decimal where
  digits := ofDigits (whole ++ fraction)
  exponent := power - fraction.length

/-- The digits on one side of a point, or a zero where there are none. -/
def orZero (digits : String) : String :=
  if digits.isEmpty then "0" else digits

/-- A numeral is written with digits on both sides of the point and a power of ten, whichever of
them were there. -/
def numeral (whole fraction : String) (power : Int) : String :=
  orZero whole ++ "." ++ orZero fraction ++ "e" ++ toString power

/-- The sign in front of a whole number, as a factor, and what is behind it. -/
def splitSign : List Char → Int × List Char
  | '+' :: row => (1, row)
  | '-' :: row => (-1, row)
  | row => (1, row)

/-- Read the power of ten at the end of a numeral. It may be missing, but not its digits. -/
def readPower? : List Char → Option Int
  | [] => some 0
  | letter :: text =>
    let (direction, row) := splitSign text
    if (letter = 'e' ∨ letter = 'E') ∧ row ≠ [] ∧ row.all Char.isDigit then
      some (direction * ofDigits row)
    else none

/-- The digits behind a point, if there is one, and what is behind them. -/
def splitFraction : List Char → List Char × List Char
  | '.' :: text => text.span Char.isDigit
  | text => ([], text)

/-- Read a numeral without a sign: digits with or without a point, and a power of ten or none. -/
def read? (text : List Char) : Option Decimal :=
  let (whole, behindWhole) := text.span Char.isDigit
  let (fraction, last) := splitFraction behindWhole
  if whole = [] ∧ fraction = [] then none
  else (readPower? last).map (ofParts whole fraction)

/-- How many decimal digits a number has. -/
def length (n : Nat) : Nat :=
  (Nat.toDigits 10 n).length

/-- The quotient that a numeral denotes. -/
def quotient (d : Decimal) : Binary64.Quotient :=
  if d.exponent < 0 then ⟨d.digits, tenTo d.exponent.natAbs⟩
  else ⟨d.digits * tenTo d.exponent.natAbs, 1⟩

/-- The binary fraction nearest to the numeral. Beyond 400 places on either side of the point
the answer is known without computing the power. -/
def toFloat (d : Decimal) : Float :=
  let places := d.exponent + length d.digits
  if d.digits = 0 ∨ places < -400 then Float.ofBits 0
  else if 400 < places then Binary64.infinity
  else Binary64.nearest d.quotient

example : ofParts ['1'] ['2', '5'] (-3) = ⟨125, -5⟩ := by decide
example : numeral "" "25" (-3) = "0.25e-3" := by rfl
example : read? "12.5e-3".toList = some ⟨125, -4⟩ := by decide

end Decimal
end Descent
