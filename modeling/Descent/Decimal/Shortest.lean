import Descent.Decimal

/-!
# The shortest numeral of a binary fraction

A binary fraction is written with the fewest decimal digits that read back to it. For each
number of digits only two numerals can do so, the nearest below the value and the nearest
above; the first number of digits at which one of them reads back is taken, and of two the
nearer one, with a tie going to the even digit. The layout of those digits, positional or with
a power of ten, is a separate choice.
-/

namespace Descent.Decimal

open Binary64 (Quotient tenTo)

/-- A quotient divided by a power of ten. -/
def scaledDown (q : Quotient) (power : Int) : Quotient :=
  if power < 0 then ⟨q.numerator * tenTo power.natAbs, q.denominator⟩
  else ⟨q.numerator, q.denominator * tenTo power.natAbs⟩

/-- The power of ten of a quotient's leading digit. The first estimate may be one too large. -/
def leadingPower (q : Quotient) : Int :=
  let estimate : Int := (length q.numerator : Int) - length q.denominator
  let scaled := scaledDown q estimate
  if scaled.denominator ≤ scaled.numerator then estimate else estimate - 1

/-- The numerals with the given last place next to a quotient, the nearer one first; a tie goes
to the even digit. -/
def neighbours (q : Quotient) (place : Int) : List Decimal :=
  let scaled := scaledDown q place
  let below := scaled.numerator / scaled.denominator
  let nearest := Binary64.rounded scaled
  let other := if nearest = below then below + 1 else below
  [⟨nearest, place⟩, ⟨other, place⟩]

/-- Whether a numeral rounds to the number of the given bits. -/
def readsBack (bits : Nat) (d : Decimal) : Bool :=
  Binary64.sizeBits d.toFloat == bits

/-- The first numeral that reads back, from `count` digits after the leading one on and for
`steps` more lengths. -/
def searchFrom (bits : Nat) (q : Quotient) (lead : Int) : Nat → Nat → Decimal
  | count, 0 => ⟨0, lead - count⟩
  | count, steps + 1 =>
    match (neighbours q (lead - count)).find? (readsBack bits) with
    | some found => found
    | none => searchFrom bits q lead (count + 1) steps

/-- A numeral without the zeros at its end. At most as many zeros are dropped as are given. -/
def trimZeros : Nat → Decimal → Decimal
  | 0, d => d
  | limit + 1, d =>
    if d.digits ≠ 0 ∧ d.digits % 10 = 0 then
      trimZeros limit ⟨d.digits / 10, d.exponent + 1⟩
    else d

/-- The shortest numeral of a finite binary fraction other than zero, without its sign. -/
def shortest (x : Float) : Decimal :=
  let q := Binary64.size x
  trimZeros 20 (searchFrom (Binary64.sizeBits x) q (leadingPower q) 0 17)

/-- How digits are laid out: positional between the two powers of ten, otherwise with an
exponent of at least the given number of digits. -/
structure Layout where
  lowestPositional : Int
  lowestScientific : Int
  exponentDigits : Nat

/-- Numbers from a ten-thousandth up to ten quadrillion are written positionally. -/
def Layout.standard : Layout where
  lowestPositional := -4
  lowestScientific := 16
  exponentDigits := 2

/-- Zeros in a row. -/
def zeros (count : Nat) : List Char :=
  List.replicate count '0'

/-- The digits of a positive numeral as the layout asks. -/
def Layout.write (layout : Layout) (d : Decimal) : List Char :=
  let row := Nat.toDigits 10 d.digits
  let power := d.exponent + row.length - 1
  if layout.lowestPositional ≤ power ∧ power < layout.lowestScientific then
    if power < 0 then
      ['0', '.'] ++ zeros (power.natAbs - 1) ++ row
    else
      let whole := power.toNat + 1
      if row.length ≤ whole then row ++ zeros (whole - row.length) ++ ['.', '0']
      else row.take whole ++ '.' :: row.drop whole
  else
    let mantissa :=
      match row with
      | [] => []
      | lead :: rest => if rest.isEmpty then [lead] else lead :: '.' :: rest
    let exponent := Nat.toDigits 10 power.natAbs
    mantissa ++ ['e', if power < 0 then '-' else '+']
      ++ zeros (layout.exponentDigits - exponent.length) ++ exponent

/-- A binary fraction as text, with the sign of a negative zero kept. -/
def floatText (x : Float) : String :=
  let sign := if Binary64.isNegative x then ['-'] else []
  if Binary64.isZero x then String.ofList (sign ++ ['0', '.', '0'])
  else if Binary64.isFinite x then
    String.ofList (sign ++ Layout.standard.write (shortest x))
  else if Binary64.sizeBits x = Binary64.infinityBits then
    String.ofList (sign ++ ['i', 'n', 'f'])
  else "nan"

example : String.ofList (Layout.standard.write ⟨125, -2⟩) = "1.25" := by decide
example : String.ofList (Layout.standard.write ⟨1, 16⟩) = "1e+16" := by decide
example : String.ofList (Layout.standard.write ⟨5, -5⟩) = "5e-05" := by decide

end Descent.Decimal
