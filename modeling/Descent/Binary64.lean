/-!
# Binary fractions of 64 bits

A floating-point number is a sign, an exponent and a fraction. This file takes one apart into an
exact quotient of whole numbers and, the other way, rounds a quotient to the nearest one: to 53
binary digits, or fewer at the lower end of the range, with a tie going to the even neighbour
and what is too large becoming infinite. All of it is done in whole numbers, so that nothing is
lost before the one rounding.
-/

namespace Descent.Binary64

/-- A power of two. -/
def twoTo (n : Nat) : Nat := Nat.pow 2 n

/-- A power of ten. -/
def tenTo (n : Nat) : Nat := Nat.pow 10 n

/-- A quotient of whole numbers. -/
structure Quotient where
  numerator : Nat
  denominator : Nat

/-- Whether the sign is negative; zero has a sign too. -/
def isNegative (x : Float) : Bool := x.toBits.toNat / twoTo 63 == 1

/-- The bits without the sign. -/
def sizeBits (x : Float) : Nat := x.toBits.toNat % twoTo 63

/-- The bits of infinity. Those of every finite number are smaller. -/
def infinityBits : Nat := 0x7FF * twoTo 52

/-- Infinity. -/
def infinity : Float := Float.ofBits infinityBits.toUInt64

/-- Whether a number is neither infinite nor undefined. -/
def isFinite (x : Float) : Bool := sizeBits x < infinityBits

/-- Whether a number is infinite on either side. -/
def isInfinite (x : Float) : Bool := sizeBits x == infinityBits

/-- Whether a number is zero of either sign. -/
def isZero (x : Float) : Bool := sizeBits x == 0

/-- The exact size of a finite number. -/
def size (x : Float) : Quotient :=
  let exponent := sizeBits x / twoTo 52
  let fraction := sizeBits x % twoTo 52
  if exponent = 0 then ⟨fraction, twoTo 1074⟩
  else if exponent < 1075 then ⟨twoTo 52 + fraction, twoTo (1075 - exponent)⟩
  else ⟨(twoTo 52 + fraction) * twoTo (exponent - 1075), 1⟩

/-- The quotient rounded to the nearest whole number, a tie to the even one. -/
def rounded (q : Quotient) : Nat :=
  let whole := q.numerator / q.denominator
  let twice := 2 * (q.numerator % q.denominator)
  if twice < q.denominator then whole
  else if q.denominator < twice then whole + 1
  else whole + whole % 2

/-- How many binary digits a number has. -/
def bitLength (n : Nat) : Nat :=
  if n = 0 then 0 else n.log2 + 1

/-- A quotient divided by a power of two. -/
def halved (q : Quotient) (power : Int) : Quotient :=
  if power < 0 then ⟨q.numerator * twoTo power.natAbs, q.denominator⟩
  else ⟨q.numerator, q.denominator * twoTo power.natAbs⟩

/-- The power of two that leaves 53 binary digits before the point of a quotient, but never one
below the smallest of the format. The first estimate may be one too small. -/
def scale (q : Quotient) : Int :=
  let estimate : Int := (bitLength q.numerator : Int) - bitLength q.denominator - 53
  let scaled := halved q estimate
  let exceeded : Bool := twoTo 53 * scaled.denominator ≤ scaled.numerator
  max (-1074) (if exceeded then estimate + 1 else estimate)

/-- The bits of the number nearest to a positive quotient. A mantissa that rounds up to the next
power of two carries into the exponent by addition. -/
def nearestBits (q : Quotient) : Nat :=
  let power := scale q
  let bits := (power + 1074).toNat * twoTo 52 + rounded (halved q power)
  min bits infinityBits

/-- The number nearest to a positive quotient. -/
def nearest (q : Quotient) : Float := Float.ofBits (nearestBits q).toUInt64

example : nearestBits ⟨1, 1⟩ = 0x3FF0000000000000 := by decide
example : nearestBits ⟨1, 10⟩ = 0x3FB999999999999A := by decide

end Descent.Binary64
