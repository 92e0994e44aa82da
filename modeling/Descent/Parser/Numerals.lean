import Descent.Decimal
import Descent.Parser.Characters

/-!
# Numerals

Whole numbers in bases up to thirty-six, signed or not, and decimal numbers with a point and a
power of ten. The digits are collected first and read afterwards. What a digit is to the
collector and what it is to the reader differ in one place: the Kelvin sign folds to a small k
and is collected in large bases, but it is no ASCII letter and cannot be read.

How many digits are read at once is a setting of the runtime, as the depth of its calls is. There
may be a limit, usually of 4300 digits, or none, and so every parser that reads numerals is given
one. Bases that are powers of two are exempt from it.
-/

namespace Descent

/-- The value of an ASCII digit or letter in either case. -/
def asciiDigit? (c : Char) : Option Nat :=
  if '0' ≤ c ∧ c ≤ '9' then some (c.toNat - 48)
  else if 'a' ≤ c ∧ c ≤ 'z' then some (c.toNat - 87)
  else if 'A' ≤ c ∧ c ≤ 'Z' then some (c.toNat - 55)
  else none

/-- The number that a row of digits denotes in a base, if all of them are digits of the base. -/
def positional? (base : Nat) (row : List Char) : Option Nat :=
  row.foldlM
    (fun number c =>
      match asciiDigit? c with
      | some d => if d < base then some (number * base + d) else none
      | none => none)
    0

/-- The bases in which there may be any number of digits. -/
def unlimitedBases : List Int := [2, 4, 8, 16, 32]

/-- The limit that a number of digits is beyond, if one is set and it holds in the base. -/
def exceeded? (limit : Option Nat) (base : Int) (count : Nat) : Option Nat :=
  limit.filter fun most => base ∉ unlimitedBases ∧ most < count

/-- The digits of a base that a row begins with. -/
def leadingDigits (base : Nat) (row : List Char) : List Char :=
  row.takeWhile fun c => (asciiDigit? c).any fun digit => digit < base

/-- Read a row of digits. The base is looked at first, then how many digits there are up to one
that is none in the base, and then what they denote. -/
def readNumeral (base : Int) (digits : String) (limit : Option Nat := none) : Except Fault Int :=
  if base < 2 ∨ 36 < base then .error .badBase
  else
    let count := (leadingDigits base.toNat digits.toList).length
    match exceeded? limit base count with
    | some most => .error (.badNumeral base (.long most count))
    | none =>
      match positional? base.toNat digits.toList with
      | some n => .ok n
      | none => .error (.badNumeral base (.stray digits))

/-- Convert a numeral to the binary fraction nearest to it. -/
def readFloat (numeral : String) : Except Fault Float :=
  match Decimal.read? numeral.toList with
  | some d => .ok d.toFloat
  | none => .error .undefined

namespace Parser

/-- A whole number without a sign. -/
def natural (base : Int := 10) (limit : Option Nat := none) : Parser :=
  (text (digit base) (.atLeast 1)).map fun v =>
    match v with
    | .text digits => (readNumeral base digits limit).map .int
    | _ => .error .undefined

/-- A sign, as one or minus one. -/
def sign : Parser :=
  choice (chain (literal "+") [succeed (.int 1)]) [chain (literal "-") [succeed (.int (-1))]]

/-- A sign, or one without any sign. -/
def signOrPlus : Parser :=
  choice sign [succeed (.int 1)]

/-- A number that may have a sign, given the parser of its size. -/
def signed (unsigned : Parser) : Parser :=
  script "signed_natural" do
    let direction ← Script.int signOrPlus
    let size ← Script.int unsigned
    return succeed (.int (direction * size))

/-- A whole number that may have a sign. -/
def integer (base : Int := 10) (limit : Option Nat := none) : Parser :=
  signed (natural base limit)

/-- The number with the given sign and size. The sign of zero is kept. -/
def signedFloat (direction : Int) (size : Float) : Float :=
  if direction < 0 then -size else size

/-- A decimal number, given the conversion of numerals. Digits may be missing on one side of the
point, not on both. -/
def realBy (convert : String → Except Fault Float) (limit : Option Nat := none) : Parser :=
  script "decimal" do
    let direction ← Script.int signOrPlus
    let whole ← Script.text (text digit)
    let point ← Script.parse (optional (literal "."))
    let fraction ← if point.isTrue then Script.text (text digit) else pure ""
    if whole.isEmpty && fraction.isEmpty then return failing
    let power ← Script.int
      (choice (chain (literal "e" .folded) [integer 10 limit]) [succeed (.int 0)])
    let size ← Script.ofExcept (convert (Decimal.numeral whole fraction power))
    return succeed (.float (signedFloat direction size))

/-- A decimal number, as the binary fraction nearest to it. -/
def real (limit : Option Nat := none) : Parser := realBy readFloat limit

end Parser

example : readNumeral 16 "Ff" = .ok 255 := by rfl
example : readNumeral 10 "0012" (some 3) = .error (.badNumeral 10 (.long 3 4)) := by rfl
example : positional? 36 ['\u212a'] = none := by decide

end Descent
