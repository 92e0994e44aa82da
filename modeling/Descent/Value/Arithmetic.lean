import Descent.Decimal
import Descent.Fault

/-!
# Arithmetic on values

Two whole numbers are computed with exactly. As soon as one of two numbers is a binary fraction
the other becomes one too, and the result is rounded. What is no number cannot be computed with.
-/

namespace Descent.Value

/-- A number as a binary fraction; whole numbers that are too large have none. -/
def fraction? : Value → Option Float
  | .float x => some x
  | v => do
    let n ← v.int?
    let size := (Decimal.mk n.natAbs 0).toFloat
    if Binary64.isFinite size then some (if n < 0 then -size else size) else none

/-- Compute with two numbers: exactly if both are whole, otherwise with binary fractions. -/
def arithmetic (whole : Int → Int → Int) (fractional : Float → Float → Float) (v w : Value) :
    Except Fault Value :=
  match v.int?, w.int? with
  | some m, some n => .ok (.int (whole m n))
  | _, _ =>
    match v.fraction?, w.fraction? with
    | some x, some y => .ok (.float (fractional x y))
    | _, _ => .error .undefined

/-- The sum of two numbers. -/
def plus (v w : Value) : Except Fault Value := arithmetic (· + ·) (· + ·) v w

/-- The difference of two numbers. -/
def minus (v w : Value) : Except Fault Value := arithmetic (· - ·) (· - ·) v w

/-- The product of two numbers. -/
def times (v w : Value) : Except Fault Value := arithmetic (· * ·) (· * ·) v w

end Descent.Value
