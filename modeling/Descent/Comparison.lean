import Descent.Fault

/-!
# Comparisons

The six ways to compare two values. Equality is defined on all values, order only on values of
one kind; asking for an order that does not exist is a fault. An undefined number is neither
before nor after any other one.
-/

namespace Descent

/-- A way to compare two values. -/
inductive Comparison where
  | eq
  | ne
  | lt
  | le
  | gt
  | ge
deriving Repr, DecidableEq

namespace Comparison

/-- Whether an order satisfies a comparison. -/
def admits : Comparison → Ordering → Bool
  | eq, o => o == .eq
  | ne, o => o != .eq
  | lt, o => o == .lt
  | le, o => o != .gt
  | gt, o => o == .gt
  | ge, o => o != .lt

/-- Whether a comparison holds between two values. -/
def holds : Comparison → Value → Value → Except Fault Bool
  | eq, v, w => .ok (v.same w)
  | ne, v, w => .ok (!v.same w)
  | comparison, v, w =>
    match v.order? w with
    | some order => .ok (comparison.admits order)
    | none => if v.isNumber && w.isNumber then .ok false else .error .undefined

end Comparison
end Descent
