import Descent.Failure
import Descent.Input
import Descent.Value.Written

/-!
# Parser states

A state is all that a parser sees and leaves: the value of the last parser, the whole input and
the offset reached in it, the position that belongs to the offset, a value for the grammar's
own use, and the failure if the last parser failed. A failed state keeps its other fields.
-/

namespace Descent

/-- Where a parser starts, and what it leaves. -/
structure State where
  value : Value
  input : Input
  offset : Int := 0
  position : Position := {}
  userState : Value := .null
  error : Option Failure := none

namespace State

/-- Whether the last parser failed. -/
def failed (s : State) : Bool := s.error.isSome

/-- The part of the input that has not been consumed. -/
def remaining (s : State) : Input := s.input.drop s.offset

/-- How far the offset is from the end. Repetition and recursion end because it shrinks. -/
def unread (s : State) : Nat := (s.input.size - s.offset).toNat

/-- The state after a success with the given value. -/
def succeed (s : State) (v : Value) : State := { s with value := v, error := none }

/-- A state with all its fields. -/
def written (s : State) : String :=
  "State(value=" ++ s.value.written ++ ", input=" ++ s.input.toValue.written ++
    ", offset=" ++ toString s.offset ++ ", position=" ++ s.position.written ++
    ", user_state=" ++ s.userState.written ++ ", error=" ++
    (match s.error with
      | none => "None"
      | some f => f.written) ++ ")"

/-- From an offset that is not negative on, what is unread is what remains. -/
theorem size_remaining (s : State) (started : 0 ≤ s.offset) : s.remaining.size = s.unread := by
  obtain ⟨n, same⟩ := Int.eq_ofNat_of_zero_le started
  simp only [remaining, Input.drop, Input.size_extract, unread, same, Input.place_natCast]
  omega

end State
end Descent
