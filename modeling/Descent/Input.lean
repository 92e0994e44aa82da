import Descent.Position
import Descent.Value

/-!
# Inputs

A parser reads characters, octets, or arbitrary values in a list or a tuple. All kinds of input
share a small interface: how many items there are, the stretch of them between two offsets, the
value of a stretch, and the position after it. Everything else is built on that.

An offset counts items from the start. A negative one counts them from the end, as an index
does; no parser makes an offset negative, but a caller may start at one.
-/

namespace Descent

/-- What is parsed, with constant-time access by offset. -/
inductive Input where
  | text (chars : Array Char)
  | items (values : Array Value)
  | tuple (values : Array Value)
  | bytes (octets : Array UInt8)

/-- Whether a value is the text of a single newline. -/
def Value.isNewline : Value → Bool
  | .text s => s == "\n"
  | _ => false

namespace Input

/-- A text as an input. -/
def ofString (s : String) : Input :=
  .text s.toList.toArray

/-- The number of items. -/
def size : Input → Nat
  | .text chars => chars.size
  | .items values => values.size
  | .tuple values => values.size
  | .bytes octets => octets.size

/-- The items from one place up to another. Past the end there are none. -/
def extract : Input → Nat → Nat → Input
  | .text chars, start, stop => .text (chars.extract start stop)
  | .items values, start, stop => .items (values.extract start stop)
  | .tuple values, start, stop => .tuple (values.extract start stop)
  | .bytes octets, start, stop => .bytes (octets.extract start stop)

/-- The place that an offset stands for. A negative offset counts from the end, and stands for
the first place if it reaches further than that. -/
def place (input : Input) (offset : Int) : Nat :=
  if offset < 0 then (input.size + offset).toNat else offset.toNat

/-- The items from one offset up to another. -/
def slice (input : Input) (start stop : Int) : Input :=
  input.extract (input.place start) (input.place stop)

/-- The items from an offset on. -/
def drop (input : Input) (offset : Int) : Input :=
  input.extract (input.place offset) input.size

/-- The value of an input: a text, a list, a tuple or a byte string. -/
def toValue : Input → Value
  | .text chars => .text (String.ofList chars.toList)
  | .items values => .list values.toList
  | .tuple values => .tuple values.toList
  | .bytes octets => .bytes octets.toList

/-- The size of a stretch is what was asked for, as far as there is input. -/
theorem size_extract (input : Input) (start stop : Nat) :
    (input.extract start stop).size = min stop input.size - start := by
  cases input <;> simp [extract, size]

/-- An offset that is not negative is a place. -/
theorem place_natCast (input : Input) (n : Nat) : input.place n = n := by
  rw [place, if_neg (by omega), Int.toNat_natCast]

/-- Between offsets that are not negative, a slice is a stretch between places. -/
theorem slice_natCast (input : Input) (start stop : Nat) :
    input.slice start stop = input.extract start stop := by
  rw [slice, place_natCast, place_natCast]

end Input

/-- The position after every item of an input. Octets are never newlines. -/
def Position.over (p : Position) : Input → Position
  | .text chars => p.overText chars.toList
  | .items values => values.toList.foldl (fun p v => p.step v.isNewline) p
  | .tuple values => values.toList.foldl (fun p v => p.step v.isNewline) p
  | .bytes octets => octets.toList.foldl (fun p _ => p.step false) p

end Descent
