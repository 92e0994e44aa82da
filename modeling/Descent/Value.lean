import Descent.Binary64

/-!
# Values

A parser's result is a value of one dynamic type, because a grammar described at run time may
produce anything: a character, a number, a list of parts, or nothing at all. This file holds
the type, the truth of a value, and the two comparisons that predicates use: equality, which
takes numbers by what they denote, and the order of numbers, texts, byte strings and lists.
-/

namespace Descent

/-- What parsers produce and carry. `absent` is the result of a parser that succeeded without
producing anything, and differs from the null value. -/
inductive Value where
  | null
  | absent
  | bool (b : Bool)
  | int (n : Int)
  | float (x : Float)
  | text (s : String)
  | bytes (octets : List UInt8)
  | list (items : List Value)
  | tuple (items : List Value)
  | dict (entries : List (Value × Value))

namespace Value

instance : Inhabited Value := ⟨.null⟩

/-- A number as an exact quotient: a truth value counts as zero or one. Infinity and texts are
no quotients. -/
structure Exact where
  numerator : Int
  denominator : Nat

/-- The exact value of a finite binary fraction. -/
def exactFloat (x : Float) : Option Exact :=
  let size := Binary64.size x
  if Binary64.isFinite x then
    some ⟨if Binary64.isNegative x then -(size.numerator : Int) else size.numerator,
      size.denominator⟩
  else none

/-- The exact quotient a value denotes, if it is a number. -/
def quotient? : Value → Option Exact
  | .bool b => some ⟨if b then 1 else 0, 1⟩
  | .int n => some ⟨n, 1⟩
  | .float x => exactFloat x
  | _ => none

/-- Exact quotients are compared by cross-multiplication. -/
def Exact.order (a b : Exact) : Ordering :=
  compare (a.numerator * b.denominator) (b.numerator * a.denominator)

/-- The least whole number that is not below a quotient. -/
def Exact.ceiling (q : Exact) : Int := -(-q.numerator / q.denominator)

/-- Which side an infinite number lies on: above all other numbers or below them. -/
def infiniteSide? : Value → Option Ordering
  | .float x =>
    if Binary64.isInfinite x then some (if Binary64.isNegative x then .lt else .gt) else none
  | _ => none

/-- The order of two numbers. An infinite number lies beyond every other one on its side; a
number that is undefined has no order. -/
def numberOrder? (a b : Value) : Option Ordering :=
  match a.quotient?, b.quotient? with
  | some m, some n => some (m.order n)
  | some _, none => b.infiniteSide?.map Ordering.swap
  | none, some _ => a.infiniteSide?
  | none, none => do
    let left ← a.infiniteSide?
    let right ← b.infiniteSide?
    return if left = right then .eq else left

mutual

/-- Equality of values. Numbers are equal when they denote the same number, sequences when
their items are, and dictionaries when each entry of one has an equal entry in the other. -/
def same : Value → Value → Bool
  | .null, .null => true
  | .absent, .absent => true
  | .text s, .text t => s == t
  | .bytes s, .bytes t => s == t
  | .list xs, .list ys => sameItems xs ys
  | .tuple xs, .tuple ys => sameItems xs ys
  | .dict xs, .dict ys => xs.length == ys.length && includedIn ys xs
  | a, b => numberOrder? a b == some .eq

/-- Equality of two rows of values, item by item. -/
def sameItems : List Value → List Value → Bool
  | [], [] => true
  | x :: xs, y :: ys => same x y && sameItems xs ys
  | _, _ => false

/-- Whether every entry of the second dictionary has an equal one in the first. -/
def includedIn (entries : List (Value × Value)) : List (Value × Value) → Bool
  | [] => true
  | (key, value) :: rest =>
    entries.any (fun entry => same key entry.1 && same value entry.2) && includedIn entries rest

end

/-- The order of two byte strings is that of the first octets that differ. -/
def octetOrder : List UInt8 → List UInt8 → Ordering
  | [], [] => .eq
  | [], _ :: _ => .lt
  | _ :: _, [] => .gt
  | x :: xs, y :: ys => (compare x y).then (octetOrder xs ys)

mutual

/-- The order of two values of one kind: numbers by size, texts by code points, byte strings by
octets, and lists by the first items that differ. Values of other kinds have no order. -/
def order? : Value → Value → Option Ordering
  | .text s, .text t => some (compare s t)
  | .bytes s, .bytes t => some (octetOrder s t)
  | .list xs, .list ys => orderItems? xs ys
  | .tuple xs, .tuple ys => orderItems? xs ys
  | a, b => numberOrder? a b

/-- The order of two rows of values: equal items are passed over, and a row that runs out comes
first. -/
def orderItems? : List Value → List Value → Option Ordering
  | [], [] => some .eq
  | [], _ :: _ => some .lt
  | _ :: _, [] => some .gt
  | x :: xs, y :: ys => if same x y then orderItems? xs ys else order? x y

end

/-- The truth of a value: nothing, zero and whatever is empty are false. -/
def isTrue : Value → Bool
  | .null => false
  | .absent => false
  | .bool b => b
  | .int n => n ≠ 0
  | .float x => !Binary64.isZero x
  | .text s => !s.isEmpty
  | .bytes octets => !octets.isEmpty
  | .list items => !items.isEmpty
  | .tuple items => !items.isEmpty
  | .dict entries => !entries.isEmpty

/-- The items of a list or tuple. -/
def items? : Value → Option (List Value)
  | .list items => some items
  | .tuple items => some items
  | _ => none

/-- The parts one meets in going through a value: the items of a list or tuple, the characters of
a text, the octets of a byte string as numbers, and the keys of a dictionary. -/
def parts? : Value → Option (List Value)
  | .list items => some items
  | .tuple items => some items
  | .text s => some (s.toList.map fun c => .text c.toString)
  | .bytes octets => some (octets.map fun octet => .int octet.toNat)
  | .dict entries => some (entries.map (·.1))
  | _ => none

/-- Whether a value is a number. Truth values count as numbers. -/
def isNumber : Value → Bool
  | .bool _ => true
  | .int _ => true
  | .float _ => true
  | _ => false

/-- The text of a text. -/
def text? : Value → Option String
  | .text s => some s
  | _ => none

/-- The whole number of an integer or of a truth value. -/
def int? : Value → Option Int
  | .int n => some n
  | .bool b => some (if b then 1 else 0)
  | _ => none

mutual

/-- Whether a value can be the key of a dictionary. Lists and dictionaries cannot, nor can tuples
that hold one. -/
def isKey : Value → Bool
  | .list _ => false
  | .dict _ => false
  | .tuple items => areKeys items
  | _ => true

/-- Whether all values of a row can be keys. -/
def areKeys : List Value → Bool
  | [] => true
  | item :: rest => isKey item && areKeys rest

end

/-- Put an entry into a dictionary. A key that is already there keeps its place and takes the
new value. -/
def putEntry (key value : Value) : List (Value × Value) → List (Value × Value)
  | [] => [(key, value)]
  | (known, old) :: rest =>
    if same known key then (known, value) :: rest else (known, old) :: putEntry key value rest

/-- The dictionary with the given entries, later ones replacing earlier ones of the same key. -/
def dictOf (entries : List (Value × Value)) : Value :=
  .dict (entries.foldl (fun built entry => putEntry entry.1 entry.2 built) [])

example : same (.int 1) (.bool true) = true := by decide +kernel
example : order? (.list [.int 1]) (.list [.int 1, .int 0]) = some .lt := by decide +kernel

end Value
end Descent
