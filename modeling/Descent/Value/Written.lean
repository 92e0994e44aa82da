import Descent.Decimal.Shortest
import Descent.Text.Quoted
import Descent.Value

/-!
# Values in messages

A value that turns up in a message is written on one line: texts and byte strings quoted,
numbers in decimal, lists in brackets, tuples in parentheses and dictionaries in braces. A
tuple of one item keeps a comma, so that it differs from a parenthesised item.
-/

namespace Descent.Value

/-- One octet between the quotes of a written byte string. -/
def escapeOctet (mark : Char) (octet : UInt8) : List Char :=
  let c := Char.ofNat octet.toNat
  if 0x80 ≤ octet.toNat then '\\' :: 'x' :: Text.hexDigits 2 octet.toNat
  else Text.escapeChar mark c

/-- A byte string between quotes, with what is not printable ASCII escaped. -/
def quoteOctets (octets : List UInt8) : String :=
  let mark := Text.quoteMark (octets.map fun octet => Char.ofNat octet.toNat)
  String.ofList ('b' :: mark :: octets.flatMap (escapeOctet mark) ++ [mark])

mutual

/-- A value as it is written inside a message. -/
def written : Value → String
  | .null => "None"
  | .absent => "NO_VALUE"
  | .bool true => "True"
  | .bool false => "False"
  | .int n => toString n
  | .float x => Decimal.floatText x
  | .text s => Text.quote s
  | .bytes octets => quoteOctets octets
  | .list items => "[" ++ ", ".intercalate (writtenItems items) ++ "]"
  | .tuple [item] => "(" ++ written item ++ ",)"
  | .tuple items => "(" ++ ", ".intercalate (writtenItems items) ++ ")"
  | .dict entries => "\x7b" ++ ", ".intercalate (writtenEntries entries) ++ "\x7d"

/-- The written forms of a row of values. -/
def writtenItems : List Value → List String
  | [] => []
  | item :: rest => written item :: writtenItems rest

/-- The written forms of the entries of a dictionary. -/
def writtenEntries : List (Value × Value) → List String
  | [] => []
  | (key, value) :: rest => (written key ++ ": " ++ written value) :: writtenEntries rest

end

/-- A value as it is shown by itself: a text without quotes, any other value as written. -/
def shown : Value → String
  | .text s => s
  | v => written v

example : written (.list [.int 1, .text "a"]) = "[1, 'a']" := by decide +kernel
example : written (.tuple [.int 1]) = "(1,)" := by decide +kernel

end Descent.Value
