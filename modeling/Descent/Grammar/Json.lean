import Descent.Parse
import Descent.Parser.Numerals
import Descent.Parser.Recursion

/-!
# JSON

A JSON text is one value with blanks around it. Objects become dictionaries, in which a key
that comes again replaces the value but keeps its place. Strings are read leniently: a backslash
that starts no complete escape stands for itself, and an escape of an unknown letter is that
letter.
-/

namespace Descent.Grammar.Json

open Descent.Parser

/-- What the letter of a short escape stands for. An unknown letter stands for itself. -/
def unescaped (s : String) : String :=
  if s = "b" then "\x08"
  else if s = "f" then "\x0c"
  else if s = "n" then "\n"
  else if s = "r" then "\r"
  else if s = "t" then "\t"
  else s

/-- The character of a code point. One half of a surrogate pair is no character and cannot stand in
a text here; the replacement character stands in its place. Beyond the last code point there is
nothing. -/
def charOf (code : Int) : Except Fault Char :=
  if code < 0 ∨ 0x10FFFF < code then .error .undefined
  else .ok (if code.toNat.isValidChar then Char.ofNat code.toNat else '\ufffd')

/-- Four hexadecimal digits, as the character they name. In base sixteen there is no limit to the
digits. -/
def unicodeHex : Parser :=
  ((digit 16).collect (.exactly 4)).map fun v => do
    let digits ← joinTexts (v.items?.getD [])
    let code ← readNumeral 16 digits
    let c ← charOf code
    return .text c.toString

/-- A character written with a backslash. -/
def escaped : Parser :=
  script "escape" do
    let _ ← Script.parse (literal "\\")
    let letter ← Script.text token
    if letter = "u" then return unicodeHex
    return succeed (.text (unescaped letter))

/-- A text between double quotes. -/
def string : Parser :=
  between (literal "\"") (label (literal "\"") "closing double-quote")
    (text (choice escaped [noneOf "\"" []]))

/-- One of the two truth values. -/
def boolean : Parser :=
  (label (choice (literal "true") [literal "false"]) "boolean").map fun v =>
    .ok (.bool (v.same (.text "true")))

/-- The null value. -/
def null : Parser :=
  label (choice (chain (literal "null") [succeed .null]) []) "null"

/-- A comma between two items. -/
def comma : Parser := trim (literal ",")

/-- A key and its value. -/
def member (value : Parser) : Parser :=
  script "key_and_value" do
    let key ← Script.parse string
    let _ ← Script.parse (trim (literal ":"))
    let val ← Script.parse value
    return succeed (.tuple [key, val])

/-- The pair that a tuple of two is. -/
def pair? : Value → Option (Value × Value)
  | .tuple [key, val] => some (key, val)
  | _ => none

/-- The dictionary of a list of pairs. -/
def dictionary (v : Value) : Except Fault Value :=
  match (v.items?.getD []).mapM pair? with
  | some entries => .ok (Value.dictOf entries)
  | none => .error .undefined

/-- An object: members between braces. -/
def object (value : Parser) : Parser :=
  (between (trim (literal "\x7b")) (trim (literal "\x7d"))
    (split (member value) comma)).map dictionary

/-- An array: values between brackets. -/
def array (value : Parser) : Parser :=
  between (trim (literal "[")) (trim (literal "]")) (split value comma)

/-- Any value with blanks around it, given the parser of the values inside it. -/
def valueOver (limit : Option Nat) (value : Parser) : Parser :=
  trim (choice (object value) [array value, boolean, null, string, real limit])

/-- Any value with blanks around it. -/
def value (limit : Option Nat := none) : Parser := recursive (valueOver limit)

/-- The value of a whole text. -/
def parse (input : Input) (limit : Option Nat := none) : Run Value :=
  parseValue (value limit) input

end Descent.Grammar.Json
