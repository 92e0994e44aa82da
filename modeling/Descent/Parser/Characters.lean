import Descent.Parser.Repetition
import Descent.Text.Lowercase

/-!
# Parsers of characters and texts

Literals are matched one item at a time. Matching without regard to case folds the wanted text
as a whole but each item of the input by itself, so a wanted text whose folding depends on its
neighbours may refuse what looks the same.

What counts as a letter or a blank is ASCII; a digit is whatever has a digit or an ASCII letter
as its small form, up to the base.
-/

namespace Descent

/-- Whether letters that differ in case only are told apart. -/
inductive Casing where
  | exact
  | folded
deriving Repr, DecidableEq

namespace Casing

/-- The text that is matched when another one is wanted. -/
def target : Casing → String → String
  | exact, wanted => wanted
  | folded, wanted => Text.lowercase wanted

/-- Whether an item of the input is the expected character. Only texts and octets have a case
to fold. -/
def admits : Casing → Char → Value → Except Fault Bool
  | exact, expected, item => .ok (item.same (.text expected.toString))
  | folded, expected, .text s => .ok (Text.lowercase s == expected.toString)
  | folded, _, .bytes _ => .ok false
  | folded, _, _ => .error .undefined

end Casing

/-- The texts of a row of values put together. -/
def joinTexts (values : List Value) : Except Fault String :=
  match values.mapM Value.text? with
  | some texts => .ok (String.join texts)
  | none => .error .notTexts

/-- The digits of all bases in order. -/
def digitRow : List Char := "0123456789abcdefghijklmnopqrstuvwxyz".toList

/-- The digits of a base. A negative number leaves out so many from the end of the row. -/
def digitsOf (base : Int) : List Char :=
  if base < 0 then digitRow.take (digitRow.length - base.natAbs) else digitRow.take base.toNat

/-- Whether an item is a digit of a base, in either case. -/
def isDigit (base : Int) : Value → Except Fault Bool
  | .text s =>
    match s.toList with
    | [c] =>
      match Text.foldChar c with
      | [d] => .ok ((digitsOf base).contains d)
      | _ => .ok false
    | _ => .ok false
  | _ => .error .undefined

namespace Parser

/-- Match the characters of a text after those already matched. -/
def spelling (casing : Casing) (matched : String) : List Char → Script Parser
  | [] => return succeed (.text matched)
  | expected :: rest => do
    let item ← Script.text (satisfying (casing.admits expected))
    spelling casing (matched ++ item) rest

/-- The message of a literal that is not there. -/
def literalMessage (wanted : String) : String :=
  "string matching \x7b" ++ wanted ++ "\x7d"

/-- Match a text and give back the input that matched. -/
def literal (wanted : String) (casing : Casing := .exact) : Parser :=
  label (script "match_chars" (spelling casing "" (casing.target wanted).toList))
    (literalMessage wanted)

/-- The options of a choice between texts, as messages list them. -/
def listed (options : List String) : String :=
  "\x7b" ++ ",".intercalate options ++ "\x7d"

/-- Match the first of some texts that fits. -/
def oneOf (option : String) (more : List String) (casing : Casing := .exact) : Parser :=
  label (choice (literal option casing) (more.map (literal · casing)))
    ("one of " ++ listed (option :: more))

/-- Run a parser unless one of some texts comes next. -/
def noneOf (option : String) (more : List String) (casing : Casing := .exact)
    (p : Parser := token) : Parser :=
  label
    (chain (refusing (choice (literal option casing) (more.map (literal · casing)))) [p])
    ("none of " ++ listed (option :: more))

/-- One capital ASCII letter. -/
def upperLetter : Parser :=
  label (inRange (.text "A") (.text "Z")) "uppercase alphabetical character"

/-- One small ASCII letter. -/
def lowerLetter : Parser :=
  label (inRange (.text "a") (.text "z")) "lowercase alphabetical character"

/-- One ASCII letter. -/
def letter : Parser :=
  label (choice lowerLetter [upperLetter]) "alphabetical character"

/-- One digit of a base. -/
def digit (base : Int := 10) : Parser :=
  label (satisfying (isDigit base)) "digit"

/-- One ASCII letter or digit of a base. -/
def alphanumeric (base : Int := 10) : Parser :=
  label (choice letter [digit base]) "alphanum"

/-- One blank: a space, a tab, a newline or a return. -/
def space : Parser :=
  label (oneOf " " ["\t", "\n", "\r"]) "space"

/-- A run of blanks, which counts as one space. -/
def spaces : Parser :=
  label (chain space [dropping space, succeed (.text " ")]) "spaces"

/-- Join the texts that a parser lists. A value that is no list is a failure. -/
def textOf (p : Parser) : Parser :=
  p.bind fun v =>
    match v.items? with
    | none => failing
    | some items =>
      match joinTexts items with
      | .ok joined => succeed (.text joined)
      | .error fault => raising fault

/-- Repeat a parser of texts and join what it gives. -/
def text (p : Parser := token) (bounds : Bounds := .any) : Parser :=
  textOf (p.collect bounds)

/-- Allow blanks on both sides of a parser. -/
def trim (p : Parser) : Parser :=
  between (optional spaces) (optional spaces) p

/-- Allow blanks in front of a parser. -/
def trimLeft (p : Parser) : Parser :=
  chain (optional spaces) [p]

/-- Allow blanks after a parser. -/
def trimRight (p : Parser) : Parser :=
  p.followedBy (optional spaces)

end Parser

example : digitsOf 2 = ['0', '1'] := by decide
example : digitsOf (-35) = ['0'] := by decide
example : digitsOf 40 = digitRow := by decide

end Descent
