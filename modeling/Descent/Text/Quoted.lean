import Descent.Text.Printable

/-!
# Quoted texts

A text inside a message is written between quotes on one line. Single quotes are used unless
the text holds one and no double quote. The quote in use and the backslash are escaped, the
three usual blanks have short escapes, and every other character that is not printable is
written by its code point in two, four or eight hexadecimal digits.
-/

namespace Descent.Text

/-- The lower-case hexadecimal digit of a number below sixteen. -/
def hexDigit (n : Nat) : Char :=
  if n < 10 then Char.ofNat (48 + n) else Char.ofNat (87 + n)

/-- The last `width` hexadecimal digits of a number. -/
def hexDigits : Nat → Nat → List Char
  | 0, _ => []
  | width + 1, n => hexDigits width (n / 16) ++ [hexDigit (n % 16)]

/-- The quote that goes around a text. -/
def quoteMark (text : List Char) : Char :=
  if text.contains '\'' && !text.contains '"' then '"' else '\''

/-- One character as it is written between the given quotes. -/
def escapeChar (mark c : Char) : List Char :=
  if c = mark ∨ c = '\\' then ['\\', c]
  else if c = '\n' then ['\\', 'n']
  else if c = '\r' then ['\\', 'r']
  else if c = '\t' then ['\\', 't']
  else if isPrintable c then [c]
  else if c.toNat < 0x100 then '\\' :: 'x' :: hexDigits 2 c.toNat
  else if c.toNat < 0x10000 then '\\' :: 'u' :: hexDigits 4 c.toNat
  else '\\' :: 'U' :: hexDigits 8 c.toNat

/-- A text between its quotes, with what needs it escaped. -/
def quote (text : String) : String :=
  let chars := text.toList
  let mark := quoteMark chars
  String.ofList (mark :: chars.flatMap (escapeChar mark) ++ [mark])

/-- The first characters of a quoted text, up to a number of them. What is longer loses its end,
the closing quote with it. -/
def quoteUpTo (limit : Nat) (text : String) : String :=
  String.ofList ((quote text).toList.take limit)

example : quote "it's" = "\"it's\"" := by decide
example : quote "a\\\n" = "'a\\\\\\n'" := by decide
example : quote "\x01" = "'\\x01'" := by decide

end Descent.Text
