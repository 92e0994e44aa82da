import Descent.Grammar.Csv
import Descent.Grammar.EqualRuns
import Descent.Grammar.Json
import Descent.Grammar.SExp

/-!
# Demonstrations

Each example grammar comes with a demonstration: a few inputs and what becomes of them, as text.
-/

namespace Descent.Grammar.Demonstration

/-- One line of text. -/
def line (text : String) : String := text ++ "\n"

/-- What becomes of an input: its value, or the failure in words. -/
def report (p : Parser) (input : Input) : Run String := do
  match ← (p.parse input).caught with
  | .ok (.value v) =>
    return line ("parsing " ++ input.toValue.written ++ ": " ++ v.shown)
  | .ok _ => return ""
  | .error (.rejected failure) => return line ("Parser failure: " ++ failure.text)
  | .error fault => Run.raise fault

/-- The lines of several reports. -/
def reports (parsings : List (Parser × String)) : Run String := do
  let lines ← parsings.mapM fun parsing => report parsing.1 (.ofString parsing.2)
  return String.join lines

/-- The text of the JSON demonstration. -/
def jsonText : String :=
  "[\x7b\"foo\": 1, \"bar\": \"baz\", \"quux\": [\"a\", -5, \x7b\"x\": 1\x7d]\x7d]"

/-- A JSON text and its value. -/
def json : Run String := do
  let v ← Json.parse (.ofString jsonText)
  return line "Parsing:" ++ line jsonText ++ line "=>" ++ line v.shown

/-- The texts of the demonstration of tables: a plain one, and one with every sort of cell. -/
def csvTexts : List String :=
  ["l1c1,l1c2\nl2c1,l2c2\n",
   "\"Product\",\"Price\"\n\"O'Reilly Socks\",10\n\"Shirt with \"\"Haskell\"\" text\",20\n" ++
     "\"Shirt, \"\"O'Reilly\"\" version\",20\n\"Haskell Caps\",15"]

/-- Two tables. -/
def csv : Run String := do
  let tables ← csvTexts.mapM fun text => Csv.parse (.ofString text)
  return String.join (tables.map fun table => line table.shown)

/-- The text of the demonstration of symbolic expressions. -/
def sexpText : String := "(1 23 (345 6) () 789 10)"

/-- A symbolic expression. -/
def sexp : Run String := do
  let v ← SExp.parse (.ofString sexpText)
  return line ("Parsing " ++ sexpText ++ " => " ++ v.shown)

/-- Runs of equal number, some of them not. -/
def equalRuns : Run String :=
  reports
    [(EqualRuns.three "a" "b" "c", "aaabbbccc"),
     (EqualRuns.letters "a" ["b", "c", "d"], "aaabbbcccddd"),
     (EqualRuns.parsers (.literal "foo") [.literal "bar", .digit], "foofoobarbar11"),
     (EqualRuns.letters "a" ["b", "c", "d"], "aaabbbcccdd"),
     (EqualRuns.parsers .token [.token, .token], "aaabbbccc")]

/-- The demonstrations by name. -/
def byName : List (String × Run String) :=
  [("json_parser", json), ("csv_parser", csv), ("sexp_parser", sexp),
   ("context_parser", equalRuns)]

end Descent.Grammar.Demonstration
