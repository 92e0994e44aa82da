import Descent.Parse
import Descent.Parser.Characters

/-!
# Comma-separated values

A table is a row of lines, each a row of cells. A cell is either bare, and then holds no comma
and no line ending, or between double quotes, and then holds anything, with quotes doubled. The
last line need not be ended, but an empty one after the last line ending does not count.
-/

namespace Descent.Grammar.Csv

open Descent.Parser

/-- A character inside a quoted cell. -/
def quotedChar : Parser :=
  choice (noneOf "\"" []) [chain (literal "\"\"") [succeed (.text "\"")]]

/-- A cell between double quotes. -/
def quotedCell : Parser :=
  script "quoted" do
    let _ ← Script.parse (literal "\"")
    let content ← Script.parse (text quotedChar)
    let _ ← Script.parse (choice (literal "\"") [failing "expected quote at the end of cell"])
    return succeed content

/-- One cell. -/
def cell : Parser :=
  choice quotedCell [text (noneOf "," ["\n", "\r"])]

/-- The cells of one line. -/
def line : Parser :=
  choice (split cell (literal ",")) [succeed (.list [])]

/-- A line ending in one of its four forms. -/
def lineEnd : Parser :=
  label (choice (literal "\n\r") [literal "\r\n", literal "\n", literal "\r"]) "end of line"

/-- The lines of a table, with the last one if there is one. -/
def withLast (lines : List Value) : Value → List Value
  | .absent => lines
  | last => lines ++ [last]

/-- A whole table. -/
def table : Parser :=
  script "rows" do
    let lines ← Script.items ((line.followedBy lineEnd).collect)
    let last ← Script.parse (optional (guarded atEnd [line]))
    let _ ← Script.parse atEnd
    return succeed (.list (withLast lines last))

/-- The lines of a whole text. -/
def parse (input : Input) : Run Value := parseValue table input

end Descent.Grammar.Csv
