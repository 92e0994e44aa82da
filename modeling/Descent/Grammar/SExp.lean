import Descent.Parse
import Descent.Parser.Numerals
import Descent.Parser.Recursion

/-!
# Symbolic expressions

An expression is a whole number, or a list of expressions between parentheses with blanks
between them.
-/

namespace Descent.Grammar.SExp

open Descent.Parser

/-- A list of expressions, given the parser of one. -/
def list (expression : Parser) : Parser :=
  between (literal "(") (literal ")") (split expression spaces)

/-- An expression, given the parser of those inside it. -/
def expressionOver (limit : Option Nat) (inner : Parser) : Parser :=
  choice (list inner) [integer 10 limit]

/-- Any expression. -/
def expression (limit : Option Nat := none) : Parser := recursive (expressionOver limit)

/-- The value of a whole text. -/
def parse (input : Input) (limit : Option Nat := none) : Run Value :=
  parseValue (expression limit) input

end Descent.Grammar.SExp
