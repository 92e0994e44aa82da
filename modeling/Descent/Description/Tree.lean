import Descent.Checked
import Descent.Description.Expression

/-!
# Described grammars

A grammar may be given as data: a tree whose nodes name constructors and hold their arguments.
Nodes are grouped by how many parsers they take. A node may choose between two trees, refer to a
named rule, or hold steps that each see the values of the earlier ones.
-/

namespace Descent
namespace Description

/-- Nodes that take no parser. -/
inductive Leaf where
  | value (v : Expression)
  | token (count : Expression)
  | atEnd
  | failing (message kind : Expression)
  /-- A deferred parser whose maker is a mere value. -/
  | strayMaker (v : Expression)
  /-- A named rule, with the values its variables take. -/
  | rule (name : String) (args : List (String × Expression))
  | literal (wanted : Expression) (casing : Casing)
  | oneOf (options : Expression) (casing : Casing)
  | upperLetter
  | lowerLetter
  | letter
  | space
  | spaces
  | digit (base : Expression)
  | alphanumeric (base : Expression)
  | natural (base : Expression)
  | sign
  | integer (base : Expression)
  | real
  | cardinal
  | ordinal
  | shortOrdinal (strict : Bool)
  | json
  | csv
  | csvLine
  | csvLineEnd
  | sexp
  /-- A script whose builder is a mere value. -/
  | strayBuilder (v : Value)
  /-- A script whose builder asks for an argument. -/
  | builderArgument
  /-- A function that marks where it is run. -/
  | mark (tag : Expression)
  | userState
  | place
  | offset
  | remaining
  | setUserState (v : Expression)
  /-- A function that gives back something other than a state. -/
  | strayFunction
  /-- A value where a parser belongs. -/
  | stray (v : Expression)

/-- Numbers of repetitions as they are described. -/
structure Repeats where
  least : Expression := .value .null
  most : Expression := .value .null

/-- Nodes that take one parser. -/
inductive Unary where
  | label (expected : Expression)
  | map (var : String) (e : Expression)
  | tagged (key : Expression)
  | lookAhead
  | satisfying (var : String) (test : Expression)
  | rejecting (var : String) (test : Expression)
  | traced (tag : Expression) (level : Int)
  | optional
  | refusing
  | collect (repeats : Repeats)
  | exactly (count : Expression)
  | dropping
  | inRange (first last : Expression) (comparison : Comparison)
  | noneOf (options : Expression) (casing : Casing)
  | textOf
  | text (repeats : Repeats)
  | trim
  | trimLeft
  | trimRight
  /-- The receiver of a method, which has to be a parser proper. -/
  | receiver

/-- Nodes that take two parsers. -/
inductive Binary where
  | ordered (keepRight : Bool)
  | alternative
  | split (repeats : Repeats)
  | splitEnd (strict : Bool) (repeats : Repeats)

/-- Nodes that take any number of parsers. -/
inductive Variadic where
  | chain
  | choice (expected : Option Expression)
  | gather

/-- Nodes that take one parser and any number of others. -/
inductive Headed where
  | followedBy
  | guarded

end Description

mutual

/-- A grammar as data. -/
inductive Description where
  | leaf (node : Description.Leaf)
  | unary (node : Description.Unary) (q : Description)
  | binary (node : Description.Binary) (left right : Description)
  | between (opening closing body : Description)
  | variadic (node : Description.Variadic) (qs : List Description)
  | headed (node : Description.Headed) (q : Description) (more : List Description)
  /-- A parser and then the one that its value, bound to a variable, leads to. -/
  | bind (q : Description) (var : String) (next : Description)
  | deferred (q : Description)
  /-- A choice made when the grammar is built. -/
  | conditional (test : Description.Expression) (yes no : Description)
  /-- A script that is a plain function. -/
  | plainScript (q : Description)
  | script (steps : Description.Steps)

/-- The steps of a described script. -/
inductive Description.Steps where
  | finish (result : Description)
  /-- Run a parser and bind its value, if it has a name. -/
  | run (q : Description) (var : Option String) (rest : Description.Steps)
  | mark (v : Description.Expression) (rest : Description.Steps)
  /-- End here if a test holds. -/
  | returnIf (test : Description.Expression) (result : Description) (rest : Description.Steps)

end

namespace Description

/-- The parser that a node works on when none is described. -/
def anyToken : Description := .leaf (.token (.value .null))

/-- The name that a variable has when none is given. -/
def defaultVariable : String := "it"

/-- The base of numerals when none is given. -/
def defaultBase : Expression := .value (.int 10)

/-- The message of a described failure when none is given. -/
def defaultMessage : Expression := .value (.text Parser.plainMessage)

/-- The kind of a described failure when none is given. -/
def defaultKind : Expression := .value (.text FailureKind.failure.text)

/-- Named rules of a described grammar. -/
abbrev Rules := List (String × Description)

end Description
end Descent
