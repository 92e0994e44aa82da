import Descent.Text.Quoted

/-!
# Positions

A position counts lines from one and columns from zero, and may carry the name of the source.
A newline starts the next line; everything else moves one column on. The name takes no part in
comparisons. A stretch of text is passed over in one go by counting its newlines and what
follows the last of them.
-/

namespace Descent

/-- A place in a source. -/
structure Position where
  line : Int := 1
  column : Int := 0
  name : Option String := none
deriving Repr, DecidableEq

namespace Position

/-- The position after one item, which is a newline or not. -/
def step (p : Position) (newline : Bool) : Position :=
  if newline then { p with line := p.line + 1, column := 0 }
  else { p with column := p.column + 1 }

/-- The position one column further on. -/
def nextColumn (p : Position) : Position :=
  { p with column := p.column + 1 }

/-- How many characters follow the last newline of a text. -/
def tailLength (chars : List Char) : Nat :=
  (chars.reverse.takeWhile (· ≠ '\n')).length

/-- The position after a stretch of text. Only the number of newlines and the length of the
last line matter. -/
def overText (p : Position) (chars : List Char) : Position :=
  let newlines := chars.count '\n'
  if newlines = 0 then { p with column := p.column + chars.length }
  else { p with line := p.line + newlines, column := tailLength chars }

/-- The order of two positions: the line decides, then the column. -/
def order (p q : Position) : Ordering :=
  (compare p.line q.line).then (compare p.column q.column)

/-- Whether two positions are the same place, whatever the source is called. -/
def samePlace (p q : Position) : Bool :=
  p.line == q.line && p.column == q.column

/-- The name of an order in words. -/
def orderWord : Ordering → String
  | .lt => "lt"
  | .eq => "eq"
  | .gt => "gt"

/-- A position as a reader sees it. An empty name is left out. -/
def text (p : Position) : String :=
  let place := "line " ++ toString p.line ++ ", column " ++ toString p.column
  match p.name with
  | none => place
  | some name => if name.isEmpty then place else name ++ ", " ++ place

/-- An optional name inside a record. -/
def writtenName : Option String → String
  | none => "None"
  | some name => Text.quote name

/-- A position with all its fields. -/
def written (p : Position) : String :=
  "SourcePos(line=" ++ toString p.line ++ ", column=" ++ toString p.column ++
    ", name=" ++ writtenName p.name ++ ")"

/-- Two positions are in order `eq` exactly when they are the same place. -/
theorem order_eq_iff (p q : Position) : p.order q = .eq ↔ p.samePlace q = true := by
  simp [order, samePlace, Ordering.then_eq_eq]

example : overText {} ['a', '\n', 'b', 'c'] = ⟨2, 2, none⟩ := by decide
example : overText ⟨3, 4, none⟩ ['a', 'b'] = ⟨3, 6, none⟩ := by decide

end Position
end Descent
