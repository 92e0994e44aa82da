import Descent.Comparison
import Descent.Value.Arithmetic

/-!
# Expressions

A described grammar computes with the values of its parts: it compares them, adds them up and
takes them apart. Expressions are evaluated in an environment of variables. A function that is
not defined on its arguments, or a variable that is not bound, is a fault.
-/

namespace Descent.Description

/-- The functions that expressions may call. -/
inductive Function where
  | add
  | sub
  | mul
  | compare (comparison : Comparison)
  | not
  | len
  | isIn
  | get
  | join
  | isUpper
deriving Repr, DecidableEq

/-- An expression over variables. -/
inductive Expression where
  | value (v : Value)
  | list (items : List Expression)
  | tuple (items : List Expression)
  | dict (entries : List (Expression × Expression))
  | var (name : String)
  | call (f : Function) (args : List Expression)

/-- The values of variables, innermost first. -/
abbrev Environment := List (String × Value)

namespace Function

/-- The name of a function in descriptions, in the order they are listed there. -/
def names : List (String × Function) :=
  [("add", add), ("sub", sub), ("mul", mul), ("eq", compare .eq), ("ne", compare .ne),
   ("lt", compare .lt), ("le", compare .le), ("gt", compare .gt), ("ge", compare .ge),
   ("not", not), ("len", len), ("in", isIn), ("get", get), ("join", join),
   ("isupper", isUpper)]

/-- The function of a given name. -/
def ofName? (name : String) : Option Function := names.lookup name

/-- Items repeated a number of times; a negative number counts as none. -/
def repeated {α : Type} (count : Int) (items : List α) : List α :=
  (List.replicate count.toNat items).flatten

/-- A row of parts repeated a number of times, if the value is such a row. -/
def repeatedValue? (count : Int) : Value → Option Value
  | .text s => some (.text (String.ofList (repeated count s.toList)))
  | .bytes octets => some (.bytes (repeated count octets))
  | .list items => some (.list (repeated count items))
  | .tuple items => some (.tuple (repeated count items))
  | _ => none

/-- The sum of two numbers, or two texts or lists one after the other. -/
def sum : Value → Value → Except Fault Value
  | .text s, .text t => .ok (.text (s ++ t))
  | .list xs, .list ys => .ok (.list (xs ++ ys))
  | .tuple xs, .tuple ys => .ok (.tuple (xs ++ ys))
  | .bytes xs, .bytes ys => .ok (.bytes (xs ++ ys))
  | v, w => v.plus w

/-- The product of two numbers, or a text or list repeated. -/
def product (v w : Value) : Except Fault Value :=
  let right := w.int?.bind fun count => repeatedValue? count v
  let left := v.int?.bind fun count => repeatedValue? count w
  match right.or left with
  | some row => .ok row
  | none => v.times w

/-- How many parts a value has. -/
def size (v : Value) : Except Fault Value :=
  match v.parts? with
  | some parts => .ok (.int parts.length)
  | none => .error .undefined

/-- Whether a row occurs in another. -/
def occursIn {α : Type} [BEq α] (wanted : List α) : List α → Bool
  | [] => wanted.isEmpty
  | x :: rest => wanted.isPrefixOf (x :: rest) || occursIn wanted rest

/-- Whether a value is among the parts of another. A text is part of a text that it occurs in,
and so for byte strings, of which an octet is part too. -/
def contained : Value → Value → Except Fault Bool
  | .text t, .text s => .ok (occursIn t.toList s.toList)
  | .bytes wanted, .bytes octets => .ok (occursIn wanted octets)
  | v, .bytes octets =>
    match v.int? with
    | some n =>
      if 0 ≤ n ∧ n < 0x100 then .ok (octets.any fun octet => (octet.toNat : Int) == n)
      else .error .undefined
    | none => .error .undefined
  | _, .text _ => .error .undefined
  | v, .dict entries =>
    if v.isKey then .ok (entries.any fun entry => v.same entry.1) else .error .undefined
  | v, w =>
    match w.parts? with
    | some parts => .ok (parts.any v.same)
    | none => .error .undefined

/-- The part at an index; a negative index counts from the end. -/
def part? {α : Type} (parts : List α) (index : Int) : Option α :=
  if index < 0 then
    if parts.length < index.natAbs then none else parts[parts.length - index.natAbs]?
  else parts[index.toNat]?

/-- The part of a value at an index, or the entry of a dictionary under a key. -/
def item (v index : Value) : Except Fault Value :=
  let found :=
    match v with
    | .dict entries => (entries.find? fun entry => entry.1.same index).map (·.2)
    | v => do part? (← v.parts?) (← index.int?)
  match found with
  | some part => .ok part
  | none => .error .undefined

/-- Texts put together. -/
def joined (v : Value) : Except Fault Value :=
  match v.parts?.bind (·.mapM Value.text?) with
  | some texts => .ok (.text (String.join texts))
  | none => .error .undefined

/-- Apply a function to its arguments. -/
def apply : Function → List Value → Except Fault Value
  | add, [v, w] => sum v w
  | sub, [v, w] => v.minus w
  | mul, [v, w] => product v w
  | compare comparison, [v, w] => (comparison.holds v w).map .bool
  | not, [v] => .ok (.bool !v.isTrue)
  | len, [v] => size v
  | isIn, [v, w] => (contained v w).map .bool
  | get, [v, index] => item v index
  | join, [v] => joined v
  | isUpper, [v] => do
    if ← Comparison.le.holds (.text "A") v then
      (Comparison.le.holds v (.text "Z")).map .bool
    else return .bool false
  | _, _ => .error .undefined

end Function

namespace Expression

mutual

/-- The value of an expression. -/
def eval (env : Environment) : Expression → Except Fault Value
  | value v => .ok v
  | list items => do return .list (← evalAll env items)
  | tuple items => do return .tuple (← evalAll env items)
  | dict entries => do
    let given ← evalEntries env entries
    if given.all (·.1.isKey) then return Value.dictOf given else throw .undefined
  | var name =>
    match env.lookup name with
    | some v => .ok v
    | none => .error .undefined
  | call f args => do f.apply (← evalAll env args)

/-- The values of a row of expressions, from left to right. -/
def evalAll (env : Environment) : List Expression → Except Fault (List Value)
  | [] => .ok []
  | e :: rest => do
    let v ← eval env e
    return v :: (← evalAll env rest)

/-- The values of the entries of a dictionary. -/
def evalEntries (env : Environment) :
    List (Expression × Expression) → Except Fault (List (Value × Value))
  | [] => .ok []
  | (key, e) :: rest => do
    let k ← eval env key
    let v ← eval env e
    return (k, v) :: (← evalEntries env rest)

end

end Expression
end Descent.Description
