import Descent.Grammar.Demonstration

/-!
# Command line

Prints the demonstrations of the example grammars that are named on the command line, or all of
them if none is.
-/

namespace Descent

/-- The demonstrations that are asked for, by name. -/
def demonstrations (names : List String) : List (String × Option (Run String)) :=
  let known := Grammar.Demonstration.byName
  let wanted := if names.isEmpty then known.map (·.1) else names
  wanted.map fun name => (name, known.lookup name)

/-- Print one demonstration; gives whether there was anything to print. -/
def printDemonstration (name : String) (demonstration : Option (Run String)) : IO Bool := do
  match demonstration with
  | none =>
    IO.eprintln ("no demonstration of " ++ name)
    return false
  | some run =>
    match run.result with
    | .ok text =>
      IO.print text
      return true
    | .error fault =>
      IO.eprintln (fault.message.getD name)
      return false

end Descent

/-- Print demonstrations; fails if one of them is unknown or stops with a fault. -/
def main (args : List String) : IO UInt32 := do
  let mut failed := false
  for (name, demonstration) in Descent.demonstrations args do
    unless ← Descent.printDemonstration name demonstration do
      failed := true
  return if failed then 1 else 0
