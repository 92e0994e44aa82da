import Descent.Operand
import Descent.Parse
import Descent.Parser.Characters

/-!
# Runs of equal number

The texts in which several letters each come the same number of times, one after the other, form
no context-free language. They are easily parsed all the same: the first run tells how long the
others have to be. The grammar is made while it runs.
-/

namespace Descent.Grammar.EqualRuns

open Descent.Parser

/-- How often a run repeats: at least once, or as often as the first run did. Once a run has come
out empty there is no next one: it would have to repeat at least once and never. -/
def runBounds : Option Nat → Except Fault Bounds
  | none => .ok (.atLeast 1)
  | some 0 => .error (.contract (.crossedBounds .collect))
  | some n => .ok (.exactly n)

/-- Three runs of equal number, joined. -/
def three (a b c : String) : Parser :=
  script "abc" do
    let xs ← Script.text (text (literal a) (.atLeast 1))
    let ys ← Script.text (text (literal b) (.exactly xs.length))
    let zs ← Script.text (text (literal c) (.exactly xs.length))
    return succeed (.text (xs ++ ys ++ zs))

/-- Runs of the given letters, of the length of the earlier run if there is one. -/
def lettersAfter (count : Option Nat) (letter : String) (more : List String) : Parser :=
  script "run" do
    let bounds ← Script.ofExcept (runBounds count)
    let xs ← Script.text (text (literal letter) bounds)
    match more with
    | [] => return succeed (.text xs)
    | next :: rest => do
      let tail ← Script.text (lettersAfter (some xs.length) next rest)
      return succeed (.text (xs ++ tail))

/-- Runs of any number of letters, joined. -/
def letters (letter : String) (more : List String) : Parser :=
  lettersAfter none letter more

/-- Runs of the given parsers, of the length of the earlier run if there is one. -/
def parsersAfter (count : Option Nat) (p : Parser) (more : List Parser) : Parser :=
  script "run" do
    let bounds ← Script.ofExcept (runBounds count)
    let xs ← Script.items (p.collect bounds)
    match more with
    | [] => return succeed (.list xs)
    | next :: rest => do
      let tail ← Script.items (parsersAfter (some xs.length) next rest)
      return succeed (.list (xs ++ tail))

/-- Runs of any number of parsers, with the list of all their values. -/
def parsers (p : Parser) (more : List Parser) : Parser :=
  parsersAfter none p more

/-- A parser of a run from an operand, which is looked at when its run begins. -/
def runOf (operand : Operand) : Parser :=
  match operand.checked .collect with
  | .ok p => p
  | .error fault => .raising fault

end Descent.Grammar.EqualRuns
