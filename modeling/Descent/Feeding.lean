import Descent.Checked
import Descent.Stream

/-!
# Feeding operands

Handles and streams for operands that may not be parsers, and operands run one after another on
the state that the one before left.
-/

namespace Descent

namespace Checked

/-- A handle for an operand. -/
def handle (operand : Operand) (setup : Setup := {}) : Except Fault Handle := do
  return Handle.start (← operand.checked .collect) setup

/-- The events of a stream for an operand, which is looked at when the first value is asked
for. -/
def stream (operand : Operand) (source : Source) (setup : Setup := {})
    (encoding : String := defaultEncoding) (chunkSize : Int := defaultChunkSize)
    (wanted : Option Nat := none) : Run (List Event) :=
  match operand.checked .collect with
  | .ok p => p.stream source setup encoding chunkSize wanted
  | .error fault => if wanted = some 0 then pure [] else pure [.raised fault]

/-- Parse with an operand. -/
def parse (operand : Operand) (input : Input) (setup : Setup := {}) (delivery : Delivery := {}) :
    Run Outcome :=
  match parsing operand delivery with
  | .ok p => p.parse input setup delivery
  | .error fault => Run.raise fault

end Checked

namespace Operand

/-- Run an operand on something that may not be a state. The operand is looked at first. -/
def invoked (operand : Operand) : Option State → Run State
  | some s => operand.applied.run s
  | none =>
    match operand with
    | value v => Run.raise (.contract (.strayParser none v))
    | _ => Run.raise (.contract .strayState)

/-- Run operands in order, failures notwithstanding, each made when its turn comes. Gives the
state after each, and the fault that ended the row if one did. -/
def runEach : List (Unit → Except Fault Operand) → Option State → Run (List State × Option Fault)
  | [], _ => pure ([], none)
  | make :: later, s =>
    match make () with
    | .error fault => pure ([], some fault)
    | .ok operand => do
      match ← (operand.invoked s).caught with
      | .error fault => pure ([], some fault)
      | .ok reached => do
        let (states, fault) ← runEach later (some reached)
        pure (reached :: states, fault)

end Operand
end Descent
