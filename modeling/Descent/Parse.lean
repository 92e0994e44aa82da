import Descent.Parser.Combination

/-!
# Parsing an input

To parse is to run a parser on a fresh state and to look at what it reached. Unless trailing
input is allowed, the parser is followed by a test for the end. The caller chooses whether a
failure is raised or returned, and whether the value or the whole state is wanted.
-/

namespace Descent

/-- Where a parse begins. A position, if given, takes the place of the source's name. -/
structure Setup where
  fileName : Option String := none
  userState : Value := .null
  position : Option Position := none

/-- The position a parse begins at. -/
def Setup.origin (setup : Setup) : Position :=
  setup.position.getD { name := setup.fileName }

/-- The state a parse begins with. -/
def Setup.start (setup : Setup) (input : Input) : State where
  value := .absent
  input := input
  position := setup.origin
  userState := setup.userState

/-- How the outcome of a parse is handed over. -/
structure Delivery where
  throwOnError : Bool := true
  allowTrailing : Bool := false
  returnState : Bool := false

/-- What a parse hands over. -/
inductive Outcome where
  | value (v : Value)
  | state (s : State)
  | refused (failure : Failure)

namespace Parser

/-- Run a parser on an input and record how it went. -/
def reach (p : Parser) (setup : Setup) (input : Input) : Run State := do
  let start := setup.start input
  Run.note (.began input.size start.position)
  let reached ← p.run start
  match reached.error with
  | none => pure reached
  | some failure => do
    Run.note (.refused failure)
    pure reached

/-- Hand over what was reached. -/
def deliver (delivery : Delivery) (reached : State) : Run Outcome :=
  match reached.error with
  | some failure =>
    if delivery.throwOnError then Run.raise (.rejected failure) else pure (.refused failure)
  | none =>
    if !delivery.throwOnError || delivery.returnState then pure (.state reached)
    else pure (.value reached.value)

/-- Parse an input, all of it unless trailing input is allowed. -/
def parse (p : Parser) (input : Input) (setup : Setup := {}) (delivery : Delivery := {}) :
    Run Outcome := do
  let whole := if delivery.allowTrailing then p else p.followedBy atEnd
  let reached ← whole.reach setup input
  deliver delivery reached

/-- Parse the whole input for its value. -/
def parseValue (p : Parser) (input : Input) : Run Value := do
  let reached ← (p.followedBy atEnd).reach {} input
  match reached.error with
  | some failure => Run.raise (.rejected failure)
  | none => pure reached.value

/-- Parse the beginning of an input and give either its value or the failure. -/
def parseStart (p : Parser) (input : Input) (setup : Setup := {}) :
    Run (Except Failure Value) := do
  let reached ← p.reach setup input
  match reached.error with
  | some failure => pure (.error failure)
  | none => pure (.ok reached.value)

end Parser
end Descent
