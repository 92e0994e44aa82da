import Descent.Parser

/-!
# Scripts

A grammar that needs the values of its parts is written as a script: run a parser, name its
value, go on. A script ends with the parser that gives the final result. It stops at the first
step that fails, and nothing after that step happens, notes included. Scripts form a monad, so
that they are written with `do`; running one takes the steps in turn.
-/

namespace Descent

/-- A row of parsing steps, each of which may depend on the values of the earlier ones. -/
inductive Script (α : Type) where
  | done (a : α)
  | step (p : Parser) (next : Value → Script α)
  | note (n : Note) (next : Script α)
  | halt (fault : Fault)

namespace Script

variable {α β : Type}

/-- Go on with a second script after the end of the first. -/
def andThen : Script α → (α → Script β) → Script β
  | done a, next => next a
  | step p rest, next => step p fun v => (rest v).andThen next
  | note n rest, next => note n (rest.andThen next)
  | halt fault, _ => halt fault

instance : Monad Script where
  pure := done
  bind := andThen

/-- The script of a check, which goes on if the check passes. -/
def ofExcept : Except Fault α → Script α
  | .ok a => done a
  | .error fault => halt fault

/-- The script that runs one parser and ends with its value. -/
def parse (p : Parser) : Script Value := step p done

/-- The script that runs one parser for a text. -/
def text (p : Parser) : Script String :=
  step p fun v =>
    match v.text? with
    | some s => done s
    | none => halt .undefined

/-- The script that runs one parser for a whole number. -/
def int (p : Parser) : Script Int :=
  step p fun v =>
    match v.int? with
    | some n => done n
    | none => halt .undefined

/-- The script that runs one parser for a list. -/
def items (p : Parser) : Script (List Value) :=
  step p fun v =>
    match v.items? with
    | some xs => done xs
    | none => halt .undefined

/-- Take the steps from a state on, and then run the parser that the script ends with. -/
def runFrom : Script Parser → State → Run State
  | done p, s => p.run s
  | step p next, s => do
    let reached ← p.run s
    if reached.failed then pure reached else (next reached.value).runFrom reached
  | note n next, s => do
    Run.note n
    next.runFrom s
  | halt fault, _ => Run.raise fault

/-- The chain of binds that a script stands for. -/
def toBind : Script Parser → Parser
  | done p => p
  | step p next => p.bind fun v => (next v).toBind
  | note n next =>
    { name := "mark"
      run := fun s => do
        Run.note n
        next.toBind.run s }
  | halt fault => Parser.raising fault

/-- Changing nothing about the end of a script changes nothing. -/
theorem id_map (script : Script α) : id <$> script = script := by
  change script.andThen done = script
  induction script with
  | done a => rfl
  | step p next inductionHypothesis => simp only [andThen, inductionHypothesis]
  | note n next inductionHypothesis => simp only [andThen, inductionHypothesis]
  | halt fault => rfl

/-- A script that ends at once leads straight to the next one. -/
theorem pure_bind (a : α) (next : α → Script β) : (pure a >>= next) = next a := rfl

/-- How scripts are grouped does not matter. -/
theorem bind_assoc {γ : Type} (script : Script α) (first : α → Script β)
    (second : β → Script γ) :
    (script >>= first >>= second) = (script >>= fun a => first a >>= second) := by
  change (script.andThen first).andThen second = script.andThen fun a => (first a).andThen second
  induction script with
  | done a => rfl
  | step p next inductionHypothesis => simp only [andThen, inductionHypothesis]
  | note n next inductionHypothesis => simp only [andThen, inductionHypothesis]
  | halt fault => rfl

instance : LawfulMonad Script := LawfulMonad.mk' Script id_map pure_bind bind_assoc

end Script

/-- The parser that takes the steps of a script. -/
def Parser.script (name : String) (body : Script Parser) : Parser where
  name := name
  run := body.runFrom

end Descent
