import Descent.Parser.Script

/-!
# Operands

A grammar that is put together at run time may place anything where a parser belongs: a parser,
a bare function of states, or a value that is neither. An operand is such a thing. It is looked
at when a constructor takes it, when it is run, or when a script ends with it, and each of the
three has its own complaint about a value that is no parser.
-/

namespace Descent

/-- What may stand where a parser is expected. A function gives `none` when what it gives back
is not a state. -/
inductive Operand where
  | parser (p : Parser)
  | function (f : State → Run (Option State))
  | value (v : Value)

namespace Operand

/-- A function as a parser, with the violation to report when it gives back no state. -/
def ofFunction (f : State → Run (Option State)) (violation : Violation) : Parser where
  name := "function"
  run s := do
    match ← f s with
    | some reached => pure reached
    | none => Run.raise (.contract violation)

/-- An operand that is run without having been looked at before. -/
def applied : Operand → Parser
  | parser p => p
  | function f => ofFunction f .noState
  | value v => .raising (.contract (.strayParser none v))

/-- An operand that a constructor takes. -/
def checked (site : Site) : Operand → Except Fault Parser
  | parser p => .ok p
  | function f => .ok (ofFunction f .noState)
  | value v => .error (.contract (.strayParser (some site) v))

/-- An operand that a script runs as one of its steps. -/
def stepped : Operand → Script Value
  | parser p => Script.parse p
  | function f => Script.parse (ofFunction f .noState)
  | value v => .halt (.contract (.strayStep v))

/-- An operand that a script ends with. -/
def ending : Operand → Script Parser
  | parser p => .done p
  | function f => .done (ofFunction f .noResultState)
  | value v => .halt (.contract (.strayResult v))

/-- The parser that a function chose at run time, or the fault it stopped with. -/
def chosen : Except Fault Operand → Parser
  | .ok operand => operand.applied
  | .error fault => .raising fault

/-- An operand as a reader sees it. -/
def shown : Operand → String
  | parser p => p.shown
  | function _ => "<function>"
  | value v => v.written

end Operand
end Descent
