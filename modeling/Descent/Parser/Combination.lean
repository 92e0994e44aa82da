import Descent.Comparison
import Descent.Parser

/-!
# Combining parsers

Parsers are put one after another, tried one instead of another, or run as a guard. A list of
parsers is given as a first one and more, so that no combination is empty.

An alternative always starts from the state where the choice began, so a choice backtracks
without limit. When every alternative fails, the state is that of the last one and the failure
is merged from all.
-/

namespace Descent.Parser

/-- Run parsers in order up to the first failure. -/
def runAll : List Parser → State → Run State
  | [], s => pure s
  | p :: rest, s => do
    let reached ← p.run s
    if reached.failed then pure reached else runAll rest reached

/-- Succeed if all parsers do, in order, with the value of the last. -/
def chain (p : Parser) (more : List Parser) : Parser where
  name := "and"
  run := runAll (p :: more)

/-- Try one parser and then the others on a state, merging their failures with an earlier one. -/
def attempt (s : State) (earlier : Option Failure) (p : Parser) (more : List Parser) :
    Run State := do
  let reached ← p.run s
  if reached.failed then
    let merged := Failure.merge? earlier reached.error
    match more with
    | [] => pure { reached with error := merged }
    | next :: later => attempt s merged next later
  else pure reached

/-- Succeed with the first parser that does. -/
def choice (p : Parser) (more : List Parser) : Parser where
  name := "or"
  run s := attempt s none p more

/-- Take what a parser gives, or nothing at all. -/
def optional (p : Parser) : Parser :=
  choice p [succeed]

/-- Succeed with truth, consuming nothing, if a parser fails. -/
def refusing (p : Parser) : Parser where
  name := "not"
  run s := do
    let reached ← p.run s
    if reached.failed then (succeed (.bool true)).run s
    else (failing "expected parser to fail" .expectation).run s

/-- Run parsers in order, unless the guard would succeed. -/
def guarded (guard : Parser) (more : List Parser) : Parser :=
  chain (refusing guard) more

/-- Run parsers in order and collect their values after those already there, which are given
in reverse. -/
def gatherAfter (values : List Value) : List Parser → State → Run State
  | [], s => pure (s.succeed (.list values.reverse))
  | p :: rest, s => do
    let reached ← p.run s
    if reached.failed then pure reached
    else gatherAfter (reached.value :: values) rest reached

/-- Succeed with the list of the values of all parsers, run in order. -/
def gather (p : Parser) (more : List Parser) : Parser where
  name := "join"
  run := gatherAfter [] (p :: more)

/-- Succeed with the value of the first parser if all the others succeed after it. -/
def followedBy (p next : Parser) (more : List Parser := []) : Parser :=
  p.bind fun v => (chain next more).bind fun _ => succeed v

/-- Succeed with what stands between an opening and a closing parser. -/
def between (opening closing body : Parser) : Parser :=
  chain opening [body.followedBy closing]

/-- Succeed with the value of a parser if the comparison holds from the first end of a range to
it and from it to the last. -/
def inRange (first last : Value) (p : Parser := token) (comparison : Comparison := .le) :
    Parser :=
  label
    (satisfying
      (fun v => do
        if ← comparison.holds first v then comparison.holds v last else return false)
      p)
    ("value between \x7b" ++ first.shown ++ "\x7d and \x7b" ++ last.shown ++ "\x7d")

/-- A chain of one parser is that parser. -/
theorem run_chain_nil (p : Parser) (s : State) : (chain p []).run s = p.run s := by
  simp only [chain, runAll]
  have same : (fun reached : State =>
      if reached.failed then (pure reached : Run State) else pure reached) = pure := by
    funext reached
    split <;> rfl
  rw [same, bind_pure]

/-- The last alternative, whose failure is merged with the earlier ones. -/
theorem attempt_nil (s : State) (earlier : Option Failure) (p : Parser) :
    attempt s earlier p [] =
      p.run s >>= fun reached =>
        if reached.failed then
          pure { reached with error := Failure.merge? earlier reached.error }
        else pure reached := rfl

/-- An alternative that others come after. -/
theorem attempt_cons (s : State) (earlier : Option Failure) (p next : Parser)
    (later : List Parser) :
    attempt s earlier p (next :: later) =
      p.run s >>= fun reached =>
        if reached.failed then attempt s (Failure.merge? earlier reached.error) next later
        else pure reached := rfl

/-- A choice of one parser is that parser. -/
theorem run_choice_nil (p : Parser) (s : State) : (choice p []).run s = p.run s := by
  have same : (fun reached : State =>
      if reached.failed then
        (pure { reached with error := Failure.merge? none reached.error } : Run State)
      else pure reached) = pure := by
    funext reached
    split <;> rfl
  have alone : (choice p []).run s = attempt s none p [] := rfl
  rw [alone, attempt_nil, same, bind_pure]

end Descent.Parser
