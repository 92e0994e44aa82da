import Descent.Run

/-!
# Parsers

A parser takes a state to a state and has a name that shows how it was made. This file holds
the type and the parsers that all others are made of: those that succeed or fail on the spot,
the one that consumes items, the test for the end of the input, sequencing by a function of the
value, naming what was expected, and looking ahead.

Every parser keeps the input and leaves a position that fits its offset. Only `token` moves, and
only `failing` makes a failure.
-/

namespace Descent

/-- A named function from states to states. -/
structure Parser where
  name : String
  run : State → Run State

namespace Parser

/-- A parser as a reader sees it. -/
def shown (p : Parser) : String := "<Parser " ++ p.name ++ ">"

/-- Stop with a fault whenever it is run. -/
def raising (fault : Fault) : Parser where
  name := "raise"
  run _ := Run.raise fault

/-- Succeed with a value and consume nothing. -/
def succeed (v : Value := .absent) : Parser where
  name := "value"
  run s := pure (s.succeed v)

/-- The message of a failure that says nothing more. -/
def plainMessage : String := "parser error"

/-- Fail where the state is. A failure that the state already carries is merged with. -/
def failing (message : String := plainMessage) (kind : FailureKind := .failure) : Parser where
  name := "fail"
  run s :=
    let failure : Failure := ⟨s.position, [message], kind, kind == .eof⟩
    pure { s with error := Failure.merge? s.error (some failure) }

/-- Run a parser and, if it succeeds, the one that its value chooses. -/
def bind (p : Parser) (next : Value → Parser) : Parser where
  name := "bind"
  run s := do
    let reached ← p.run s
    if reached.failed then pure reached else (next reached.value).run reached

/-- Say what was expected in place of a parser's own messages. -/
def label (p : Parser) (expected : String) : Parser where
  name := "label " ++ Text.quote expected
  run s := do
    let reached ← p.run s
    pure { reached with
      error := reached.error.map fun failure =>
        failure.withMessages ["expected " ++ expected] .expectation }

/-- Consume a number of items, at least one, and give them back. Running off the end moves one
column past the last item and fails for want of input. -/
def token (count : Nat := 1) : Parser where
  name := "token"
  run s :=
    let wanted := max 1 count
    let taken := s.input.slice s.offset (s.offset + wanted)
    let position := s.position.over taken
    if taken.size < wanted then
      (failing "unexpected eof" .eof).run
        { s with offset := s.offset + wanted, position := position.nextColumn }
    else
      pure { s with
        value := taken.toValue, offset := s.offset + wanted, position, error := none }

/-- Succeed with truth at the end of the input. -/
def atEnd : Parser where
  name := "eof"
  run s :=
    if s.input.size = s.offset then pure (s.succeed (.bool true))
    else (failing "expected end of input" .expectation).run s

/-- Make a parser only when it is run. What a rule refers to need not exist before. -/
def deferred (maker : String) (make : Unit → Parser) : Parser where
  name := "delay " ++ maker
  run s := (make ()).run s

/-- Continue with the value that a function makes of a parser's value. -/
def map (f : Value → Except Fault Value) (p : Parser) : Parser :=
  p.bind fun v =>
    match f v with
    | .ok w => succeed w
    | .error fault => raising fault

/-- Put the value of a parser under a key. -/
def tagged (p : Parser) (key : Value) : Parser :=
  p.map fun v => .ok (.dict [(key, v)])

/-- Run a parser for its verdict and value, and go back to where it started. -/
def lookAhead (p : Parser) : Parser where
  name := "look_ahead"
  run s := do
    let reached ← p.run s
    pure { reached with offset := s.offset, position := s.position }

/-- Succeed with the value of a parser if it passes a test. -/
def satisfying (test : Value → Except Fault Bool) (p : Parser := token) : Parser :=
  p.bind fun v =>
    match test v with
    | .ok true => succeed v
    | .ok false => failing
    | .error fault => raising fault

/-- Succeed with the value of a parser if it does not pass a test. -/
def rejecting (test : Value → Except Fault Bool) (p : Parser := token) : Parser :=
  satisfying (fun v => (test v).map not) p

/-- Run a parser and record the states before and after it. -/
def traced (p : Parser) (tag : String) (level : Int := Note.debugLevel) : Parser where
  name := "trace " ++ Text.quote tag
  run s := do
    let reached ← p.run s
    Run.note (.traced level tag s reached)
    pure reached

end Parser

/-- Runs that go on only from a success may be grouped. -/
theorem Run.ifSucceeded_assoc (run : Run State) (first second : State → Run State) :
    ((run >>= fun reached => if reached.failed then pure reached else first reached) >>=
        fun last => if last.failed then pure last else second last) =
      run >>= fun reached =>
        if reached.failed then pure reached
        else first reached >>= fun last => if last.failed then pure last else second last := by
  rw [bind_assoc]
  congr 1
  funext reached
  by_cases failed : reached.failed = true
  · rw [if_pos failed, if_pos failed, pure_bind, if_pos failed]
  · rw [if_neg failed, if_neg failed]

/-- Runs that go on only from a failure may be grouped. -/
theorem Run.ifFailed_assoc (run : Run State) (first second : State → Run State) :
    ((run >>= fun reached => if reached.failed then first reached else pure reached) >>=
        fun last => if last.failed then second last else pure last) =
      run >>= fun reached =>
        if reached.failed then
          first reached >>= fun last => if last.failed then second last else pure last
        else pure reached := by
  rw [bind_assoc]
  congr 1
  funext reached
  by_cases failed : reached.failed = true
  · rw [if_pos failed, if_pos failed]
  · rw [if_neg failed, if_neg failed, pure_bind, if_neg failed]

end Descent
