import Descent.Parser

/-!
# Recursive grammars

A rule may refer to itself through the parser its body is given. The inner use has to start with
fewer unread items than the outer one; one that does not would never end, and is a fault.

Which parser the rule stands for depends on a state only through its number of unread items,
and `recursive_run` says so: it is the body around the rule for states with fewer of them.
-/

namespace Descent.Parser

/-- The body of a rule around its own uses, for states with a given number of unread items. -/
def unfolded (body : Parser → Parser) (unread : Nat) : Parser :=
  body
    { name := "delay"
      run := fun s =>
        if s.unread < unread then (unfolded body s.unread).run s else Run.raise .endless }
termination_by unread

/-- The parser of a rule that may refer to itself. -/
def recursive (body : Parser → Parser) : Parser where
  name := (body (raising .endless)).name
  run s := (unfolded body s.unread).run s

/-- A rule inside itself: allowed only where some item was read since the rule began. -/
def within (body : Parser → Parser) (unread : Nat) : Parser where
  name := "delay"
  run s := if s.unread < unread then (recursive body).run s else Run.raise .endless

/-- A recursive rule is its body around itself, where each inner use has to start further on. -/
theorem recursive_run (body : Parser → Parser) (s : State) :
    (recursive body).run s = (body (within body s.unread)).run s := by
  conv => lhs; unfold recursive
  simp only
  rw [unfolded]
  rfl

end Descent.Parser
