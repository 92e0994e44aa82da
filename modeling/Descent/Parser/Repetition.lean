import Descent.Parser.Combination
import Descent.Parser.Script

/-!
# Repetition

A repetition goes round as often as its round succeeds, up to a bound. Each round starts where
the last complete one ended, and the attempt that fails leaves nothing behind unless too few
rounds were made, in which case its failure is the result.

With a bound the number of rounds left decreases. Without one every round has to consume
something, and a round that does not is a fault, so the number of unread items decreases. That test
is meant for parsers which do not go back and stay inside the input, as those do that are built from
the ones given here: for them a round that ends elsewhere than it started leaves fewer items unread.
A parser made from scratch may go back, or on past the end. It is stopped by the same fault here,
where a test for another offset alone would let it go on.
-/

namespace Descent

/-- A number of repetitions, or no limit to them. -/
inductive Limit where
  | finite (n : Nat)
  | unbounded
deriving Repr, DecidableEq

namespace Limit

/-- Whether a count stays below a limit. -/
def exceeds : Limit → Nat → Bool
  | finite n, count => count < n
  | unbounded, _ => true

/-- Whether a limit is at most another. -/
def atMost : Limit → Limit → Bool
  | _, unbounded => true
  | unbounded, finite _ => false
  | finite m, finite n => m ≤ n

/-- One repetition fewer. -/
def pred : Limit → Limit
  | finite n => finite (n - 1)
  | unbounded => unbounded

/-- Taking one repetition from both sides keeps their order. -/
theorem atMost_pred (low high : Limit) (ordered : low.atMost high = true) :
    low.pred.atMost high.pred = true := by
  cases low <;> cases high <;> simp_all [atMost, pred]
  omega

/-- A limit is at most itself. -/
theorem atMost_self (limit : Limit) : limit.atMost limit = true := by
  cases limit <;> simp [atMost]

/-- The limit that a number sets to counting. Below a fraction lie as many counts as below the
next whole number, and below an undefined number there are none. -/
def ofNumber? : Value → Option Limit
  | .float x =>
    match Value.exactFloat x with
    | some quotient => some (finite quotient.ceiling.toNat)
    | none => some (if (Value.float x).infiniteSide? = some .gt then unbounded else finite 0)
  | v => v.int?.map fun n => finite n.toNat

end Limit

/-- How often something may be repeated. -/
structure Bounds where
  least : Limit
  most : Limit
  ordered : least.atMost most = true

namespace Bounds

/-- Any number of times. -/
def any : Bounds := ⟨.finite 0, .unbounded, rfl⟩

/-- Any number of times from a given one on. -/
def atLeast (n : Nat) : Bounds := ⟨.finite n, .unbounded, rfl⟩

/-- A given number of times. -/
def exactly (n : Nat) : Bounds := ⟨.finite n, .finite n, by simp [Limit.atMost]⟩

/-- Up to a given number of times. A least number above it counts as the same. -/
def upTo (most least : Limit) : Bounds :=
  if ordered : least.atMost most = true then ⟨least, most, ordered⟩
  else ⟨most, most, Limit.atMost_self most⟩

/-- One time fewer on both sides. -/
def pred (bounds : Bounds) : Bounds :=
  ⟨bounds.least.pred, bounds.most.pred, Limit.atMost_pred _ _ bounds.ordered⟩

end Bounds

/-- How one round of a repetition went. -/
inductive Round where
  /-- It failed and gave no value. -/
  | refused (attempt : State)
  /-- It gave a value that nothing can follow, because of a failed attempt. -/
  | last (v : Value) (reached attempt : State)
  /-- It gave a value and may be followed by another round. -/
  | complete (v : Value) (reached : State)

/-- What a repetition found: the values in order, where the last of them ends, and the failed
attempt that ended it if there was one. -/
structure Harvest where
  values : List Value
  reached : State
  refusal : Option State

namespace Harvest

/-- The harvest without any value. -/
def empty (s : State) (refusal : Option State) : Harvest := ⟨[], s, refusal⟩

/-- The harvest with one more value in front. -/
def cons (v : Value) (h : Harvest) : Harvest := { h with values := v :: h.values }

/-- The state a harvest ends in: the failed attempt if there are too few values. -/
def settle (h : Harvest) (least : Limit) : State :=
  let success := h.reached.succeed (.list h.values)
  match h.refusal with
  | some attempt => if least.exceeds h.values.length then attempt else success
  | none => success

end Harvest

namespace Parser

/-- Go round at most a given number of times. -/
def roundsUpTo (round : State → Run Round) : Nat → State → Run Harvest
  | 0, s => pure (.empty s none)
  | left + 1, s => do
    match ← round s with
    | .refused attempt => pure (.empty s (some attempt))
    | .last v reached attempt => pure (.cons v (.empty reached (some attempt)))
    | .complete v reached => return .cons v (← roundsUpTo round left reached)

/-- Go round as long as the rounds succeed. Each has to leave fewer items unread. -/
def roundsOn (site : Site) (round : State → Run Round) (s : State) : Run Harvest := do
  match ← round s with
  | .refused attempt => pure (.empty s (some attempt))
  | .last v reached attempt => pure (.cons v (.empty reached (some attempt)))
  | .complete v reached =>
    if reached.unread < s.unread then
      return .cons v (← roundsOn site round reached)
    else Run.raise (.contract (.stalled site))
termination_by s.unread

/-- Repeat a round within bounds. -/
def repeated (site : Site) (round : State → Run Round) (bounds : Bounds) (s : State) :
    Run State := do
  let harvest ←
    match bounds.most with
    | .finite most => roundsUpTo round most s
    | .unbounded => roundsOn site round s
  return harvest.settle bounds.least

/-- The round of a plain repetition. -/
def roundOf (p : Parser) (s : State) : Run Round := do
  let reached ← p.run s
  return if reached.failed then .refused reached else .complete reached.value reached

/-- Repeat a parser and collect its values. -/
def collect (p : Parser) (bounds : Bounds := .any) : Parser where
  name := "collect"
  run := repeated .collect (roundOf p) bounds

/-- Values of a parser with a separator between them, at least one. -/
def splitSome (p separator : Parser) (bounds : Bounds) : Parser :=
  script "split_items" do
    let first ← Script.parse p
    let others ← Script.items ((chain separator [p]).collect bounds.pred)
    return succeed (.list (first :: others))

/-- Values of a parser with a separator between them. A separator that no value follows is not
consumed. Without a least number, no value at all gives an empty list. -/
def split (p separator : Parser) (bounds : Bounds := .any) : Parser :=
  if bounds.most = .finite 0 then succeed (.list [])
  else if bounds.least = .finite 0 then
    choice (splitSome p separator bounds) [succeed (.list [])]
  else splitSome p separator bounds

/-- The round of a repetition of values that each end with a separator; a value without one is
the last. -/
def endedRoundOf (p separator : Parser) (s : State) : Run Round := do
  let item ← p.run s
  if item.failed then return .refused item
  let ended ← separator.run item
  return if ended.failed then .last item.value item ended else .complete item.value ended

/-- Values of a parser, each followed by a separator, which the last may lack. -/
def splitEnd (p separator : Parser) (bounds : Bounds := .any) : Parser where
  name := "split_end"
  run := repeated .splitEnd (endedRoundOf p separator) bounds

/-- Values of a parser, each followed by a separator. -/
def splitEndStrict (p separator : Parser) (bounds : Bounds := .any) : Parser :=
  (p.followedBy separator).collect bounds

/-- Consume as many matches as possible and drop them. -/
def dropping (p : Parser) : Parser :=
  chain p.collect [succeed]

end Parser
end Descent
