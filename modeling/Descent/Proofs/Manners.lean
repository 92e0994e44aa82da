import Descent.Proofs.Built
import Descent.Proofs.Leads

/-!
# Grammars in another manner

What a constructor starts, and on which states, cannot be seen in the parser that it makes. It can
be seen if the same grammar is put together in another manner: wherever a constructor starts a part,
or a parser of its own that succeeds or fails, another parser is started in its place, which does
the same on states that carry no failure and may do anything on those that do. Where the two
grammars run alike nothing was started on a failure, because the other parser could have left a note
there, or stopped with a fault.

`Remade` relates a grammar to the same grammar in another manner, with one rule for each
constructor. All built parsers can be remade in every manner.
-/

namespace Descent

variable {claimsEnd : Prop} {p q : Parser}

namespace Parser

/-! ## Parsers in place of others -/

/-- A parser does what another one does on every state that carries no failure, notes included. -/
def Replaces (q p : Parser) : Prop := ∀ s : State, s.error = none → q.run s = p.run s

/-- The parser, but on a state that carries a failure something else is done instead. -/
def unlessFailed (instead : State → Run State) (p : Parser) : Parser where
  name := p.name
  run s := if s.failed then instead s else p.run s

/-- Fail where the state is. A failure that the state already carries is forgotten. -/
def failingAfresh (message : String) (kind : FailureKind) : Parser where
  name := "fail"
  run s := pure { s with error := some ⟨s.position, [message], kind, kind == .eof⟩ }

theorem unlessFailed_replaces (instead : State → Run State) (p : Parser) :
    (p.unlessFailed instead).Replaces p := by
  intro s clean
  exact if_neg (State.not_failed_of_clean clean)

-- A combination that goes on without a look at the state that it has reached is found out.
example :
    (token.run { value := .absent, input := .ofString "" } >>=
      (atEnd.unlessFailed fun _ => Run.raise .endless).run).result = .error .endless := rfl

/-- Where there is no failure, merging with it is no merging at all. -/
theorem failingAfresh_replaces (message : String) (kind : FailureKind) :
    (failingAfresh message kind).Replaces (failing message kind) := by
  intro s clean
  simp only [failingAfresh, failing, clean, Failure.merge?_none_left]

/-! ## Constructors that start parsers of their own

Three constructors start parsers that are not among their operands. Each is stated here with these
as further operands. -/

/-- Consume a number of items, or move behind the last one and run another parser. -/
def tokenElse (refusal : Parser) (count : Nat) : Parser where
  name := "token"
  run s :=
    let wanted := max 1 count
    let taken := s.input.slice s.offset (s.offset + wanted)
    let position := s.position.over taken
    if taken.size < wanted then
      refusal.run { s with offset := s.offset + wanted, position := position.nextColumn }
    else
      pure { s with
        value := taken.toValue, offset := s.offset + wanted, position, error := none }

/-- Succeed with truth at the end of the input, or run another parser. -/
def atEndElse (refusal : Parser) : Parser where
  name := "eof"
  run s := if s.input.size = s.offset then pure (s.succeed (.bool true)) else refusal.run s

/-- Go back and run one parser if the guard fails, and another one if it succeeds. -/
def refusingElse (acceptance refusal guard : Parser) : Parser where
  name := "not"
  run s := do
    let reached ← guard.run s
    if reached.failed then acceptance.run s else refusal.run s

theorem tokenElse_failing (count : Nat) :
    tokenElse (failing "unexpected eof" .eof) count = token count := rfl

theorem atEndElse_failing : atEndElse (failing "expected end of input" .expectation) = atEnd := rfl

theorem refusingElse_failing (guard : Parser) :
    refusingElse (succeed (.bool true)) (failing "expected parser to fail" .expectation) guard =
      guard.refusing := rfl

end Parser

/-! ## Grammars in another manner -/

/-- A manner to put grammars together: what is started in place of a part, and what is run to fail.
Only on states that carry a failure may it make a difference. -/
structure Manner where
  part : Parser → Parser
  failing : String → FailureKind → Parser
  part_replaces : ∀ p, (part p).Replaces p
  failing_replaces : ∀ message kind, (failing message kind).Replaces (Parser.failing message kind)

namespace Manner

/-- Every part is watched: when it is to be started on a failure something else is done. -/
def watched (instead : Parser → State → Run State) : Manner where
  part p := p.unlessFailed (instead p)
  failing message kind := Parser.failing message kind
  part_replaces p := p.unlessFailed_replaces (instead p)
  failing_replaces _ _ _ _ := rfl

/-- Every failure is made afresh, without a look at the one that may be there. -/
def afresh : Manner where
  part p := p
  failing := Parser.failingAfresh
  part_replaces _ _ _ := rfl
  failing_replaces := Parser.failingAfresh_replaces

/-- What stands in place of a part stands in place of what the part replaces. -/
theorem replaces_part (manner : Manner) (replaces : q.Replaces p) :
    (manner.part q).Replaces p := by
  intro s clean
  rw [manner.part_replaces q s clean, replaces s clean]

end Manner

/-- The second grammar is the first one in another manner. One rule for each constructor. Rows of
operands are given as pairs of the two grammars' operands, and scripts step by step. Names do not
matter. -/
inductive Remade (manner : Manner) : Parser → Parser → Prop where
  | renamed {p q r t : Parser} (remade : Remade manner p q) (sameRun : r.run = p.run)
      (otherRun : t.run = q.run) : Remade manner r t
  | succeed (v : Value) : Remade manner (.succeed v) (.succeed v)
  | raising (fault : Fault) : Remade manner (.raising fault) (.raising fault)
  | failing (message : String) (kind : FailureKind) :
      Remade manner (.failing message kind) (manner.failing message kind)
  | token (count : Nat) :
      Remade manner (.token count)
        (.tokenElse (manner.part (manner.failing "unexpected eof" .eof)) count)
  | atEnd :
      Remade manner .atEnd
        (.atEndElse (manner.part (manner.failing "expected end of input" .expectation)))
  | bind {p q : Parser} {next other : Value → Parser} (first : Remade manner p q)
      (second : ∀ v, Remade manner (next v) (other v)) :
      Remade manner (p.bind next) ((manner.part q).bind fun v => manner.part (other v))
  | label {p q : Parser} (expected : String) (remade : Remade manner p q) :
      Remade manner (p.label expected) ((manner.part q).label expected)
  | deferred {make another : Unit → Parser} (maker : String)
      (remade : Remade manner (make ()) (another ())) :
      Remade manner (.deferred maker make) (.deferred maker fun _ => manner.part (another ()))
  | lookAhead {p q : Parser} (remade : Remade manner p q) :
      Remade manner p.lookAhead (manner.part q).lookAhead
  | traced {p q : Parser} (tag : String) (level : Int) (remade : Remade manner p q) :
      Remade manner (p.traced tag level) ((manner.part q).traced tag level)
  | noted {p q : Parser} (n : Note) (remade : Remade manner p q) :
      Remade manner (p.noted n) ((manner.part q).noted n)
  | chain {first : Parser × Parser} {more : List (Parser × Parser)}
      (all : ∀ pair ∈ first :: more, Remade manner pair.1 pair.2) :
      Remade manner (.chain first.1 (more.map Prod.fst))
        (.chain (manner.part first.2) (more.map fun pair => manner.part pair.2))
  | choice {first : Parser × Parser} {more : List (Parser × Parser)}
      (all : ∀ pair ∈ first :: more, Remade manner pair.1 pair.2) :
      Remade manner (.choice first.1 (more.map Prod.fst))
        (.choice (manner.part first.2) (more.map fun pair => manner.part pair.2))
  | refusing {p q : Parser} (remade : Remade manner p q) :
      Remade manner p.refusing
        (.refusingElse (manner.part (.succeed (.bool true)))
          (manner.part (manner.failing "expected parser to fail" .expectation)) (manner.part q))
  | gather {first : Parser × Parser} {more : List (Parser × Parser)}
      (all : ∀ pair ∈ first :: more, Remade manner pair.1 pair.2) :
      Remade manner (.gather first.1 (more.map Prod.fst))
        (.gather (manner.part first.2) (more.map fun pair => manner.part pair.2))
  | collect {p q : Parser} (bounds : Bounds) (remade : Remade manner p q) :
      Remade manner (p.collect bounds) ((manner.part q).collect bounds)
  | splitEnd {p q separator ender : Parser} (bounds : Bounds) (remade : Remade manner p q)
      (ended : Remade manner separator ender) :
      Remade manner (p.splitEnd separator bounds)
        ((manner.part q).splitEnd (manner.part ender) bounds)
  | scriptDone {p q : Parser} (name : String) (remade : Remade manner p q) :
      Remade manner (.script name (.done p)) (.script name (.done (manner.part q)))
  | scriptStep {p q : Parser} {next other : Value → Script Parser} (name : String)
      (first : Remade manner p q)
      (rest : ∀ v, Remade manner (.script name (next v)) (.script name (other v))) :
      Remade manner (.script name (.step p next)) (.script name (.step (manner.part q) other))
  | scriptNote {next other : Script Parser} (name : String) (n : Note)
      (rest : Remade manner (.script name next) (.script name other)) :
      Remade manner (.script name (.note n next)) (.script name (.note n other))
  | scriptHalt (name : String) (fault : Fault) :
      Remade manner (.script name (.halt fault)) (.script name (.halt fault))
  | byUnread {make another : Nat → Parser}
      (made : ∀ unread, Remade manner (make unread) (another unread)) :
      Remade manner (.byUnread make) (.byUnread fun unread => manner.part (another unread))

/-- A choice between two parsers. -/
theorem Remade.either {manner : Manner} {r t : Parser} (first : Remade manner p q)
    (second : Remade manner r t) :
    Remade manner (.choice p [r]) (.choice (manner.part q) [manner.part t]) := by
  have all : ∀ pair ∈ [(p, q), (r, t)], Remade manner pair.1 pair.2 := by
    rw [List.forall_mem_cons, List.forall_mem_singleton]
    exact ⟨first, second⟩
  exact .choice all

/-- Every built parser can be put together in any other manner. -/
theorem Built.exists_remade (built : Built claimsEnd p) (manner : Manner) :
    ∃ q, Remade manner p q := by
  induction built with
  | renamed built sameRun inductionHypothesis =>
    obtain ⟨q, remade⟩ := inductionHypothesis
    exact ⟨q, .renamed remade sameRun rfl⟩
  | succeed v => exact ⟨_, .succeed v⟩
  | raising fault => exact ⟨_, .raising fault⟩
  | failing message kind admitted => exact ⟨_, .failing message kind⟩
  | token count => exact ⟨_, .token count⟩
  | atEnd => exact ⟨_, .atEnd⟩
  | bind first second ofFirst ofSecond =>
    obtain ⟨q, remade⟩ := ofFirst
    choose other remadeOther using ofSecond
    exact ⟨_, .bind remade remadeOther⟩
  | label expected built ofParser =>
    obtain ⟨q, remade⟩ := ofParser
    exact ⟨_, .label expected remade⟩
  | lookAhead built ofParser =>
    obtain ⟨q, remade⟩ := ofParser
    exact ⟨_, .lookAhead remade⟩
  | traced tag level built ofParser =>
    obtain ⟨q, remade⟩ := ofParser
    exact ⟨_, .traced tag level remade⟩
  | noted n built ofParser =>
    obtain ⟨q, remade⟩ := ofParser
    exact ⟨_, .noted n remade⟩
  | @choice p more all ofAll =>
    have inhabited : Nonempty Parser := ⟨.succeed⟩
    choose! other remade using ofAll
    have pairs : ∀ pair ∈ (p :: more).map fun part => (part, other part),
        Remade manner pair.1 pair.2 := by
      intro pair member
      obtain ⟨part, among, rfl⟩ := List.mem_map.mp member
      exact remade part among
    have operands : (more.map fun part => (part, other part)).map Prod.fst = more := by
      rw [List.map_map]
      exact List.map_id more
    have chosen : Remade manner (.choice p ((more.map fun part => (part, other part)).map Prod.fst))
        _ := .choice pairs
    rw [operands] at chosen
    exact ⟨_, chosen⟩
  | refusing built ofParser =>
    obtain ⟨q, remade⟩ := ofParser
    exact ⟨_, .refusing remade⟩
  | collect bounds built ofParser =>
    obtain ⟨q, remade⟩ := ofParser
    exact ⟨_, .collect bounds remade⟩
  | splitEnd bounds built ended ofParser ofSeparator =>
    obtain ⟨q, remade⟩ := ofParser
    obtain ⟨ender, remadeEnder⟩ := ofSeparator
    exact ⟨_, .splitEnd bounds remade remadeEnder⟩
  | byUnread made ofMade =>
    choose another remade using ofMade
    exact ⟨_, .byUnread remade⟩

end Descent
