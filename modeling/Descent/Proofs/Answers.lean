import Descent.Proofs.Course

/-!
# What a parser answers to a text

A grammar speaks of texts: which of them it takes, what value each has, and where the rest begins.
A parser speaks of states. Here the second is put in terms of the first. On a text a parser answers
with a reply: it refuses, or it gives a value and leaves some of the characters. Positions, the
words of failures and the way a state came about have no part in it.

An answer says that the run ends, without a fault; where there is one, it is said which. Each
combinator has a rule for each way that its parts may answer, so that what a grammar does to a text
is followed step by step. A parser settles a text if it answers in one way or another, and if every
value it may give is of some kind; this is how grammars are treated whose text is not known.

The state is always one within a given whole text, and it stays within it. Where a run has got to
is then a matter of how many characters are left.
-/

namespace Descent

/-- What comes of a run on a text, for those who read on: nothing, or a value and the characters
that are left. -/
abbrev Reply := Option (Value × List Char)

/-- A state that a parser may be started on, in a whole text of which some characters are left. -/
structure State.Within (s : State) (whole : Array Char) (chars : List Char) : Prop where
  ready : s.Ready
  input : s.input = .text whole
  ahead : s.textAhead = chars

/-- What a state that a run has left shows of how it went. -/
def State.Shows (reached : State) (whole : Array Char) : Reply → Prop
  | none => reached.failed = true
  | some (v, rest) => reached.value = v ∧ reached.Within whole rest

/-- Wherever the characters are left of the whole text, the parser ends, and with this reply. -/
def Parser.Answers (p : Parser) (whole : Array Char) (chars : List Char) (reply : Reply) :
    Prop :=
  ∀ s : State, s.Within whole chars →
    ∃ reached, (p.run s).result = .ok reached ∧ reached.Shows whole reply

/-- The parser succeeds on the characters with a value, and leaves the rest of them. -/
abbrev Parser.Reads (p : Parser) (whole : Array Char) (chars : List Char) (v : Value)
    (rest : List Char) : Prop :=
  p.Answers whole chars (some (v, rest))

/-- The parser fails on the characters. -/
abbrev Parser.Refuses (p : Parser) (whole : Array Char) (chars : List Char) : Prop :=
  p.Answers whole chars none

/-- The parser stops with a fault on the characters. -/
def Parser.Raises (p : Parser) (whole : Array Char) (chars : List Char) (fault : Fault) : Prop :=
  ∀ s : State, s.Within whole chars → (p.run s).result = .error fault

/-- On the characters the parser comes to whatever another one comes to on what is left of them. -/
def Parser.ComesTo (p : Parser) (whole : Array Char) (chars : List Char) (q : Parser)
    (rest : List Char) : Prop :=
  ∀ s : State, s.Within whole chars →
    ∃ reached : State, reached.Within whole rest ∧ (p.run s).result = (q.run reached).result

/-- The parser answers in some way, and what it gives and leaves satisfies a condition. -/
def Parser.Settles (p : Parser) (whole : Array Char) (chars : List Char)
    (post : Value → List Char → Prop) : Prop :=
  ∃ reply, p.Answers whole chars reply ∧ ∀ v rest, reply = some (v, rest) → post v rest

variable {whole : Array Char} {chars middle rest : List Char} {v w : Value} {reply : Reply}
  {p q : Parser} {s reached : State}

namespace State.Within

theorem onText (within : s.Within whole chars) : s.OnText := ⟨whole, within.input⟩

/-- The characters that are left are the unread items. -/
theorem unread (within : s.Within whole chars) : s.unread = chars.length := by
  rw [← s.length_textAhead within.ready within.onText, within.ahead]

/-- The offset is as far from the end as there are characters left. -/
theorem offset (within : s.Within whole chars) : s.offset + chars.length = whole.size := by
  have unread : s.unread = chars.length := within.unread
  have inside : s.offset ≤ s.input.size := within.ready.inside
  unfold State.unread at unread
  rw [within.input] at unread inside
  simp only [Input.size] at unread inside
  omega

/-- What a state holds besides its place does not matter. -/
theorem succeed (within : s.Within whole chars) (v : Value) : (s.succeed v).Within whole chars :=
  ⟨⟨rfl, within.ready.start, within.ready.inside⟩, within.input, within.ahead⟩

/-- A whole text, before anything is read. -/
theorem start (t : String) : (Setup.start {} (.ofString t)).Within t.toList.toArray t.toList where
  ready := State.front_ready .null {} t.toList
  input := rfl
  ahead := State.textAhead_front .null {} t.toList

end State.Within

/-- A state shows no more than one reply, and a run ends in one state. -/
theorem State.Shows.unique {other : Reply} (first : reached.Shows whole reply)
    (second : reached.Shows whole other) : reply = other := by
  rcases reply with _ | ⟨v, rest⟩ <;> rcases other with _ | ⟨w, left⟩
  · rfl
  · exact absurd first (not_failed_of_clean second.2.ready.clean)
  · exact absurd second (not_failed_of_clean first.2.ready.clean)
  · rw [← first.1, ← second.1, ← first.2.ahead, ← second.2.ahead]

namespace Parser

/-- Names do not matter to an answer. -/
theorem Answers.renamed (answer : p.Answers whole chars reply) (sameRun : q.run = p.run) :
    q.Answers whole chars reply := by
  intro s within
  rw [sameRun]
  exact answer s within

/-! ## Primitive parsers -/

theorem reads_succeed (v : Value) : (succeed v).Reads whole chars v chars :=
  fun s within => ⟨s.succeed v, rfl, rfl, within.succeed v⟩

theorem refuses_failing (message : String) (kind : FailureKind) :
    (failing message kind).Refuses whole chars := by
  intro s within
  refine ⟨_, rfl, ?_⟩
  rw [within.ready.clean]
  rfl

/-- One character is given as a text. -/
theorem reads_token (c : Char) (rest : List Char) :
    token.Reads whole (c :: rest) (.text c.toString) rest := by
  intro s within
  have some_left : max 1 1 ≤ s.unread := by
    rw [within.unread, List.length_cons]
    omega
  have whole_ahead : s.remaining = .text (c :: rest).toArray := by
    rw [s.remaining_eq_text within.onText, within.ahead]
  have offset : s.offset + (c :: rest).length = whole.size := within.offset
  have start : 0 ≤ s.offset := within.ready.start
  have taken : (s.remaining.extract 0 (max 1 1)).toValue = .text c.toString := by
    rw [whole_ahead]
    simp [Input.extract, Input.toValue, List.extract_eq_take_drop]
  have inside : s.offset + (max 1 1 : Nat) ≤ s.input.size := by
    rw [within.input, Input.size]
    rw [List.length_cons] at offset
    omega
  rw [token_enough s within.ready 1 some_left, taken]
  refine ⟨_, rfl, rfl, ⟨rfl, by simp only; omega, inside⟩, within.input, ?_⟩
  have leads : (token.run s).Ensures (Leads False s) := Leads.token within.ready 1
  rw [token_enough s within.ready 1 some_left, taken] at leads
  have ahead := (leads _ rfl).textAhead within.ready within.onText rfl
  have moved : (s.offset + (max 1 1 : Nat) - s.offset).toNat = 1 := by omega
  rw [ahead, within.ahead, State.passed, moved]
  rfl

/-- At the end there is no character. -/
theorem refuses_token : token.Refuses whole [] := by
  intro s within
  have short : s.unread < max 1 1 := by
    rw [within.unread, List.length_nil]
    omega
  rw [token_short s within.ready.clean within.ready.start 1 short]
  exact ⟨_, rfl, rfl⟩

theorem reads_atEnd : atEnd.Reads whole [] (.bool true) [] := by
  intro s within
  have ended : (s.input.size : Int) = s.offset := by
    have offset := within.offset
    rw [List.length_nil] at offset
    rw [within.input, Input.size]
    omega
  unfold atEnd
  dsimp only
  rw [if_pos ended]
  exact ⟨_, rfl, rfl, within.succeed _⟩

theorem refuses_atEnd (c : Char) (rest : List Char) : atEnd.Refuses whole (c :: rest) := by
  intro s within
  have going_on : ¬ (s.input.size : Int) = s.offset := by
    have offset := within.offset
    rw [List.length_cons] at offset
    rw [within.input, Input.size]
    omega
  unfold atEnd
  dsimp only
  rw [if_neg going_on]
  exact refuses_failing _ _ s within

/-! ## Parsers in order -/

theorem ComesTo.answers (goes : p.ComesTo whole chars q middle)
    (answer : q.Answers whole middle reply) : p.Answers whole chars reply := by
  intro s within
  obtain ⟨reached, onward, same⟩ := goes s within
  obtain ⟨last, went, shows⟩ := answer reached onward
  exact ⟨last, same.trans went, shows⟩

theorem ComesTo.raises {fault : Fault} (goes : p.ComesTo whole chars q middle)
    (raises : q.Raises whole middle fault) : p.Raises whole chars fault := by
  intro s within
  obtain ⟨reached, onward, same⟩ := goes s within
  exact same.trans (raises reached onward)

theorem ComesTo.trans {last : Parser} (first : p.ComesTo whole chars q middle)
    (second : q.ComesTo whole middle last rest) : p.ComesTo whole chars last rest := by
  intro s within
  obtain ⟨reached, onward, same⟩ := first s within
  obtain ⟨ended, further, went⟩ := second reached onward
  exact ⟨ended, further, same.trans went⟩

/-- Names do not matter to what a parser comes to. -/
theorem ComesTo.renamed {other : Parser} (goes : p.ComesTo whole chars q middle)
    (sameRun : other.run = p.run) : other.ComesTo whole chars q middle := by
  intro s within
  rw [sameRun]
  exact goes s within

/-- Behind what is read a parser comes to what is chosen by its value. -/
theorem Reads.comesTo {next : Value → Parser} (first : p.Reads whole chars v middle) :
    (p.bind next).ComesTo whole chars (next v) middle := by
  intro s within
  obtain ⟨reached, ran, value, onward⟩ := first s within
  refine ⟨reached, onward, ?_⟩
  rw [Parser.bind, Run.result_bind_ok _ _ _ ran,
    if_neg (State.not_failed_of_clean onward.ready.clean), value]

theorem Reads.bind {next : Value → Parser} (first : p.Reads whole chars v middle)
    (second : (next v).Answers whole middle reply) :
    (p.bind next).Answers whole chars reply :=
  first.comesTo.answers second

theorem Refuses.bind {next : Value → Parser} (first : p.Refuses whole chars) :
    (p.bind next).Refuses whole chars := by
  intro s within
  obtain ⟨reached, ran, shown⟩ := first s within
  have failed : reached.failed = true := shown
  refine ⟨reached, ?_, shown⟩
  rw [Parser.bind, Run.result_bind_ok _ _ _ ran, if_pos failed]
  rfl

/-- A label changes the words of a failure only. -/
theorem Answers.label (expected : String) (answer : p.Answers whole chars reply) :
    (p.label expected).Answers whole chars reply := by
  intro s within
  obtain ⟨reached, ran, shows⟩ := answer s within
  refine ⟨_, Run.result_bind_ok _ _ _ ran, ?_⟩
  rcases reply with _ | ⟨v, rest⟩
  · obtain ⟨e, failed⟩ := reached.error_of_failed shows
    simp only [State.Shows, State.failed, failed, Option.map_some, Option.isSome_some]
  · obtain ⟨value, ready, input, ahead⟩ := shows
    refine ⟨value, ⟨?_, ready.start, ready.inside⟩, input, ahead⟩
    simp only [ready.clean, Option.map_none]

theorem Answers.chain_nil (answer : p.Answers whole chars reply) :
    (chain p []).Answers whole chars reply :=
  answer.renamed (funext fun s => run_chain_nil p s)

theorem Reads.chain {more : List Parser} (first : p.Reads whole chars v middle)
    (others : (chain q more).Answers whole middle reply) :
    (chain p (q :: more)).Answers whole chars reply := by
  have bound : (p.bind fun _ => Parser.chain q more).Answers whole chars reply :=
    first.bind others
  exact bound.renamed rfl

theorem Refuses.chain {more : List Parser} (first : p.Refuses whole chars) :
    (chain p more).Refuses whole chars := by
  cases more with
  | nil => exact Answers.chain_nil first
  | cons q more =>
    have bound : (p.bind fun _ => Parser.chain q more).Refuses whole chars := first.bind
    exact Answers.renamed bound rfl

/-- Two parsers in order, with the value of the second. -/
theorem Reads.before (first : p.Reads whole chars v middle)
    (second : q.Answers whole middle reply) : (Parser.chain p [q]).Answers whole chars reply :=
  first.chain second.chain_nil

theorem Reads.followedBy (first : p.Reads whole chars v middle)
    (second : q.Reads whole middle w rest) : (p.followedBy q).Reads whole chars v rest :=
  first.bind (Reads.bind second.chain_nil (reads_succeed v))

theorem Reads.followedBy_refuses (first : p.Reads whole chars v middle)
    (second : q.Refuses whole middle) : (p.followedBy q).Refuses whole chars :=
  first.bind (Refuses.bind second.chain_nil)

theorem Refuses.followedBy (first : p.Refuses whole chars) :
    (p.followedBy q).Refuses whole chars :=
  first.bind

theorem Refuses.between {opening closing : Parser} (first : opening.Refuses whole chars) :
    (between opening closing p).Refuses whole chars :=
  first.chain

/-! ## Values -/

theorem Reads.map {f : Value → Except Fault Value} (first : p.Reads whole chars v rest)
    (made : f v = .ok w) : (p.map f).Reads whole chars w rest := by
  refine first.bind ?_
  rw [made]
  exact reads_succeed w

theorem Refuses.map {f : Value → Except Fault Value} (first : p.Refuses whole chars) :
    (p.map f).Refuses whole chars :=
  first.bind

theorem Reads.satisfying {test : Value → Except Fault Bool} (first : p.Reads whole chars v rest)
    (passed : test v = .ok true) : (satisfying test p).Reads whole chars v rest := by
  refine first.bind ?_
  rw [passed]
  exact reads_succeed v

theorem Reads.satisfying_refuses {test : Value → Except Fault Bool}
    (first : p.Reads whole chars v rest) (missed : test v = .ok false) :
    (Parser.satisfying test p).Refuses whole chars := by
  refine first.bind ?_
  rw [missed]
  exact refuses_failing _ _

theorem Refuses.satisfying {test : Value → Except Fault Bool} (first : p.Refuses whole chars) :
    (satisfying test p).Refuses whole chars :=
  first.bind

/-! ## Alternatives -/

/-- What attempts have failed before does not matter to how the others go. -/
theorem attempt_shows {more : List Parser} (earlier other : Option Failure)
    (ran : (attempt s earlier p more).result = .ok reached) (shows : reached.Shows whole reply) :
    ∃ last, (attempt s other p more).result = .ok last ∧ last.Shows whole reply := by
  induction more generalizing p earlier other with
  | nil =>
    rw [attempt_nil] at ran ⊢
    obtain ⟨middle, went, ended⟩ := Run.result_bind_inv _ _ _ ran
    rw [Run.result_bind_ok _ _ _ went]
    by_cases failed : middle.failed = true
    · rw [if_pos failed] at ended ⊢
      obtain rfl := Except.ok.inj ended
      refine ⟨_, rfl, ?_⟩
      have refused : reply = none :=
        State.Shows.unique shows (middle.failed_merged earlier failed)
      rw [refused]
      exact middle.failed_merged other failed
    · rw [if_neg failed] at ended ⊢
      obtain rfl := Except.ok.inj ended
      exact ⟨middle, rfl, shows⟩
  | cons next later inductionHypothesis =>
    rw [attempt_cons] at ran ⊢
    obtain ⟨middle, went, ended⟩ := Run.result_bind_inv _ _ _ ran
    rw [Run.result_bind_ok _ _ _ went]
    by_cases failed : middle.failed = true
    · rw [if_pos failed] at ended ⊢
      exact inductionHypothesis _ _ ended
    · rw [if_neg failed] at ended ⊢
      obtain rfl := Except.ok.inj ended
      exact ⟨middle, rfl, shows⟩

/-- The first alternative that succeeds is taken. -/
theorem Reads.choice {more : List Parser} (first : p.Reads whole chars v rest) :
    (choice p more).Reads whole chars v rest := by
  intro s within
  obtain ⟨reached, ran, value, onward⟩ := first s within
  have clean := State.not_failed_of_clean onward.ready.clean
  refine ⟨reached, ?_, value, onward⟩
  change (attempt s none p more).result = .ok reached
  cases more <;>
  · rw [attempt, Run.result_bind_ok _ _ _ ran, if_neg clean]
    rfl

/-- After an alternative that fails it is the turn of the others. -/
theorem Refuses.choice {more : List Parser} (first : p.Refuses whole chars)
    (others : (choice q more).Answers whole chars reply) :
    (Parser.choice p (q :: more)).Answers whole chars reply := by
  intro s within
  obtain ⟨reached, ran, shown⟩ := first s within
  obtain ⟨last, went, shows⟩ := others s within
  have failed : reached.failed = true := shown
  change ∃ last, (attempt s none p (q :: more)).result = .ok last ∧ last.Shows whole reply
  rw [attempt_cons, Run.result_bind_ok _ _ _ ran, if_pos failed]
  exact attempt_shows _ _ went shows

/-- A choice whose only alternative fails. -/
theorem Refuses.choice_nil (only : p.Refuses whole chars) :
    (Parser.choice p []).Refuses whole chars := by
  intro s within
  obtain ⟨reached, ran, shown⟩ := only s within
  have failed : reached.failed = true := shown
  change ∃ last, (attempt s none p []).result = .ok last ∧ last.Shows whole none
  rw [attempt_nil, Run.result_bind_ok _ _ _ ran, if_pos failed]
  exact ⟨_, rfl, reached.failed_merged none failed⟩

/-- A choice between two parsers of which the first fails. -/
theorem Refuses.either (first : p.Refuses whole chars) (second : q.Answers whole chars reply) :
    (Parser.choice p [q]).Answers whole chars reply := by
  rcases reply with _ | ⟨v, rest⟩
  · exact first.choice (Refuses.choice_nil second)
  · exact first.choice (Reads.choice second)

/-- A choice fails if all its alternatives do. -/
theorem refuses_choice {more : List Parser} (all : ∀ part ∈ p :: more, part.Refuses whole chars) :
    (Parser.choice p more).Refuses whole chars := by
  induction more generalizing p with
  | nil => exact (all p List.mem_cons_self).choice_nil
  | cons next later inductionHypothesis =>
    refine (all p List.mem_cons_self).choice (inductionHypothesis ?_)
    intro part member
    exact all part (List.mem_cons_of_mem p member)

theorem Refuses.optional (first : p.Refuses whole chars) :
    p.optional.Reads whole chars .absent chars :=
  first.either (reads_succeed _)

theorem Refuses.refusing (first : p.Refuses whole chars) :
    p.refusing.Reads whole chars (.bool true) chars := by
  intro s within
  obtain ⟨reached, ran, shown⟩ := first s within
  have failed : reached.failed = true := shown
  unfold Parser.refusing
  rw [Run.result_bind_ok _ _ _ ran, if_pos failed]
  exact reads_succeed _ s within

theorem Reads.refusing (first : p.Reads whole chars v rest) : p.refusing.Refuses whole chars := by
  intro s within
  obtain ⟨reached, ran, _, onward⟩ := first s within
  unfold Parser.refusing
  rw [Run.result_bind_ok _ _ _ ran, if_neg (State.not_failed_of_clean onward.ready.clean)]
  exact refuses_failing _ _ s within

/-! ## Scripts -/

/-- A script that is at its end goes on with its last parser. -/
theorem Answers.script_done (name : String) (answer : p.Answers whole chars reply) :
    (script name (pure p)).Answers whole chars reply :=
  answer.renamed rfl

/-- A script stops at the first step that fails. -/
theorem Refuses.script (name : String) {next : Value → Script Parser}
    (first : p.Refuses whole chars) : (script name (.step p next)).Refuses whole chars := by
  have bound : (p.bind fun v => Parser.script name (next v)).Refuses whole chars := first.bind
  exact Answers.renamed bound rfl

/-- A script whose first step succeeds goes on with the script of its value. -/
theorem Reads.script_comesTo {name : String} {next : Value → Script Parser}
    (first : p.Reads whole chars v middle) :
    (script name (.step p next)).ComesTo whole chars (script name (next v)) middle := by
  have bound : (p.bind fun v => script name (next v)).ComesTo whole chars
      (script name (next v)) middle := first.comesTo
  exact bound.renamed rfl

theorem Reads.script_step {name : String} {next : Value → Script Parser}
    (first : p.Reads whole chars v middle)
    (others : (script name (next v)).Answers whole middle reply) :
    (script name (.step p next)).Answers whole chars reply :=
  first.script_comesTo.answers others

theorem Reads.script_parse {name : String} {next : Value → Script Parser}
    (first : p.Reads whole chars v middle)
    (others : (script name (next v)).Answers whole middle reply) :
    (script name (Script.parse p >>= next)).Answers whole chars reply :=
  first.script_step others

theorem Reads.script_text {name t : String} {next : String → Script Parser}
    (first : p.Reads whole chars (.text t) middle)
    (others : (script name (next t)).Answers whole middle reply) :
    (script name (Script.text p >>= next)).Answers whole chars reply :=
  first.script_step others

theorem Reads.script_int {name : String} {n : Int} {next : Int → Script Parser}
    (first : p.Reads whole chars (.int n) middle)
    (others : (script name (next n)).Answers whole middle reply) :
    (script name (Script.int p >>= next)).Answers whole chars reply :=
  first.script_step others

theorem Reads.script_items {name : String} {items : List Value}
    {next : List Value → Script Parser} (first : p.Reads whole chars (.list items) middle)
    (others : (script name (next items)).Answers whole middle reply) :
    (script name (Script.items p >>= next)).Answers whole chars reply :=
  first.script_step others

/-- A check that passes is no step. -/
theorem script_check {α : Type} {name : String} {checked : Except Fault α} {a : α}
    {next : α → Script Parser} (passed : checked = .ok a)
    (others : (script name (next a)).Answers whole chars reply) :
    (script name (Script.ofExcept checked >>= next)).Answers whole chars reply := by
  rw [passed]
  exact others

/-! ## Rules that refer to themselves -/

/-- On a text a rule is its body around the rule itself on fewer characters. -/
theorem run_recursive (body : Parser → Parser) {s : State} (within : s.Within whole chars) :
    (Parser.recursive body).run s = (body (Parser.within body chars.length)).run s := by
  rw [recursive_run, within.unread]

/-- Inside itself a rule does what it does, where fewer characters are left. -/
theorem run_within (body : Parser → Parser) {count : Nat} {s : State}
    (within : s.Within whole chars) (fewer : chars.length < count) :
    (Parser.within body count).run s = (Parser.recursive body).run s := by
  rw [← within.unread] at fewer
  exact if_pos fewer

/-- A rule answers as its body does around the rule itself. -/
theorem Answers.recursive {body : Parser → Parser}
    (answer : (body (Parser.within body chars.length)).Answers whole chars reply) :
    (Parser.recursive body).Answers whole chars reply := by
  intro s within
  rw [run_recursive body within]
  exact answer s within

/-- Inside itself a rule may be used where fewer characters are left. -/
theorem Answers.inside {body : Parser → Parser} {count : Nat}
    (answer : (Parser.recursive body).Answers whole chars reply) (fewer : chars.length < count) :
    (Parser.within body count).Answers whole chars reply := by
  intro s within
  rw [run_within body within fewer]
  exact answer s within

/-! ## Faults -/

variable {fault : Fault}

/-- A value of which nothing can be made stops a parser. -/
theorem Reads.map_raises {f : Value → Except Fault Value}
    (reads : p.Reads whole chars v rest) (unmade : f v = .error fault) :
    (p.map f).Raises whole chars fault := by
  refine reads.comesTo.raises ?_
  rw [unmade]
  exact fun _ _ => rfl

theorem Raises.bind {next : Value → Parser} (first : p.Raises whole chars fault) :
    (p.bind next).Raises whole chars fault :=
  fun s within => Run.result_bind_error _ _ fault (first s within)

theorem Raises.script {name : String} {next : Value → Script Parser}
    (raises : p.Raises whole chars fault) :
    (script name (.step p next)).Raises whole chars fault := by
  have bound : (p.bind fun v => Parser.script name (next v)).Raises whole chars fault := raises.bind
  exact bound

theorem Raises.chain {more : List Parser} (first : p.Raises whole chars fault) :
    (chain p more).Raises whole chars fault := by
  intro s within
  cases more with
  | nil =>
    rw [run_chain_nil]
    exact first s within
  | cons q more => exact Run.result_bind_error _ _ fault (first s within)

theorem Reads.chain_raises (first : p.Reads whole chars v middle)
    (second : q.Raises whole middle fault) : (Parser.chain p [q]).Raises whole chars fault := by
  have goes : (p.bind fun _ => Parser.chain q []).ComesTo whole chars (Parser.chain q []) middle :=
    first.comesTo
  exact (goes.renamed rfl).raises second.chain

/-- A fault in the first of some alternatives leaves the others untried. -/
theorem Raises.choice {more : List Parser} (first : p.Raises whole chars fault) :
    (choice p more).Raises whole chars fault := by
  intro s within
  cases more <;> exact Run.result_bind_error _ _ fault (first s within)

/-- A fault behind an alternative that fails. -/
theorem Refuses.either_raises (first : p.Refuses whole chars)
    (second : q.Raises whole chars fault) : (Parser.choice p [q]).Raises whole chars fault := by
  intro s within
  obtain ⟨reached, ran, shown⟩ := first s within
  have failed : reached.failed = true := shown
  change (attempt s none p [q]).result = .error fault
  rw [attempt_cons, Run.result_bind_ok _ _ _ ran, if_pos failed]
  exact Run.result_bind_error _ _ fault (second s within)

theorem Raises.recursive {body : Parser → Parser}
    (raises : (body (Parser.within body chars.length)).Raises whole chars fault) :
    (Parser.recursive body).Raises whole chars fault := by
  intro s within
  rw [run_recursive body within]
  exact raises s within

theorem Raises.inside {body : Parser → Parser} {count : Nat}
    (raises : (Parser.recursive body).Raises whole chars fault) (fewer : chars.length < count) :
    (Parser.within body count).Raises whole chars fault := by
  intro s within
  rw [run_within body within fewer]
  exact raises s within

/-! ## Whole texts -/

/-- What a text is parsed to depends on how the run ends only. -/
theorem parseValue_result (p : Parser) (t : String) :
    (p.parseValue (.ofString t)).result =
      ((p.followedBy atEnd).run (Setup.start {} (.ofString t))).result >>= fun reached =>
        match reached.error with
        | some failure => .error (.rejected failure)
        | none => .ok reached.value := by
  unfold Parser.parseValue reach
  dsimp only
  rw [Run.result_bind, Run.result_note, Run.result_bind]
  cases ((p.followedBy atEnd).run (Setup.start {} (.ofString t))).result with
  | error fault => rfl
  | ok reached =>
    rcases reached with ⟨value, input, offset, position, userState, _ | failure⟩
    · rfl
    · rfl

/-- A text on which a parser stops with a fault is parsed to that fault. -/
theorem Raises.parseValue {t : String} {fault : Fault}
    (raises : p.Raises t.toList.toArray t.toList fault) :
    (p.parseValue (.ofString t)).result = .error fault := by
  have stopped : ((p.followedBy atEnd).run (Setup.start {} (.ofString t))).result = .error fault :=
    Run.result_bind_error _ _ fault (raises _ (State.Within.start t))
  rw [parseValue_result, stopped]
  rfl

/-- A text is parsed to the value that is read from all of it. Any other answer is a failure. -/
theorem Answers.parseValue {t : String} (answer : p.Answers t.toList.toArray t.toList reply) :
    (∃ v, reply = some (v, []) ∧ (p.parseValue (.ofString t)).result = .ok v) ∨
      ((∀ v, reply ≠ some (v, [])) ∧
        ∃ failure, (p.parseValue (.ofString t)).result = .error (.rejected failure)) := by
  have outcome : ∀ {ended : Reply},
      (p.followedBy atEnd).Answers t.toList.toArray t.toList ended →
      ∃ reached : State, ((p.followedBy atEnd).reach {} (.ofString t)).result = .ok reached ∧
        reached.Shows t.toList.toArray ended := by
    intro ended answer
    obtain ⟨reached, ran, shows⟩ := answer _ (State.Within.start t)
    exact ⟨reached, reach_result {} _ ran, shows⟩
  have rejected : (p.followedBy atEnd).Refuses t.toList.toArray t.toList →
      ∃ failure, (p.parseValue (.ofString t)).result = .error (.rejected failure) := by
    intro refuses
    obtain ⟨reached, ran, shown⟩ := outcome refuses
    obtain ⟨failure, found⟩ := reached.error_of_failed shown
    refine ⟨failure, ?_⟩
    rw [Parser.parseValue, Run.result_bind_ok _ _ _ ran, found]
    rfl
  rcases reply with _ | ⟨v, _ | ⟨c, rest⟩⟩
  · exact Or.inr ⟨nofun, rejected (Refuses.followedBy answer)⟩
  · obtain ⟨reached, ran, value, within⟩ := outcome (Reads.followedBy answer reads_atEnd)
    refine Or.inl ⟨v, rfl, ?_⟩
    rw [Parser.parseValue, Run.result_bind_ok _ _ _ ran, within.ready.clean, ← value]
    rfl
  · exact Or.inr ⟨nofun, rejected (Reads.followedBy_refuses answer (refuses_atEnd c rest))⟩

/-- A text that is read to its end is parsed to the value. -/
theorem Reads.parseValue {t : String} (reads : p.Reads t.toList.toArray t.toList v []) :
    (p.parseValue (.ofString t)).result = .ok v := by
  rcases Answers.parseValue reads with ⟨w, same, parsed⟩ | ⟨other, _⟩
  · obtain rfl := congrArg Prod.fst (Option.some.inj same)
    exact parsed
  · exact absurd rfl (other v)

/-- A text that is refused is rejected. -/
theorem Refuses.parseValue {t : String} (refuses : p.Refuses t.toList.toArray t.toList) :
    ∃ failure, (p.parseValue (.ofString t)).result = .error (.rejected failure) := by
  rcases Answers.parseValue refuses with ⟨_, read, _⟩ | ⟨_, rejected⟩
  · cases read
  · exact rejected

end Parser
end Descent
