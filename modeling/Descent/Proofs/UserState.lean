import Descent.Proofs.Finality

/-!
# User states as part of the value

A grammar has a value for its own use, the user state, which a parser may read and replace. For
parsers that read their text straight on, that is no more than they could do without: a parser that
is run with a known user state behaves like one that never looks at it and gives, in place of a
value, the value together with the user state that would have been left. `exists_carrier` makes that
parser by following the given one constructor by constructor; where one parser chooses the next by
its value, the user state to go on with is read off the value too.

If the user state is left in the end as it was found, the second half of the pair says nothing, and
dropping it gives a parser that agrees with the given one on that user state in everything. It is
one of the `Straight` parsers, of which all is known.
-/

namespace Descent

variable {p q : Parser} {s t a b : State} {u : Value}

/-- Succeed with what a function makes of the user state, and put something else in its place. -/
def Parser.exchanging (f : Value → Value × Value) : Parser where
  name := "exchange"
  run s := pure { s.succeed (f s.userState).1 with userState := (f s.userState).2 }

/-- The parsers that read their text straight on, and may read and replace the user state. -/
inductive Stateful : Parser → Prop where
  | renamed {p q : Parser} (stateful : Stateful p) (sameRun : q.run = p.run) : Stateful q
  | succeed (v : Value) : Stateful (Parser.succeed v)
  | raising (fault : Fault) : Stateful (Parser.raising fault)
  | failing (message : String) (kind : FailureKind) (ordinary : kind ≠ .eof) :
      Stateful (Parser.failing message kind)
  | token (count : Nat) : Stateful (Parser.token count)
  | bind {p : Parser} {next : Value → Parser} (first : Stateful p)
      (second : ∀ v, Stateful (next v)) : Stateful (p.bind next)
  | label {p : Parser} (expected : String) (stateful : Stateful p) :
      Stateful (p.label expected)
  | noted {p : Parser} (n : Note) (stateful : Stateful p) : Stateful (p.noted n)
  | exchanging (f : Value → Value × Value) : Stateful (Parser.exchanging f)

/-- Whatever only puts parsers in order may use the user state if they do. -/
theorem Stateful.sequential : Sequential Stateful where
  renamed := .renamed
  succeed := .succeed
  raising := .raising
  refusal message := .failing message .failure nofun
  token := .token
  bind := .bind
  label := .label
  noted := .noted

/-! ## Carrying the user state along -/

/-- Two states at the same place of the same input, both failed in the same way or neither. -/
structure Abeam (s t : State) : Prop where
  input : s.input = t.input
  offset : s.offset = t.offset
  position : s.position = t.position
  error : s.error = t.error

theorem Abeam.failed (abeam : Abeam s t) : s.failed = t.failed := by
  rw [State.failed, State.failed, abeam.error]

/-- Another value, and another user state, are no other place. -/
theorem Abeam.with_userState (s : State) (u : Value) : Abeam { s with userState := u } s :=
  ⟨rfl, rfl, rfl, rfl⟩

/-- A value together with the user state that is left. -/
def carried (v u : Value) : Value := .list [v, u]

/-- The value of such a pair. -/
def uncarried : Value → Except Fault Value
  | .list [v, _] => .ok v
  | _ => .error .undefined

/-- The second state is abeam of the first, and if that succeeded has both its value and its user
state for a value. -/
structure CarriedBy (a b : State) : Prop where
  abeam : Abeam a b
  value : a.error = none → b.value = carried a.value a.userState

/-- One parser, run with a given user state, goes as far as another, which carries along what would
have become of the user state. -/
def Carries (u : Value) (p q : Parser) : Prop :=
  ∀ s t : State, Abeam s t → s.userState = u →
    Run.Corresponds CarriedBy (p.run s) (q.run t)

namespace Carries

theorem succeed (v : Value) : Carries u (Parser.succeed v) (Parser.succeed (carried v u)) := by
  intro s t abeam same
  refine Run.corresponds_pure _ _ _ ⟨?_, fun _ => ?_⟩
  · exact ⟨abeam.input, abeam.offset, abeam.position, rfl⟩
  · rw [← same]
    rfl

theorem exchanging (f : Value → Value × Value) :
    Carries u (Parser.exchanging f) (Parser.succeed (carried (f u).1 (f u).2)) := by
  intro s t abeam same
  subst same
  refine Run.corresponds_pure _ _ _ ⟨?_, fun _ => rfl⟩
  exact ⟨abeam.input, abeam.offset, abeam.position, rfl⟩

theorem raising (fault : Fault) : Carries u (Parser.raising fault) (Parser.raising fault) :=
  fun _ _ _ _ => Run.corresponds_raise _ fault

/-- A failure is never carried, whatever went before. -/
theorem failing (message : String) (kind : FailureKind) :
    Carries u (Parser.failing message kind) (Parser.failing message kind) := by
  intro s t abeam same
  refine Run.corresponds_pure _ _ _ ⟨?_, fun clean => ?_⟩
  · exact ⟨abeam.input, abeam.offset, abeam.position, by rw [abeam.error, abeam.position]⟩
  · cases earlier : s.error <;> simp [earlier, Failure.merge?] at clean

/-- Items are taken alike from one place. -/
theorem token_taken (count : Nat) (abeam : Abeam s t) :
    Run.Corresponds
      (fun a b => Abeam a b ∧ a.userState = s.userState ∧ (a.error = none → b.value = a.value))
      ((Parser.token count).run s) ((Parser.token count).run t) := by
  rcases s with ⟨value, input, offset, position, userState, error⟩
  rcases t with ⟨otherValue, _, _, _, otherUserState, _⟩
  obtain ⟨rfl, rfl, rfl, rfl⟩ := abeam
  by_cases short : (input.slice offset (offset + max 1 count)).size < max 1 count
  · simp only [Parser.token, if_pos short]
    refine Run.corresponds_pure _ _ _ ⟨⟨rfl, rfl, rfl, rfl⟩, rfl, fun clean => ?_⟩
    cases error <;> simp [Failure.merge?] at clean
  · simp only [Parser.token, if_neg short]
    exact Run.corresponds_pure _ _ _ ⟨⟨rfl, rfl, rfl, rfl⟩, rfl, fun _ => rfl⟩

/-- Once items are taken, the user state is put beside them. -/
theorem token (count : Nat) :
    Carries u (Parser.token count) ((Parser.token count).map fun v => .ok (carried v u)) := by
  intro s t abeam same
  rw [← bind_pure ((Parser.token count).run s)]
  refine Run.corresponds_bind _ _ _ _ _ _ (token_taken count abeam) ?_
  rintro a b ⟨level, kept, value⟩
  rw [← level.failed]
  by_cases failed : a.failed = true
  · rw [if_pos failed]
    refine Run.corresponds_pure _ _ _ ⟨level, fun clean => ?_⟩
    exact absurd failed (State.not_failed_of_clean clean)
  · rw [if_neg failed]
    have clean : a.error = none := a.error_of_not_failed failed
    refine Run.corresponds_pure _ _ _ ⟨?_, fun _ => ?_⟩
    · exact ⟨level.input, level.offset, level.position, clean⟩
    · rw [kept, same, ← value clean]
      rfl

/-- The second parser is chosen by the value, and the user state to go on with is in it too. -/
theorem bind {next : Value → Parser} {other : Value → Value → Parser} (first : Carries u p q)
    (second : ∀ v w, Carries w (next v) (other v w)) :
    Carries u (p.bind next) (q.bind fun
      | .list [v, w] => other v w
      | _ => Parser.succeed) := by
  intro s t abeam same
  refine Run.corresponds_bind _ _ _ _ _ _ (first s t abeam same) ?_
  intro a b carriedBy
  rw [← carriedBy.abeam.failed]
  by_cases failed : a.failed = true
  · rw [if_pos failed, if_pos failed]
    exact Run.corresponds_pure _ _ _ carriedBy
  · rw [if_neg failed, if_neg failed, carriedBy.value (a.error_of_not_failed failed)]
    exact second a.value a.userState a b carriedBy.abeam rfl

theorem label (expected : String) (member : Carries u p q) :
    Carries u (p.label expected) (q.label expected) := by
  intro s t abeam same
  refine Run.corresponds_bind _ _ _ _ _ _ (member s t abeam same) ?_
  intro a b carriedBy
  refine Run.corresponds_pure _ _ _ ⟨?_, fun clean => ?_⟩
  · exact ⟨carriedBy.abeam.input, carriedBy.abeam.offset, carriedBy.abeam.position,
      by rw [carriedBy.abeam.error]⟩
  · exact carriedBy.value (Option.map_eq_none_iff.mp clean)

theorem noted (n : Note) (member : Carries u p q) : Carries u (p.noted n) (q.noted n) :=
  fun s t abeam same => Run.corresponds_note _ n n _ _ (member s t abeam same)

end Carries

/-- For every parser of the class, and every user state that it may be run with, there is a parser
that reads straight on and carries the user state along. By induction on the parser. -/
theorem Stateful.exists_carrier (stateful : Stateful p) (u : Value) :
    ∃ q, Straight q ∧ Carries u p q := by
  induction stateful generalizing u with
  | renamed stateful sameRun inductionHypothesis =>
    obtain ⟨q, straight, carries⟩ := inductionHypothesis u
    refine ⟨q, straight, fun s t abeam same => ?_⟩
    rw [sameRun]
    exact carries s t abeam same
  | succeed v => exact ⟨_, .succeed _, .succeed v⟩
  | raising fault => exact ⟨_, .raising fault, .raising fault⟩
  | failing message kind ordinary =>
    exact ⟨_, .failing message kind ordinary, .failing message kind⟩
  | token count =>
    exact ⟨_, Straight.sequential.map _ (.token count), .token count⟩
  | bind first second ofFirst ofSecond =>
    obtain ⟨q, straight, carries⟩ := ofFirst u
    choose other straightOther carriesOther using ofSecond
    refine ⟨_, .bind straight ?_, carries.bind carriesOther⟩
    intro pair
    split
    · exact straightOther _ _
    · exact .succeed _
  | label expected stateful inductionHypothesis =>
    obtain ⟨q, straight, carries⟩ := inductionHypothesis u
    exact ⟨_, .label expected straight, carries.label expected⟩
  | noted n stateful inductionHypothesis =>
    obtain ⟨q, straight, carries⟩ := inductionHypothesis u
    exact ⟨_, .noted n straight, carries.noted n⟩
  | exchanging f => exact ⟨_, .succeed _, .exchanging f⟩

/-! ## Doing without the user state -/

/-- One parser, run with a given user state, goes as far as another and has the same value. What
user state the other is run with does not matter, and what becomes of it is left open. -/
def Follows (u : Value) (p q : Parser) : Prop :=
  ∀ s t : State, Abeam s t → s.userState = u →
    Run.Corresponds (fun a b => Abeam a b ∧ (a.error = none → b.value = a.value))
      (p.run s) (q.run t)

/-- For every parser of the class, and every user state that it may be run with, there is a parser
that reads straight on and does without. -/
theorem Stateful.exists_follower (stateful : Stateful p) (u : Value) :
    ∃ q, Straight q ∧ Follows u p q := by
  obtain ⟨q, straight, carries⟩ := stateful.exists_carrier u
  refine ⟨q.map uncarried, Straight.sequential.map _ straight, ?_⟩
  intro s t abeam same
  rw [← bind_pure (p.run s)]
  refine Run.corresponds_bind _ _ _ _ _ _ (carries s t abeam same) ?_
  intro a b carriedBy
  rw [← carriedBy.abeam.failed]
  by_cases failed : a.failed = true
  · rw [if_pos failed]
    refine Run.corresponds_pure _ _ _ ⟨carriedBy.abeam, fun clean => ?_⟩
    exact absurd failed (State.not_failed_of_clean clean)
  · rw [if_neg failed]
    have clean : a.error = none := a.error_of_not_failed failed
    rw [carriedBy.value clean]
    refine Run.corresponds_pure _ _ _ ⟨?_, fun _ => rfl⟩
    exact ⟨carriedBy.abeam.input, carriedBy.abeam.offset, carriedBy.abeam.position, clean⟩

/-- What follows a productive parser is productive. -/
theorem Follows.productive (follows : Follows u p q) (productive : Productive p) :
    Productive q := by
  have shadow : ∀ t : State, t.Ready → t.OnText → ∃ a b,
      (p.run { t with userState := u }).result = .ok a ∧ (q.run t).result = .ok b ∧
      Abeam a b := by
    intro t ready onText
    obtain ⟨a, ran⟩ :=
      productive.total { t with userState := u } ⟨ready.clean, ready.start, ready.inside⟩ onText
    cases follows _ t (Abeam.with_userState t u) rfl with
    | faulted fault left right => cases ran.symm.trans left
    | ended a b left right together => exact ⟨a, b, left, right, together.1⟩
  constructor
  · intro t ready onText
    obtain ⟨a, b, _, ran, _⟩ := shadow t ready onText
    exact ⟨b, ran⟩
  · intro t reached ready onText ran clean
    obtain ⟨a, b, left, right, abeam⟩ := shadow t ready onText
    obtain rfl := Except.ok.inj (ran.symm.trans right)
    have further := productive.consumes { t with userState := u } a
      ⟨ready.clean, ready.start, ready.inside⟩ onText left (abeam.error.trans clean)
    rw [← abeam.offset]
    exact further

/-- A parser that reads straight on is stable. -/
theorem Straight.stable (straight : Straight p) : Stable p where
  success s reached more ready onText ran clean := by
    have settled : Failure.Settled reached.error := by
      intro e found
      cases clean.symm.trans found
    exact ⟨_, straight.extended ready.clean ready.start onText more ran settled,
      (reached.extended_error more).trans clean, reached.extended_value more,
      reached.extended_offset more⟩
  failure s reached more e ready onText ran failed ordinary := by
    have settled : Failure.Settled reached.error := by
      intro f found
      obtain rfl := Option.some.inj (failed.symm.trans found)
      exact ordinary
    refine ⟨_, e, straight.extended ready.clean ready.start onText more ran settled,
      (reached.extended_error more).trans failed, ?_⟩
    simp [Failure.same, Position.samePlace]

end Descent
