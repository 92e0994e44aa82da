import Descent.Proofs.Chunks
import Descent.Proofs.UserState

/-!
# Handles that serve another parser

A handle runs its parser with one user state only, the one that it was set up with: a pass keeps
the position that it reaches and the text that is left, and drops the user state. So it makes no
difference to a handle if its parser is exchanged for another that agrees with it on that user
state. Here this is carried from the runs of the parser through repetition, passes and calls to
whole sessions.

For parsers that leave the user state as they find it this settles how a text may be cut,
`chunking_irrelevant_keeping`: a parser that does without the user state takes their place, and for
that one more text is known to change nothing. For others the cut matters, because a pass that is
begun too early begins with the wrong user state: `userState_lost_between_passes`.
-/

namespace Descent

variable {claimsEnd : Prop} {u : Value} {p q : Parser} {s : State} {setup : Setup}

/-! ## Agreement -/

/-- With a given user state, two parsers stop with one fault, or fail with one failure, or reach the
same state. -/
def Agrees (u : Value) (p q : Parser) : Prop :=
  ∀ s : State, s.Ready → s.OnText → s.userState = u →
    Run.Corresponds (fun a b => a.error = b.error ∧ (a.error = none → a = b)) (p.run s) (q.run s)

/-- A parser leaves a given user state as it finds it whenever it succeeds. -/
def Keeps (u : Value) (p : Parser) : Prop :=
  ∀ s reached : State, s.Ready → s.OnText → s.userState = u →
    (p.run s).result = .ok reached → reached.error = none → reached.userState = u

/-- A parser that keeps the user state agrees with what follows it. -/
theorem Follows.agrees (follows : Follows u p q) (straight : Straight q) (keeps : Keeps u p) :
    Agrees u p q := by
  intro s ready onText same
  cases follows s s ⟨rfl, rfl, rfl, rfl⟩ same with
  | faulted fault left right => exact .faulted fault left right
  | ended a b left right together =>
    obtain ⟨abeam, value⟩ := together
    refine .ended a b left right ⟨abeam.error, fun clean => ?_⟩
    have kept : a.userState = b.userState := by
      rw [keeps s a ready onText same left clean, (straight.built.leads s ready b right).userState,
        same]
    rcases a with ⟨_, _, _, _, _, _⟩
    rcases b with ⟨_, _, _, _, _, _⟩
    rw [State.mk.injEq]
    exact ⟨(value clean).symm, abeam.input, abeam.offset, abeam.position, kept, abeam.error⟩

/-! ## Repetition -/

/-- Two rounds that failed with one failure, or are the same and may be followed by another. -/
inductive RoundAgreed (u : Value) : Round → Round → Prop where
  | refused {a b : State} {e : Failure} (left : a.error = some e) (right : b.error = some e) :
      RoundAgreed u (.refused a) (.refused b)
  | complete {v : Value} {reached : State} (ready : reached.Ready) (onText : reached.OnText)
      (kept : reached.userState = u) : RoundAgreed u (.complete v reached) (.complete v reached)

/-- Two rows of rounds that found the same and ended with one failure. -/
structure HarvestAgreed (h k : Harvest) : Prop where
  values : h.values = k.values
  reached : h.reached = k.reached
  refusal : ∃ a b e, h.refusal = some a ∧ k.refusal = some b ∧ a.error = some e ∧ b.error = some e

namespace Agrees

/-- One round of a repetition. -/
theorem round (agrees : Agrees u p q) (built : Built claimsEnd q) (ready : s.Ready)
    (onText : s.OnText) (same : s.userState = u) :
    Run.Corresponds (RoundAgreed u) (Parser.roundOf p s) (Parser.roundOf q s) := by
  have leads : (q.run s).Ensures (Leads claimsEnd s) := built.leads s ready
  refine Run.corresponds_bind _ _ _ _ _ _
    ((agrees s ready onText same).ensuring (fun _ _ => trivial) leads) ?_
  rintro a b ⟨⟨sameError, sameState⟩, _, leadsTo⟩
  cases outcome : a.error with
  | none =>
    obtain rfl := sameState outcome
    rw [if_neg (State.not_failed_of_clean outcome)]
    exact Run.corresponds_pure _ _ _ (.complete (leadsTo.ready ready outcome)
      (leadsTo.onText onText) (leadsTo.userState.trans same))
  | some e =>
    have refused : b.error = some e := sameError.symm.trans outcome
    rw [if_pos (State.failed_of_error outcome), if_pos (State.failed_of_error refused)]
    exact Run.corresponds_pure _ _ _ (.refused outcome refused)

/-- All rounds of a repetition, by induction on what is unread. -/
theorem roundsOn (agrees : Agrees u p q) (built : Built claimsEnd q) (site : Site)
    (ready : s.Ready) (onText : s.OnText) (same : s.userState = u) :
    Run.Corresponds HarvestAgreed (Parser.roundsOn site (Parser.roundOf p) s)
      (Parser.roundsOn site (Parser.roundOf q) s) := by
  induction size : s.unread using Nat.strongRecOn generalizing s with
  | ind unread inductionHypothesis =>
    rw [Parser.roundsOn_eq, Parser.roundsOn_eq]
    apply Run.corresponds_bind _ _ _ _ _ _ (agrees.round built ready onText same)
    intro left right agreed
    cases agreed with
    | @refused a b e failed refused =>
      exact Run.corresponds_pure _ _ _ ⟨rfl, rfl, a, b, e, rfl, rfl, failed, refused⟩
    | @complete v reached readyThere onTextThere kept =>
      dsimp only [Round.proceed]
      by_cases less : reached.unread < s.unread
      · rw [if_pos less, if_pos less]
        apply Run.corresponds_bind _ _ _ _ _ _
          (inductionHypothesis _ (size ▸ less) readyThere onTextThere kept rfl)
        intro h k found
        refine Run.corresponds_pure _ _ _ ⟨?_, found.reached, found.refusal⟩
        exact congrArg (v :: ·) found.values
      · rw [if_neg less, if_neg less]
        exact Run.corresponds_raise _ _

/-- Unbounded repetitions of parsers that agree agree. -/
theorem collect (agrees : Agrees u p q) (built : Built claimsEnd q) (least : Nat) :
    Agrees u (p.collect (.atLeast least)) (q.collect (.atLeast least)) := by
  intro s ready onText same
  change Run.Corresponds _ (Parser.repeated .collect (Parser.roundOf p) (.atLeast least) s)
    (Parser.repeated .collect (Parser.roundOf q) (.atLeast least) s)
  rw [Parser.repeated_eq, Parser.repeated_eq]
  apply Run.corresponds_bind _ _ _ _ _ _ (agrees.roundsOn built .collect ready onText same)
  intro h k found
  refine Run.corresponds_pure _ _ _ ?_
  obtain ⟨a, b, e, left, right, failed, refused⟩ := found.refusal
  unfold Harvest.settle
  rw [left, right, found.values, found.reached]
  dsimp only
  cases (Bounds.atLeast least).least.exceeds k.values.length with
  | true =>
    refine ⟨failed.trans refused.symm, fun clean => ?_⟩
    cases clean.symm.trans failed
  | false => exact ⟨rfl, fun _ => rfl⟩

end Agrees

/-! ## Handles -/

namespace Handle

variable {h : Handle}

/-- The handle with another parser. -/
def serving (h : Handle) (q : Parser) : Handle := { h with parser := q }

/-- A failure waits or counts whatever the parser is. -/
theorem afterFailure_serving (e : Failure) :
    (h.serving q).afterFailure e = (h.afterFailure e).serving q ∧
      (h.afterFailure e).parser = h.parser ∧ (h.afterFailure e).userState = h.userState := by
  have sameWait : (e.wasEof && !(h.serving q).closed) = (e.wasEof && !h.closed) := rfl
  unfold afterFailure
  rw [sameWait]
  split <;> exact ⟨rfl, rfl, rfl⟩

/-- A pass does the same with a parser that agrees. -/
theorem pass_serving (agrees : Agrees h.userState h.parser q) :
    ∃ done, h.pass.result = .ok done ∧
      (h.serving q).pass.result = .ok { done with handle := done.handle.serving q } ∧
      done.handle.parser = h.parser ∧ done.handle.userState = h.userState := by
  cases due : h.closed && h.buffer.isEmpty with
  | true => exact ⟨_, pass_idle h due, pass_idle (h.serving q) due, rfl, rfl⟩
  | false =>
    cases agrees h.front (State.front_ready _ _ _) (State.front_onText _ _ _) rfl with
    | faulted fault left right =>
      refine ⟨_, pass_faulted h fault due left, ?_⟩
      rw [pass_faulted (h.serving q) fault due right]
      cases fault with
      | rejected e =>
        obtain ⟨serving, parser, userState⟩ := afterFailure_serving (h := h) (q := q) e
        refine ⟨?_, parser, userState⟩
        simp only [faulted, serving]
      | _ => exact ⟨rfl, rfl, rfl⟩
    | ended a b left right together =>
      obtain ⟨sameError, sameState⟩ := together
      refine ⟨_, pass_reached h due left, ?_⟩
      rw [pass_reached (h.serving q) due right, ← sameError]
      cases outcome : a.error with
      | none =>
        obtain rfl := sameState outcome
        exact ⟨rfl, rfl, rfl⟩
      | some e =>
        obtain ⟨serving, parser, userState⟩ := afterFailure_serving (h := h) (q := q) e
        refine ⟨?_, parser, userState⟩
        simp only [serving]

/-- So does a drain, by induction on the length of the buffer. -/
theorem drain_serving (agrees : Agrees h.userState h.parser q) :
    ∃ after fault, h.drain.result = .ok (after, fault) ∧
      (h.serving q).drain.result = .ok (after.serving q, fault) := by
  induction size : h.buffer.size using Nat.strongRecOn generalizing h with
  | ind length inductionHypothesis =>
    obtain ⟨done, passed, passedServing, parser, userState⟩ := pass_serving agrees
    rw [drain, drain, Run.result_bind_ok _ _ _ passed, Run.result_bind_ok _ _ _ passedServing]
    by_cases further : done.progressed = true ∧ done.handle.buffer.size < h.buffer.size
    · obtain ⟨after, fault, drained, drainedServing⟩ :=
        inductionHypothesis _ (size ▸ further.2) (userState.symm ▸ parser.symm ▸ agrees) rfl
      exact ⟨after, fault, (congrArg Run.result (if_pos further)).trans drained,
        (congrArg Run.result (if_pos further)).trans drainedServing⟩
    · exact ⟨done.handle, done.fault, congrArg Run.result (if_neg further),
        congrArg Run.result (if_neg further)⟩

/-- So does the handle's part of a call. -/
theorem accept_serving (agrees : Agrees h.userState h.parser q) (call : Call) :
    ∃ after verdict, (h.accept call).result = .ok (after, verdict) ∧
      ((h.serving q).accept call).result = .ok (after.serving q, verdict) := by
  have drained : ∀ first : Handle, Agrees first.userState first.parser q →
      ∃ after verdict, first.drained.result = .ok (after, verdict) ∧
        (first.serving q).drained.result = .ok (after.serving q, verdict) := by
    intro first agreed
    obtain ⟨after, fault, ran, ranServing⟩ := drain_serving agreed
    exact ⟨after, _, Run.result_bind_ok _ _ _ ran, Run.result_bind_ok _ _ _ ranServing⟩
  cases closed : h.closed with
  | true => exact ⟨h, _, accept_closed h call closed, accept_closed (h.serving q) call closed⟩
  | false =>
    rcases h with ⟨parser, userState, position, buffer, isClosed, failure, pending⟩
    dsimp only at closed
    subst closed
    cases call with
    | data chunk =>
      cases failure with
      | some e => exact ⟨_, _, rfl, rfl⟩
      | none =>
        exact drained
          ⟨parser, userState, position, buffer ++ chunk.toList.toArray, false, none, pending⟩ agrees
    | finish =>
      cases failure with
      | some e => exact ⟨_, _, rfl, rfl⟩
      | none => exact drained ⟨parser, userState, position, buffer, true, none, pending⟩ agrees
    | error text => exact ⟨_, _, rfl, rfl⟩

end Handle

namespace Session

/-- The session whose handle has another parser. -/
def serving (s : Session) (q : Parser) : Session := { s with handle := s.handle.serving q }

variable {s : Session}

/-- A call for a quiet listener comes to the same with a parser that agrees. -/
theorem call_serving (quiet : s.reactions = [])
    (agrees : Agrees s.handle.userState s.handle.parser q) (call : Call) :
    ∃ after fault, (s.call call).result = .ok (after, fault) ∧
      ((s.serving q).call call).result = .ok (after.serving q, fault) ∧ after.reactions = [] ∧
      Agrees after.handle.userState after.handle.parser q := by
  obtain ⟨h, verdict, accepted, acceptedServing⟩ := Handle.accept_serving agrees call
  have answers := Handle.answers_of_accepted accepted
  have kept : Agrees h.userState h.parser q := by
    rw [answers.setup.1, answers.setup.2]
    exact agrees
  cases verdict with
  | deliver =>
    exact ⟨_, none, call_delivered s quiet call h accepted,
      call_delivered (s.serving q) quiet call _ acceptedServing, quiet, kept⟩
  | silent =>
    obtain rfl := Handle.accept_silent accepted
    exact ⟨s, none, call_silent s call accepted,
      call_silent (s.serving q) call acceptedServing, quiet, kept⟩
  | fault fault =>
    exact ⟨_, some fault, call_faulted s call h fault accepted,
      call_faulted (s.serving q) call _ fault acceptedServing, quiet, kept⟩

/-- A row of calls comes to the same, by induction on the row. -/
theorem calls_serving (quiet : s.reactions = [])
    (agrees : Agrees s.handle.userState s.handle.parser q) (row : List Call) :
    ∃ last faults, (calls row s).result = .ok (last, faults) ∧
      (calls row (s.serving q)).result = .ok (last.serving q, faults) := by
  induction row generalizing s with
  | nil => exact ⟨s, [], rfl, rfl⟩
  | cons call later inductionHypothesis =>
    obtain ⟨after, fault, called, calledServing, still, agreesAfter⟩ :=
      call_serving quiet agrees call
    obtain ⟨last, faults, went, wentServing⟩ := inductionHypothesis still agreesAfter
    exact ⟨last, fault :: faults, calls_cons called went, calls_cons calledServing wentServing⟩

end Session

/-! ## How a text is cut -/

/-- What is reported of the chunks of a text, for a parser that keeps the user state, is the course
that a parser makes of the text which does without. -/
theorem Session.feeding_agreed (agrees : Agrees setup.userState p q) (built : Built claimsEnd q)
    (productive : Productive q) (stable : Stable q) (chunks : List String)
    (some_chunk : chunks ≠ []) :
    ∃ values stop after,
      (calls (chunks.map .data ++ [.finish]) { handle := Handle.start p setup }).result =
        .ok (after, List.replicate (chunks.length + 1) none) ∧
      Finished q setup (String.join chunks).toList values stop
        (after.serving (q.collect (.atLeast 1))) := by
  obtain ⟨values, stop, after, went, finished⟩ :=
    feeding built productive stable setup chunks some_chunk
  let start : Session := { handle := Handle.start p setup }
  have repeated : Agrees start.handle.userState start.handle.parser (q.collect (.atLeast 1)) :=
    agrees.collect built 1
  have quiet : start.reactions = [] := rfl
  obtain ⟨last, faults, ran, ranServing⟩ :=
    calls_serving quiet repeated (chunks.map .data ++ [.finish])
  obtain ⟨rfl, rfl⟩ := Prod.mk.inj (Except.ok.inj (ranServing.symm.trans went))
  exact ⟨values, stop, last, ran, finished⟩

/-- How a text is cut into chunks makes no difference to what is reported of it for a parser that
reads its text straight on, and which may read and replace the user state as long as it leaves it as
it was found. No call faults.

Proof: there is a parser that does without the user state and agrees with the given one on the user
state that the handle was set up with, which is the one that every pass begins with. More text
changes nothing that this parser has settled, so either row of chunks is reported as the course that
it makes of the joined text, and a text has one course only. -/
theorem chunking_irrelevant_keeping (stateful : Stateful p) (productive : Productive p)
    (keeps : Keeps setup.userState p) (first second : List String) (someFirst : first ≠ [])
    (someSecond : second ≠ []) (sameText : String.join first = String.join second) :
    ∃ left right : Session,
      (Session.calls (first.map .data ++ [.finish]) { handle := Handle.start p setup }).result =
        .ok (left, List.replicate (first.length + 1) none) ∧
      (Session.calls (second.map .data ++ [.finish]) { handle := Handle.start p setup }).result =
        .ok (right, List.replicate (second.length + 1) none) ∧
      left.made = right.made ∧ left.handle.position = right.handle.position := by
  obtain ⟨q, straight, follows⟩ := stateful.exists_follower setup.userState
  have agrees : Agrees setup.userState p q := follows.agrees straight keeps
  have productiveFollower : Productive q := follows.productive productive
  obtain ⟨values, stop, left, wentLeft, finishedLeft⟩ := Session.feeding_agreed agrees
    straight.built productiveFollower straight.stable first someFirst
  obtain ⟨otherValues, otherStop, right, wentRight, finishedRight⟩ := Session.feeding_agreed agrees
    straight.built productiveFollower straight.stable second someSecond
  have course := finishedRight.course
  rw [← sameText] at course
  obtain ⟨rfl, rfl⟩ := finishedLeft.course.unique course
  have made : left.made.toList = right.made.toList :=
    finishedLeft.made.trans finishedRight.made.symm
  exact ⟨left, right, wentLeft, wentRight, Array.toList_inj.mp made,
    finishedLeft.position.trans finishedRight.position.symm⟩

/-- A productive parser stays productive when others follow that succeed where they are. -/
theorem Productive.bind_staying {next : Value → Parser} (productive : Productive p)
    (staying : ∀ v s, ∃ reached, ((next v).run s).result = .ok reached ∧ reached.error = none ∧
      reached.offset = s.offset) : Productive (p.bind next) where
  total s ready onText := by
    obtain ⟨middle, went⟩ := productive.total s ready onText
    rw [Parser.bind, Run.result_bind_ok _ _ _ went]
    by_cases failed : middle.failed = true
    · exact ⟨middle, by rw [if_pos failed]; rfl⟩
    · obtain ⟨reached, ran, _⟩ := staying middle.value middle
      exact ⟨reached, by rw [if_neg failed]; exact ran⟩
  consumes s reached ready onText ran clean := by
    obtain ⟨middle, went, rest⟩ := Run.result_bind_inv _ _ _ ran
    by_cases failed : middle.failed = true
    · rw [if_pos failed] at rest
      obtain rfl := Except.ok.inj rest
      exact absurd failed (State.not_failed_of_clean clean)
    · rw [if_neg failed] at rest
      obtain ⟨other, same, _, offset⟩ := staying middle.value middle
      obtain rfl := Except.ok.inj (rest.symm.trans same)
      rw [offset]
      exact productive.consumes s middle ready onText went (middle.error_of_not_failed failed)

/-- Take a character, hide it in the user state for a moment, and give it back together with the
user state that was there. -/
def Parser.borrowing : Parser :=
  token.bind fun c =>
    (exchanging fun u => (u, c)).bind fun u => exchanging fun hidden => (.list [u, hidden], u)

/-- Text is cut in two ways for a parser that replaces the user state twice and has it back in the
end. -/
theorem chunking_irrelevant_keeping_borrowed :
    ∃ left right : Session,
      (Session.calls [.data "ab", .finish]
        { handle := Handle.start Parser.borrowing { userState := .int 7 } }).result =
          .ok (left, [none, none]) ∧
      (Session.calls [.data "a", .data "b", .finish]
        { handle := Handle.start Parser.borrowing { userState := .int 7 } }).result =
          .ok (right, [none, none, none]) ∧
      left.made = right.made ∧ left.handle.position = right.handle.position := by
  have stateful : Stateful Parser.borrowing :=
    .bind (.token 1) fun _ => .bind (.exchanging _) fun _ => .exchanging _
  have productive : Productive Parser.borrowing :=
    (Productive.token 1).bind_staying fun _ _ => ⟨_, rfl, rfl, rfl⟩
  have keeps : Keeps (.int 7) Parser.borrowing := by
    intro s reached ready onText same ran clean
    obtain ⟨middle, went, rest⟩ := Run.result_bind_inv _ _ _ ran
    have leads : Leads False s middle := (Built.token 1).leads s ready middle went
    by_cases failed : middle.failed = true
    · rw [if_pos failed] at rest
      obtain rfl := Except.ok.inj rest
      exact absurd failed (State.not_failed_of_clean clean)
    · rw [if_neg failed] at rest
      obtain rfl := Except.ok.inj rest
      exact leads.userState.trans same
  exact chunking_irrelevant_keeping stateful productive keeps ["ab"] ["a", "b"] (by decide)
    (by decide) (by decide)

/-- Take a character and give the number that it has, which the user state counts. -/
def Parser.numbering : Parser :=
  token.bind fun _ => exchanging fun
    | .int n => (.int n, .int (n + 1))
    | other => (other, other)

/-- A parser that counts in the user state numbers two characters of one chunk in order, and starts
again with the second when they come in two chunks. -/
theorem userState_lost_between_passes :
    Stateful Parser.numbering ∧ Productive Parser.numbering ∧
      ∃ left right : Session,
        (Session.calls [.data "ab", .finish]
          { handle := Handle.start Parser.numbering { userState := .int 0 } }).result =
            .ok (left, [none, none]) ∧
        (Session.calls [.data "a", .data "b", .finish]
          { handle := Handle.start Parser.numbering { userState := .int 0 } }).result =
            .ok (right, [none, none, none]) ∧
        left.made = #[.value (.int 0), .value (.int 1)] ∧
        right.made = #[.value (.int 0), .value (.int 0)] := by
  have stateful : Stateful Parser.numbering := .bind (.token 1) fun _ => .exchanging _
  have productive : Productive Parser.numbering :=
    (Productive.token 1).bind_staying fun _ _ => ⟨_, rfl, rfl, rfl⟩
  let ended : Handle :=
    { Handle.start Parser.numbering { userState := .int 0 } with
      position := ⟨1, 2, none⟩, closed := true }
  have together : (Session.calls [.data "ab", .finish]
      { handle := Handle.start Parser.numbering { userState := .int 0 } }).result =
        .ok (⟨ended, [], #[.value (.int 0), .value (.int 1)]⟩, [none, none]) := by
    cbv
  have apart : (Session.calls [.data "a", .data "b", .finish]
      { handle := Handle.start Parser.numbering { userState := .int 0 } }).result =
        .ok (⟨ended, [], #[.value (.int 0), .value (.int 0)]⟩, [none, none, none]) := by
    cbv
  exact ⟨stateful, productive, _, _, together, apart, rfl, rfl⟩

end Descent
