import Descent.Proofs.Draining

/-!
# What the calls on a handle find

Whatever its parser is, a handle that is drained makes a row of passes. A pass that parses
something finds the values of a repetition, and the handle moves behind them; the row ends when a
pass finds nothing, or with a pass that finds a failure that counts. `findings` says what is found,
by the runs of the parser alone, and `finds` does so for a whole call. The queue of reports plays no
part in either. `Drains` and `Answers` tell besides what becomes of the handle.

Every call is told in this way, `accept_answers`. What holds of calls is therefore an induction on
the row: what was found, and nothing else, is put into the queue; the values come before the
failure; and a built parser divides the text that waited into what it consumed and what is left.
-/

namespace Descent

variable {claimsEnd : Prop} {p : Parser} {h after : Handle} {reports : List Report}

/-- Two stretches of text one after the other are passed over in order. -/
theorem Position.overText_append (position : Position) (first second : List Char) :
    position.overText (first ++ second) = (position.overText first).overText second := by
  simp only [overText_eq_along, List.map_append, along_append]

/-- A success divides the text that was ahead into what it consumed, over which the position has
moved, and what is ahead now. -/
theorem Leads.divides {s reached : State} (ready : s.Ready) (onText : s.OnText)
    (leads : Leads claimsEnd s reached) (succeeded : reached.error = none) :
    ∃ consumed, s.textAhead = consumed ++ reached.textAhead ∧
      reached.position = s.position.overText consumed := by
  have few : s.passed reached ≤ s.unread := by
    have total := leads.passed_add_unread ready succeeded
    omega
  refine ⟨s.textAhead.take (s.passed reached), ?_, ?_⟩
  · rw [leads.textAhead ready onText succeeded, List.take_append_drop]
  · rw [leads.position, State.place_inside s ready _ few, State.remaining_eq_text s onText,
      Position.overText_eq_along]
    simp [Input.breaks, List.map_take]

namespace Handle

/-- Behind what was parsed, the text that waits is the one that is ahead then. -/
theorem advanced_buffer (h : Handle) {reached : State} (onText : reached.OnText) :
    (h.advanced reached).buffer = reached.textAhead.toArray := by
  simp only [advanced, State.remaining_eq_text reached onText]

/-! ## What is found -/

/-- A failure is reported unless it blames the end and more text may come. -/
def reportable (h : Handle) (e : Failure) : List Report :=
  if e.wasEof && !h.closed then [] else [.failure e]

/-- What passes over the buffer find, told by the runs of the parser alone. A run that succeeds
finds values, and more may be found behind them; a failure is found if it counts. -/
def findings (h : Handle) : List Report :=
  if h.closed && h.buffer.isEmpty then []
  else
    match (h.parser.run h.front).result with
    | .error (.rejected e) => h.reportable e
    | .error _ => []
    | .ok reached =>
      match reached.error with
      | some e => h.reportable e
      | none =>
        (reached.value.items?.getD []).map .value ++
          if (h.advanced reached).buffer.size < h.buffer.size then findings (h.advanced reached)
          else []
termination_by h.buffer.size

/-- The parser meets a failure on the buffer: it ends with it, or a function inside it raises it. -/
inductive Meets (h : Handle) (e : Failure) : Prop where
  | ended {reached : State} (ran : (h.parser.run h.front).result = .ok reached)
      (failed : reached.error = some e)
  | raised (ran : (h.parser.run h.front).result = .error (.rejected e))

/-- Whether a failure is met lies with the parser and with what it is started on. -/
theorem Meets.of_front {e : Failure} (met : h.Meets e) (parser : after.parser = h.parser)
    (front : after.front = h.front) : after.Meets e := by
  cases met with
  | ended ran failed => exact .ended (by rw [parser, front, ran]) failed
  | raised ran => exact .raised (by rw [parser, front, ran])

/-- A failure that is met on a buffer that is to be parsed is all that is found there. -/
theorem Meets.findings {e : Failure} (met : h.Meets e)
    (due : (h.closed && h.buffer.isEmpty) = false) :
    h.findings = h.reportable e := by
  unfold Handle.findings
  rw [if_neg (Bool.eq_false_iff.mp due)]
  cases met with
  | ended ran failed => simp only [ran, failed]
  | raised ran => simp only [ran]

/-! ## Passes -/

/-- What one pass over the buffer may come to. A fault leaves the handle as it was, and so does a
failure that waits for more text. -/
inductive Passes (h : Handle) : Pass → Prop where
  | idle (fault : Option Fault) (nothing : h.findings = []) : Passes h { handle := h, fault }
  | refuses {e : Failure} (met : h.Meets e) (counts : (e.wasEof && !h.closed) = false)
      (only : h.findings = [.failure e]) : Passes h { handle := h.refused e }
  | advances {reached : State} (ran : (h.parser.run h.front).result = .ok reached)
      (succeeded : reached.error = none)
      (further : h.findings = (reached.value.items?.getD []).map .value ++
        if (h.advanced reached).buffer.size < h.buffer.size then (h.advanced reached).findings
        else []) :
      Passes h { handle := h.advanced reached, progressed := true }

/-- A failure that is met waits, or it is reported. -/
theorem Meets.passes {e : Failure} (met : h.Meets e)
    (due : (h.closed && h.buffer.isEmpty) = false) :
    h.Passes { handle := h.afterFailure e } := by
  have found := met.findings due
  unfold reportable at found
  unfold afterFailure
  cases waits : e.wasEof && !h.closed with
  | true => exact .idle none (by simpa [waits] using found)
  | false => exact .refuses met waits (by simpa [waits] using found)

/-- Every pass ends, and comes to one of the three. -/
theorem pass_passes (h : Handle) : ∃ done, h.pass.result = .ok done ∧ h.Passes done := by
  cases due : h.closed && h.buffer.isEmpty with
  | true =>
    have nothing : h.findings = [] := by
      unfold findings
      exact if_pos due
    exact ⟨_, pass_idle h due, .idle none nothing⟩
  | false =>
    have going : ¬ (h.closed && h.buffer.isEmpty) = true := Bool.eq_false_iff.mp due
    cases ran : (h.parser.run h.front).result with
    | error fault =>
      refine ⟨_, pass_faulted h fault due ran, ?_⟩
      cases fault with
      | rejected e => exact (Meets.raised ran).passes due
      | _ =>
        apply Passes.idle (some _)
        unfold findings
        rw [if_neg going]
        simp only [ran]
    | ok reached =>
      refine ⟨_, pass_reached h due ran, ?_⟩
      cases outcome : reached.error with
      | some e => exact (Meets.ended ran outcome).passes due
      | none =>
        apply Passes.advances ran outcome
        conv => lhs; unfold findings
        rw [if_neg going]
        simp only [ran, outcome]

/-! ## Rows of passes -/

/-- A row of passes from one handle to another, and what they found. -/
inductive Drains : Handle → List Report → Handle → Prop where
  | rests (h : Handle) : Drains h [] h
  | refuses {h : Handle} {e : Failure} (met : h.Meets e)
      (counts : (e.wasEof && !h.closed) = false) : Drains h [.failure e] (h.refused e)
  | advances {h after : Handle} {reached : State} {later : List Report}
      (ran : (h.parser.run h.front).result = .ok reached) (succeeded : reached.error = none)
      (rest : Drains (h.advanced reached) later after) :
      Drains h ((reached.value.items?.getD []).map .value ++ later) after

/-- A drain is a row of passes that finds all there is to be found, by induction on the length of
the buffer: it goes on only where a pass has shortened it. -/
theorem drain_drains (h : Handle) :
    ∃ after fault, h.drain.result = .ok (after, fault) ∧ h.Drains h.findings after := by
  induction size : h.buffer.size using Nat.strongRecOn generalizing h with
  | ind length inductionHypothesis =>
    obtain ⟨done, passed, passes⟩ := pass_passes h
    rw [drain, Run.result_bind_ok _ _ _ passed]
    cases passes with
    | idle fault nothing =>
      rw [nothing]
      exact ⟨h, fault, by simp [Run.pure_eq], .rests h⟩
    | refuses met counts only =>
      rw [only]
      exact ⟨_, none, by simp [Run.pure_eq], .refuses met counts⟩
    | @advances reached ran succeeded further =>
      dsimp only
      rw [further]
      by_cases shorter : (h.advanced reached).buffer.size < h.buffer.size
      · rw [if_pos ⟨rfl, shorter⟩, if_pos shorter]
        obtain ⟨after, fault, drained, rest⟩ :=
          inductionHypothesis _ (size ▸ shorter) (h.advanced reached) rfl
        exact ⟨after, fault, drained, .advances ran succeeded rest⟩
      · rw [if_neg fun further => shorter further.2, if_neg shorter]
        exact ⟨_, none, rfl, .advances ran succeeded (.rests _)⟩

namespace Drains

/-- What was found, and nothing else, has been put into the queue. -/
theorem pending (drains : h.Drains reports after) : after.pending = h.pending ++ reports := by
  induction drains with
  | rests h => simp
  | refuses met counts => rfl
  | advances ran succeeded rest inductionHypothesis =>
    rw [inductionHypothesis]
    simp [advanced]

/-- Passes neither open nor close a handle. -/
theorem closed (drains : h.Drains reports after) : after.closed = h.closed := by
  induction drains with
  | rests h => rfl
  | refuses met counts => rfl
  | advances ran succeeded rest inductionHypothesis => exact inductionHypothesis

/-- Passes keep what the handle was set up with. -/
theorem setup (drains : h.Drains reports after) :
    after.parser = h.parser ∧ after.userState = h.userState := by
  induction drains with
  | rests h => exact ⟨rfl, rfl⟩
  | refuses met counts => exact ⟨rfl, rfl⟩
  | advances ran succeeded rest inductionHypothesis => exact inductionHypothesis

/-- What was found are values, and behind them the failure of the handle if it has failed. -/
theorem shape (drains : h.Drains reports after) (unfailed : h.failure = none) :
    ∃ values : List Value,
      reports = values.map .value ++ after.failure.toList.map .failure := by
  induction drains with
  | rests h => exact ⟨[], by simp [unfailed]⟩
  | refuses met counts => exact ⟨[], rfl⟩
  | @advances _ _ reached _ ran succeeded rest inductionHypothesis =>
    obtain ⟨values, later⟩ := inductionHypothesis unfailed
    exact ⟨reached.value.items?.getD [] ++ values, by simp [later]⟩

/-- A failure that passes have found is one that the parser meets on what they left in the buffer,
and while the handle is open it does not blame the end. -/
theorem refusal (drains : h.Drains reports after) (unfailed : h.failure = none) {e : Failure}
    (found : after.failure = some e) :
    after.Meets e ∧ (e.wasEof && !after.closed) = false := by
  induction drains with
  | rests h =>
    rw [unfailed] at found
    cases found
  | @refuses h f met counts =>
    obtain rfl : f = e := Option.some.inj found
    exact ⟨met.of_front rfl rfl, counts⟩
  | advances ran succeeded rest inductionHypothesis => exact inductionHypothesis unfailed found

/-- Passes of a built parser divide the text that waited into what they consumed, over which the
position has moved, and what still waits. -/
theorem divides (drains : h.Drains reports after) (built : Built claimsEnd h.parser) :
    ∃ consumed, h.buffer.toList = consumed ++ after.buffer.toList ∧
      after.position = h.position.overText consumed := by
  induction drains with
  | rests h => exact ⟨[], rfl, by simp [Position.overText_eq_along]⟩
  | refuses met counts => exact ⟨[], rfl, by simp [Position.overText_eq_along, refused]⟩
  | @advances h after reached later ran succeeded rest inductionHypothesis =>
    have ready : h.front.Ready := State.front_ready _ _ _
    have onText : h.front.OnText := State.front_onText _ _ _
    have leads : Leads claimsEnd h.front reached := built.leads h.front ready reached ran
    obtain ⟨consumed, split, moved⟩ := leads.divides ready onText succeeded
    obtain ⟨further, splitLater, movedLater⟩ := inductionHypothesis built
    rw [advanced_buffer h (leads.onText onText)] at splitLater
    refine ⟨consumed ++ further, ?_, ?_⟩
    · have ahead : h.front.textAhead = h.buffer.toList := State.textAhead_front _ _ _
      rw [← ahead, split, List.append_assoc, ← splitLater]
    · have position : (h.advanced reached).position = h.position.overText consumed := moved
      rw [movedLater, position, Position.overText_append]

end Drains

/-! ## Calls -/

/-- What a call finds, and the handle after it. -/
inductive Answers (h : Handle) : Call → List Report → Handle → Prop where
  | late (call : Call) (closed : h.closed = true) : Answers h call [] h
  | dropped {e : Failure} (chunk : String) (opened : h.closed = false)
      (failed : h.failure = some e) : Answers h (.data chunk) [] h
  | data {chunk : String} {reports : List Report} {after : Handle} (opened : h.closed = false)
      (unfailed : h.failure = none)
      (drains : Drains { h with buffer := h.buffer ++ chunk.toList.toArray } reports after) :
      Answers h (.data chunk) reports after
  | finishFailed {e : Failure} (opened : h.closed = false) (failed : h.failure = some e) :
      Answers h .finish [] { h with closed := true }
  | finish {reports : List Report} {after : Handle} (opened : h.closed = false)
      (unfailed : h.failure = none) (drains : Drains { h with closed := true } reports after) :
      Answers h .finish reports after
  | error (text : String) (opened : h.closed = false) :
      Answers h (.error text) [.error text]
        { h with closed := true, pending := h.pending ++ [.error text] }

/-- What a call finds, told by the runs of the parser alone. -/
def finds (h : Handle) (call : Call) : List Report :=
  if h.closed then []
  else
    match call with
    | .data chunk =>
      if h.failure.isSome then []
      else findings { h with buffer := h.buffer ++ chunk.toList.toArray }
    | .finish => if h.failure.isSome then [] else findings { h with closed := true }
    | .error text => [.error text]

/-- A drained handle is to be delivered or stopped by a fault. -/
theorem drained_drains (h : Handle) :
    ∃ after verdict, h.drained.result = .ok (after, verdict) ∧ h.Drains h.findings after := by
  obtain ⟨after, fault, ran, drains⟩ := drain_drains h
  exact ⟨after, _, Run.result_bind_ok _ _ _ ran, drains⟩

/-- A closed handle refuses every call, and nothing happens to it. -/
theorem accept_closed (h : Handle) (call : Call) (closed : h.closed = true) :
    (h.accept call).result = .ok (h, .fault .handleClosed) := by
  unfold accept
  rw [closed]
  rfl

/-- Every call is answered, with what it finds. -/
theorem accept_answers (h : Handle) (call : Call) :
    ∃ after verdict,
      (h.accept call).result = .ok (after, verdict) ∧ h.Answers call (h.finds call) after := by
  cases closed : h.closed with
  | true =>
    have nothing : h.finds call = [] := if_pos closed
    rw [nothing]
    exact ⟨h, _, accept_closed h call closed, .late call closed⟩
  | false =>
    rcases h with ⟨parser, userState, position, buffer, isClosed, failure, pending⟩
    dsimp only at closed
    subst closed
    cases call with
    | data chunk =>
      cases failure with
      | some e => exact ⟨_, _, rfl, .dropped chunk rfl rfl⟩
      | none =>
        obtain ⟨after, verdict, ran, drains⟩ := drained_drains
          ⟨parser, userState, position, buffer ++ chunk.toList.toArray, false, none, pending⟩
        exact ⟨after, verdict, ran, .data rfl rfl drains⟩
    | finish =>
      cases failure with
      | some e => exact ⟨_, _, rfl, .finishFailed rfl rfl⟩
      | none =>
        obtain ⟨after, verdict, ran, drains⟩ := drained_drains
          ⟨parser, userState, position, buffer, true, none, pending⟩
        exact ⟨after, verdict, ran, .finish rfl rfl drains⟩
    | error text => exact ⟨_, _, rfl, .error text rfl⟩

/-- What a call has come to is its answer. -/
theorem answers_of_accepted {call : Call} {verdict : Verdict}
    (accepted : (h.accept call).result = .ok (after, verdict)) :
    h.Answers call (h.finds call) after := by
  obtain ⟨other, otherVerdict, same, answers⟩ := accept_answers h call
  obtain ⟨rfl, rfl⟩ := Prod.mk.inj (Except.ok.inj (accepted.symm.trans same))
  exact answers

/-- Draining is never passed over in silence. -/
theorem drained_speaks {verdict : Verdict} (ran : h.drained.result = .ok (after, verdict)) :
    verdict ≠ .silent := by
  obtain ⟨⟨_, fault⟩, _, rest⟩ := Run.result_bind_inv _ _ _ ran
  obtain ⟨_, rfl⟩ := Prod.mk.inj (Except.ok.inj rest)
  cases fault <;> exact nofun

/-- A call after which nothing is to be done has changed nothing. -/
theorem accept_silent {call : Call} (ran : (h.accept call).result = .ok (after, .silent)) :
    after = h := by
  rcases h with ⟨parser, userState, position, buffer, closed, failure, pending⟩
  cases closed with
  | true => cases ran
  | false =>
    cases call with
    | data chunk =>
      cases failure with
      | some e => exact (Prod.mk.inj (Except.ok.inj ran)).1.symm
      | none => exact absurd rfl (drained_speaks ran)
    | finish =>
      cases failure with
      | some e => cases ran
      | none => exact absurd rfl (drained_speaks ran)
    | error text => cases ran

/-- The text that a call adds to what the handle has accepted. A chunk counts as accepted when it
comes, whatever its parsing comes to. -/
def taken (h : Handle) : Call → List Char
  | .data chunk => if h.closed || h.failure.isSome then [] else chunk.toList
  | _ => []

/-- A row of reports is in order for a handle: first values, then the failure of the handle if it
has failed, then possibly an error that the handle was told of, which has closed it. -/
def Accounts (h : Handle) (found : List Report) : Prop :=
  ∃ (values : List Value) (error : Option String),
    found = values.map .value ++ h.failure.toList.map .failure ++ error.toList.map .error ∧
      (h.closed = false → error = none)

/-- Before a handle has failed or been closed, only values have been found. -/
theorem Accounts.values {found : List Report} (accounts : h.Accounts found)
    (opened : h.closed = false) (unfailed : h.failure = none) :
    ∃ values : List Value, found = values.map .value := by
  obtain ⟨values, error, same, unclosed⟩ := accounts
  refine ⟨values, ?_⟩
  rw [same, unfailed, unclosed opened]
  simp

/-- What passes find comes behind the values found before. -/
theorem Drains.accounts (drains : h.Drains reports after) (unfailed : h.failure = none)
    (values : List Value) : after.Accounts (values.map .value ++ reports) := by
  obtain ⟨later, same⟩ := drains.shape unfailed
  refine ⟨values ++ later, none, ?_, fun _ => rfl⟩
  simp [same]

namespace Answers

variable {call : Call}

/-- What a call has found, and nothing else, has been put into the queue. -/
theorem pending (answers : h.Answers call reports after) :
    after.pending = h.pending ++ reports := by
  cases answers with
  | late call closed => simp
  | dropped chunk opened failed => simp
  | data opened unfailed drains => exact drains.pending
  | finishFailed opened failed => simp
  | finish opened unfailed drains => exact drains.pending
  | error text opened => rfl

/-- No call opens a handle again. -/
theorem closed (answers : h.Answers call reports after) (closed : h.closed = true) :
    after.closed = true := by
  cases answers with
  | late call _ => exact closed
  | dropped chunk opened failed => exact closed
  | data opened unfailed drains => rw [drains.closed, closed]
  | finishFailed opened failed => rfl
  | finish opened unfailed drains => rw [drains.closed]
  | error text opened => rfl

/-- Calls keep what the handle was set up with. -/
theorem setup (answers : h.Answers call reports after) :
    after.parser = h.parser ∧ after.userState = h.userState := by
  cases answers with
  | late call closed => exact ⟨rfl, rfl⟩
  | dropped chunk opened failed => exact ⟨rfl, rfl⟩
  | data opened unfailed drains => exact drains.setup
  | finishFailed opened failed => exact ⟨rfl, rfl⟩
  | finish opened unfailed drains => exact drains.setup
  | error text opened => exact ⟨rfl, rfl⟩

/-- What a call finds comes behind what was found before, and keeps the row in order. -/
theorem accounts {found : List Report} (answers : h.Answers call reports after)
    (accounts : h.Accounts found) : after.Accounts (found ++ reports) := by
  cases answers with
  | late call closed => simpa using accounts
  | dropped chunk opened failed => simpa using accounts
  | data opened unfailed drains =>
    obtain ⟨values, rfl⟩ := accounts.values opened unfailed
    exact drains.accounts unfailed values
  | finishFailed opened failed =>
    obtain ⟨values, error, same, unclosed⟩ := accounts
    exact ⟨values, error, by simpa using same, nofun⟩
  | finish opened unfailed drains =>
    obtain ⟨values, rfl⟩ := accounts.values opened unfailed
    exact drains.accounts unfailed values
  | error text opened =>
    obtain ⟨values, error, same, unclosed⟩ := accounts
    refine ⟨values, some text, ?_, nofun⟩
    rw [same, unclosed opened]
    simp

/-- A call to a handle with a built parser divides the text that waited, and what the call adds to
it, into what was consumed, over which the position has moved, and what still waits. -/
theorem divides (answers : h.Answers call reports after) (built : Built claimsEnd h.parser) :
    ∃ consumed, h.buffer.toList ++ h.taken call = consumed ++ after.buffer.toList ∧
      after.position = h.position.overText consumed := by
  have nothing : h.position = h.position.overText [] := by simp [Position.overText_eq_along]
  cases answers with
  | late call closed =>
    refine ⟨[], ?_, nothing⟩
    cases call <;> simp [taken, closed]
  | dropped chunk opened failed => exact ⟨[], by simp [taken, failed], nothing⟩
  | @data chunk _ _ opened unfailed drains =>
    obtain ⟨consumed, split, moved⟩ := drains.divides built
    refine ⟨consumed, ?_, moved⟩
    rw [← split]
    simp [taken, opened, unfailed]
  | finishFailed opened failed => exact ⟨[], by simp [taken], nothing⟩
  | finish opened unfailed drains =>
    obtain ⟨consumed, split, moved⟩ := drains.divides built
    exact ⟨consumed, by simpa [taken] using split, moved⟩
  | error text opened => exact ⟨[], by simp [taken], nothing⟩

end Answers
end Handle
end Descent
