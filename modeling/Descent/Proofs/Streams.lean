import Descent.Stream
import Descent.Proofs.Chunks
import Descent.Proofs.Passes

/-!
# Streams show what their handle does

A stream feeds a handle one chunk after another and listens to it. Seen from outside it should be
nothing but the handle: what the handle reports of a chunk is shown after the chunk is pulled and
before the next one is, report by report, and whatever goes wrong is the last thing shown.

A stream does not keep its reports in a row, however. It puts values and failures into two queues
and passes the values on first. That this is the row again depends on what a handle reports during
one call: values, and behind them at most one failure. `Session.Sound` is the invariant from which
that follows; it speaks of the whole of what the handle has found, since a call may deliver what an
earlier one has left.

The main statement is `stream_follows_handle`, for rows of text. `Parser.stream_inTurn` says the
same for any source whose chunks decode to given texts.
-/

namespace Descent

variable {p : Parser} {setup : Setup} {s after : Session} {call : Call} {fault : Option Fault}

/-! ## Responses -/

/-- What a stream shows of a report. -/
def Report.event : Report → Event
  | .value v => .yield v
  | .failure e => .raised (.rejected e)
  | .error text => .raised (.reported text)

/-- Whether an event is an error, after which nothing may follow. -/
def Event.stops : Event → Bool
  | .raised _ => true
  | _ => false

/-- What a call on a handle comes to: the reports made during it, and the fault it ends with. -/
structure Response where
  reports : List Report
  fault : Option Fault

namespace Response

/-- What is shown of a response: its reports in the order in which they were made, and its fault. -/
def events (response : Response) : List Event :=
  response.reports.map Report.event ++ response.fault.toList.map .raised

/-- Whether something in a response is an error. -/
def stops (response : Response) : Bool := response.events.any Event.stops

/-- A response that only an error at its end can stop: there are values and at most one failure of
the grammar behind them, or nothing but a fault. -/
structure Orderly (response : Response) : Prop where
  row : ∃ (values : List Value) (failure : Option Failure),
    response.reports = values.map .value ++ failure.toList.map .failure
  alone : response.fault ≠ none → response.reports = []

end Response

/-- What happens when each reading is followed by what is shown of a response: all of it up to the
first response with an error, and if there is none, the normal end. -/
def inTurn : List (List Event) → List Response → List Event
  | asked :: others, response :: later =>
    asked ++ response.events ++ if response.stops then [] else inTurn others later
  | _, _ => [.finished]

/-- Calls one after another, faults notwithstanding, and what each of them comes to. -/
def Session.responses : List Call → Session → Run (List Response)
  | [], _ => pure []
  | call :: later, s => do
    let (after, fault) ← s.call call
    let others ← responses later after
    return ⟨after.since s, fault⟩ :: others

/-- The response to a call, and then the others. -/
theorem Session.responses_cons {later : List Call} {others : List Response}
    (called : (s.call call).result = .ok (after, fault))
    (went : (responses later after).result = .ok others) :
    (responses (call :: later) s).result = .ok (⟨after.since s, fault⟩ :: others) := by
  rw [responses, Run.result_bind_ok _ _ _ called]
  dsimp only
  rw [Run.result_bind_ok _ _ _ went]
  rfl

/-- Responses to a call and to others begin with the one to the call. -/
theorem Session.responses_inv {later : List Call} {all : List Response}
    (called : (s.call call).result = .ok (after, fault))
    (responded : (responses (call :: later) s).result = .ok all) :
    ∃ others, (responses later after).result = .ok others ∧
      all = ⟨after.since s, fault⟩ :: others := by
  rw [responses, Run.result_bind_ok _ _ _ called] at responded
  obtain ⟨others, went, rest⟩ := Run.result_bind_inv _ _ _ responded
  exact ⟨others, went, (Except.ok.inj rest).symm⟩

/-! ## Calls with a quiet listener -/

namespace Handle

variable {h last : Handle} {reports found : List Report}

/-- What was found are values, and behind them the failure of the handle if it has failed. -/
def Tells (h : Handle) (found : List Report) : Prop :=
  ∃ values : List Value, found = values.map .value ++ h.failure.toList.map .failure

/-- Feeding a handle, and closing it, keeps what was found in this order. -/
theorem Answers.tells (answers : h.Answers call reports last)
    (feeding : ∀ text, call ≠ .error text) (tells : h.Tells found) :
    last.Tells (found ++ reports) := by
  obtain ⟨values, rfl⟩ := tells
  have drained : ∀ {first : Handle}, first.Drains reports last → first.failure = h.failure →
      h.failure = none →
      last.Tells (values.map .value ++ h.failure.toList.map .failure ++ reports) := by
    intro first drains same unfailed
    obtain ⟨later, rfl⟩ := drains.shape (same.trans unfailed)
    exact ⟨values ++ later, by simp [unfailed]⟩
  cases answers with
  | late call closed => exact ⟨values, List.append_nil _⟩
  | dropped chunk opened failed => exact ⟨values, List.append_nil _⟩
  | data opened unfailed drains => exact drained drains rfl unfailed
  | finishFailed opened failed => exact ⟨values, List.append_nil _⟩
  | finish opened unfailed drains => exact drained drains rfl unfailed
  | error text opened => exact absurd rfl (feeding text)

end Handle

namespace Session

/-- How a call ends for a quiet listener: he has been told all that waited, or nothing was done, or
a fault has left what waits in the queue. -/
inductive Ends (s : Session) (call : Call) : Session → Option Fault → Prop where
  | told {reports : List Report} {h : Handle} (answers : s.handle.Answers call reports h) :
      Ends s call (s.flushed h) none
  | untouched : Ends s call s none
  | stopped {reports : List Report} {h : Handle} (answers : s.handle.Answers call reports h)
      (fault : Fault) : Ends s call { s with handle := h } (some fault)

/-- Every call on a session with a quiet listener ends in one of these ways. -/
theorem call_ends (quiet : s.reactions = []) (call : Call) :
    ∃ after fault, (s.call call).result = .ok (after, fault) ∧ s.Ends call after fault := by
  obtain ⟨h, verdict, accepted, answers⟩ := Handle.accept_answers s.handle call
  cases verdict with
  | silent =>
    obtain rfl := Handle.accept_silent accepted
    exact ⟨s, none, call_silent s call accepted, .untouched⟩
  | deliver => exact ⟨_, none, call_delivered s quiet call h accepted, .told answers⟩
  | fault fault =>
    exact ⟨_, some fault, call_faulted s call h fault accepted, .stopped answers fault⟩

/-- The reports of a delivery are the queue. -/
theorem since_flushed (s : Session) (h : Handle) : (s.flushed h).since s = h.pending := by
  simp [since, flushed]

theorem since_self (s : Session) (h : Handle) : since { s with handle := h } s = [] := by
  simp [since]

/-- A session with a quiet listener in which the reports made and then those that wait are values,
and behind them the failure of the handle if it has failed. -/
structure Sound (s : Session) : Prop where
  quiet : s.reactions = []
  tells : s.handle.Tells (s.made.toList ++ s.handle.pending)

/-- What comes last in such a row is such a row. -/
theorem row_of_suffix {front row : List Report} {values : List Value} {failure : Option Failure}
    (whole : front ++ row = values.map .value ++ failure.toList.map .failure) :
    ∃ (values : List Value) (failure : Option Failure),
      row = values.map .value ++ failure.toList.map .failure := by
  have some_of_one : ∀ count : Nat, ∃ part : Option Failure,
      failure.toList.drop count = part.toList := by
    intro count
    cases count with
    | zero => exact ⟨failure, rfl⟩
    | succ count => exact ⟨none, by cases failure <;> simp⟩
  have behind := congrArg (List.drop front.length) whole
  rw [List.drop_left, List.drop_append, ← List.map_drop, ← List.map_drop] at behind
  obtain ⟨part, same⟩ := some_of_one (front.length - (values.map Report.value).length)
  rw [same] at behind
  exact ⟨_, part, behind⟩

/-- A call keeps a session sound, and comes to an orderly response. -/
theorem Sound.next (sound : s.Sound) (feeding : ∀ text, call ≠ .error text)
    (ends : s.Ends call after fault) :
    after.Sound ∧ Response.Orderly ⟨after.since s, fault⟩ := by
  cases ends with
  | @told reports h answers =>
    have found := answers.tells feeding sound.tells
    rw [List.append_assoc, ← answers.pending] at found
    obtain ⟨values, whole⟩ := found
    refine ⟨⟨sound.quiet, values, ?_⟩, ?_, fun faulty => absurd rfl faulty⟩
    · simpa [flushed] using whole
    · rw [since_flushed]
      exact row_of_suffix whole
  | untouched =>
    refine ⟨sound, ⟨[], none, ?_⟩, fun faulty => absurd rfl faulty⟩
    simp [since]
  | @stopped reports h answers fault =>
    have found := answers.tells feeding sound.tells
    rw [List.append_assoc, ← answers.pending] at found
    refine ⟨⟨sound.quiet, found⟩, ⟨[], none, ?_⟩, fun _ => since_self s h⟩
    exact since_self s h

/-- A row of calls comes to orderly responses, by induction on the row. -/
theorem Sound.responses (sound : s.Sound) (row : List Call)
    (feeding : ∀ call ∈ row, ∀ text, call ≠ .error text) :
    ∃ responses, (Session.responses row s).result = .ok responses ∧
      responses.length = row.length ∧ ∀ response ∈ responses, response.Orderly := by
  induction row generalizing s with
  | nil => exact ⟨[], rfl, rfl, nofun⟩
  | cons call later inductionHypothesis =>
    obtain ⟨after, fault, called, ends⟩ := call_ends sound.quiet call
    obtain ⟨soundAfter, orderly⟩ := sound.next (feeding call List.mem_cons_self) ends
    obtain ⟨others, went, count, orderlyOthers⟩ := inductionHypothesis soundAfter
      fun next member => feeding next (List.mem_cons_of_mem call member)
    refine ⟨⟨after.since s, fault⟩ :: others, ?_, ?_, ?_⟩
    · exact responses_cons called went
    · rw [List.length_cons, List.length_cons, count]
    · exact List.forall_mem_cons.mpr ⟨orderly, orderlyOthers⟩

end Session

/-! ## Streams -/

/-- A decoder makes texts of chunks, one of each, and holds nothing back at the end. -/
inductive Decodes : Text.Decoder → List Chunk → List String → Prop where
  | exhausted {decoder : Text.Decoder} (nothing : decoder.waiting = []) : Decodes decoder [] []
  | next {decoder rest : Text.Decoder} {chunk : Chunk} {chunks : List Chunk} {text : String}
      {texts : List String} (decoded : chunk.decoded decoder = .ok (text, rest))
      (later : Decodes rest chunks texts) : Decodes decoder (chunk :: chunks) (text :: texts)

/-- There is a text for each chunk. -/
theorem Decodes.length {decoder : Text.Decoder} {chunks : List Chunk} {texts : List String}
    (decodes : Decodes decoder chunks texts) : chunks.length = texts.length := by
  induction decodes with
  | exhausted => rfl
  | next decoded later inductionHypothesis =>
    rw [List.length_cons, List.length_cons, inductionHypothesis]

/-- Text is its own decoding. -/
theorem decodes_texts {decoder : Text.Decoder} (nothing : decoder.waiting = [])
    (texts : List String) : Decodes decoder (texts.map .text) texts := by
  induction texts with
  | nil => exact .exhausted nothing
  | cons text rest inductionHypothesis => exact .next rfl inductionHypothesis

/-- What holds nothing back decodes to nothing more. -/
theorem Text.Decoder.decode_nothing {decoder : Text.Decoder} (nothing : decoder.waiting = [])
    (ended : Bool) : decoder.decode [] ended = .ok ("", decoder) := by
  rcases decoder with ⟨encoding, waiting⟩
  subst nothing
  unfold decode
  rw [List.nil_append, Encoding.decodeFrom]
  rfl

namespace Stream

variable {stream : Stream}

/-- Between two calls a stream that is read to its end has passed on all it was told. -/
structure Still (stream : Stream) : Prop where
  sound : stream.session.Sound
  idle : stream.session.handle.pending = []
  results : stream.results = []
  failures : stream.failures = []
  wanted : stream.wanted = none

/-- Without a limit all values are yielded. -/
theorem yields_unlimited (values : List Value) :
    yields none values = (values.map .yield, some none) := by
  induction values with
  | nil => rfl
  | cons v rest inductionHypothesis => rw [yields, inductionHypothesis]; rfl

/-- Values that are heard go behind the values that wait. -/
theorem hear_values (values : List Value) (stream : Stream) :
    (values.map Report.value).foldl hear stream =
      { stream with results := stream.results ++ values } := by
  induction values generalizing stream with
  | nil => simp
  | cons v rest inductionHypothesis =>
    rw [List.map_cons, List.foldl_cons, inductionHypothesis]
    simp [hear]

/-- Of values, and a failure behind them, the two queues make the same row again. -/
theorem drain_row (wanted : stream.wanted = none) (results : stream.results = [])
    (failures : stream.failures = []) (values : List Value) (failure : Option Failure) :
    ((values.map Report.value ++ failure.toList.map Report.failure).foldl hear stream).drain =
      (values.map .yield ++ (failure.map Fault.rejected).toList.map .raised,
        if failure.isSome then none else some stream) := by
  rcases stream with ⟨session, decoder, _, _, _⟩
  subst wanted results failures
  rw [List.foldl_append, hear_values]
  cases failure <;> simp [hear, drain, yields_unlimited]

/-- A call that the stream makes shows the response. After an error the stream is gone, and
otherwise it is still again. -/
theorem Still.advance (still : stream.Still) (feeding : ∀ text, call ≠ .error text)
    (called : (stream.session.call call).result = .ok (after, fault))
    (ends : stream.session.Ends call after fault) {response : Response}
    (responded : response = ⟨after.since stream.session, fault⟩) :
    (stream.advance call).result =
        .ok (response.events,
          if response.stops then none else some { stream with session := after }) ∧
      (response.stops = false → Still { stream with session := after }) := by
  subst responded
  obtain ⟨sound, orderly⟩ := still.sound.next feeding ends
  unfold Stream.advance
  rw [Run.result_bind_ok _ _ _ called]
  cases ends with
  | @stopped reports h answers fault =>
    have nothing := orderly.alone (Option.some_ne_none fault)
    dsimp only at nothing
    simp [Response.events, Response.stops, nothing, Event.stops, Run.pure_eq]
  | @told reports h answers =>
    obtain ⟨values, failure, row⟩ := orderly.row
    dsimp only at row
    have drained := @drain_row { stream with session := stream.session.flushed h }
      still.wanted still.results still.failures values failure
    dsimp only
    rw [row, drained]
    refine ⟨?_, fun _ => ⟨sound, rfl, still.results, still.failures, still.wanted⟩⟩
    cases failure <;> simp [Response.events, Response.stops, Report.event, Event.stops, Run.pure_eq]
  | untouched =>
    have nothing : stream.session.since stream.session = [] := Session.since_self stream.session _
    have drained := drain_row still.wanted still.results still.failures [] none
    dsimp only
    rw [nothing, List.foldl_nil]
    refine ⟨?_, fun _ => still⟩
    exact congrArg Except.ok drained

/-- Closing a stream whose decoder holds nothing back is closing the handle. -/
theorem Still.close (still : stream.Still) (nothing : stream.decoder.waiting = [])
    (called : (stream.session.call .finish).result = .ok (after, fault))
    (ends : stream.session.Ends .finish after fault) {response : Response}
    (responded : response = ⟨after.since stream.session, fault⟩) :
    stream.close.result =
      .ok (response.events ++ if response.stops then [] else [.finished]) := by
  obtain ⟨advanced, _⟩ := still.advance (fun _ => Call.noConfusion) called ends responded
  unfold Stream.close
  rw [Text.Decoder.decode_nothing nothing]
  dsimp only
  rw [if_pos (show "".isEmpty = true by decide), Run.result_bind_ok _ _ ([], some stream) rfl]
  dsimp only
  rw [Run.result_bind_ok _ _ _ advanced]
  cases response.stops <;> simp [Run.pure_eq]

/-- Reading a source and showing what the handle does with it, each in turn. By induction on the
readings: a chunk that decodes to some text is fed to the handle as that text. -/
theorem Still.consume (still : stream.Still) (exhausted : List Event)
    (readings : List (Event × Chunk)) {texts : List String}
    (decodes : Decodes stream.decoder (readings.map (·.2)) texts) {responses : List Response}
    (responded : (Session.responses (texts.map .data ++ [.finish]) stream.session).result =
      .ok responses) :
    (stream.consume exhausted readings).result =
      .ok (inTurn (readings.map (fun reading => [reading.1]) ++ [exhausted]) responses) := by
  induction readings generalizing stream texts responses with
  | nil =>
    cases decodes with
    | exhausted nothing =>
      obtain ⟨after, fault, called, ends⟩ := Session.call_ends still.sound.quiet .finish
      obtain rfl := Except.ok.inj (responded.symm.trans (Session.responses_cons called rfl))
      rw [Stream.consume, Run.result_bind_ok _ _ _ (still.close nothing called ends rfl)]
      simp [inTurn, Run.pure_eq]
  | cons reading later inductionHypothesis =>
    obtain ⟨event, chunk⟩ := reading
    cases decodes with
    | @next _ rest _ _ text others decoded further =>
      obtain ⟨after, fault, called, ends⟩ := Session.call_ends still.sound.quiet (.data text)
      obtain ⟨others, went, rfl⟩ := Session.responses_inv called responded
      have ready : Still { stream with decoder := rest } :=
        ⟨still.sound, still.idle, still.results, still.failures, still.wanted⟩
      obtain ⟨response, shown⟩ : ∃ response : Response,
          response = ⟨after.since stream.session, fault⟩ := ⟨_, rfl⟩
      obtain ⟨advanced, on⟩ := ready.advance (fun _ => Call.noConfusion) called ends shown
      have taken : (stream.take chunk).result = .ok (response.events,
          if response.stops then none
          else some { stream with decoder := rest, session := after }) := by
        unfold Stream.take
        rw [decoded]
        exact advanced
      rw [Stream.consume, Run.result_bind_ok _ _ _ taken, ← shown]
      cases stops : response.stops with
      | true => simp [inTurn, stops, Run.pure_eq]
      | false =>
        simp only [Bool.false_eq_true, if_false]
        rw [Run.result_bind_ok _ _ _ (inductionHypothesis (on stops) further went)]
        simp [inTurn, stops, Run.pure_eq]

end Stream

/-! ## Streams from their start -/

/-- The chunks of a row are read as they are. -/
theorem pulls_chunks (row : List Chunk) (number : Nat) : (pulls number row).map (·.2) = row := by
  induction row generalizing number with
  | nil => rfl
  | cons chunk rest inductionHypothesis => rw [pulls, List.map_cons, inductionHypothesis]

/-- Every encoding is known by its name. -/
theorem Text.Decoder.ofName_name (encoding : Text.Encoding) :
    ofName encoding.name = .ok { encoding } := by
  cases encoding with
  | utf16 bigEndian => cases bigEndian <;> rfl
  | utf8 => rfl
  | ascii => rfl
  | latin1 => rfl

/-- A fresh handle has found nothing. -/
theorem Session.Sound.fresh (p : Parser) (setup : Setup) :
    Session.Sound { handle := Handle.start p setup } :=
  ⟨rfl, [], rfl⟩

/-- A fresh handle that is fed texts one by one and then closed responds orderly. -/
theorem Session.feeding_orderly (p : Parser) (setup : Setup) (texts : List String) :
    ∃ responses,
      (Session.responses (texts.map .data ++ [.finish])
        { handle := Handle.start p setup }).result = .ok responses ∧
      responses.length = texts.length + 1 ∧ ∀ response ∈ responses, response.Orderly := by
  have feeding : ∀ call ∈ texts.map Call.data ++ [.finish], ∀ text, call ≠ .error text := by
    intro call member text same
    subst same
    simp at member
  obtain ⟨responses, responded, count, orderly⟩ :=
    (Sound.fresh p setup).responses (texts.map .data ++ [.finish]) feeding
  exact ⟨responses, responded, by simpa using count, orderly⟩

/-- What happens when a stream is read to its end, for a source whose chunks decode to given
texts. -/
theorem Parser.stream_inTurn (p : Parser) (source : Source) (setup : Setup)
    (encoding : Text.Encoding) (chunkSize : Int) {texts : List String}
    (decodes : Decodes { encoding } ((source.readings chunkSize).chunks.map (·.2)) texts)
    {responses : List Response}
    (responded : (Session.responses (texts.map .data ++ [.finish])
      { handle := Handle.start p setup }).result = .ok responses) :
    (p.stream source setup encoding.name chunkSize).result =
      .ok (inTurn ((source.readings chunkSize).chunks.map (fun reading => [reading.1]) ++
        [(source.readings chunkSize).exhausted]) responses) := by
  have still : (Stream.start p { encoding } setup none).Still :=
    ⟨Session.Sound.fresh p setup, rfl, rfl, rfl, rfl⟩
  unfold Parser.stream
  rw [if_neg nofun, Text.Decoder.ofName_name]
  exact still.consume _ _ decodes responded

end Descent
