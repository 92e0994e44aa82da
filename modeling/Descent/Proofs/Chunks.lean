import Descent.Session
import Descent.Proofs.Draining
import Descent.Proofs.Extension

/-!
# A text that arrives in chunks

What a session has reported is a function of the text it was fed, not of the way the text was cut.
The invariant says it outright: at any time the session has reported the values of the course of
the whole text so far, and the failure where the course stops unless that blames the end; and it
stands where the course stops. A chunk takes the invariant for one text to the invariant for the
text with the chunk behind it, which for a stable parser is the course of the one gone on with.

With a single chunk nothing has to be gone on with, so the parser need not be stable. What a
session reports of one text is then what a repetition makes of it in one go.

The listener is a quiet one: it reacts to none of its calls.
-/

namespace Descent

variable {claimsEnd : Prop} {p : Parser} {setup : Setup} {text : List Char}
  {values : List Value} {stop : Stop} {s : Session}

/-- What is reported of a failure at the end of a text: nothing if the text was used up and the
failure only says so. -/
def Stop.reports (stop : Stop) : List Report :=
  if stop.rest ≠ [] ∨ stop.failure.wasEof = false then [.failure stop.failure] else []

namespace Session

/-- The session when its handle has changed and the queue has been delivered. -/
def flushed (s : Session) (h : Handle) : Session :=
  { s with handle := { h with pending := [] }, made := s.made ++ h.pending.toArray }

/-- A quiet listener takes one report after another. -/
theorem deliver_report (s : Session) (quiet : s.reactions = []) (report : Report)
    (rest : List Report) (waiting : s.handle.pending = report :: rest) :
    s.deliver = deliver { s with
      handle := { s.handle with pending := rest }, made := s.made.push report } := by
  apply deliver_unasked s report rest waiting
  rw [quiet]
  rfl

/-- A quiet listener is told all that waits, in order, by induction on the queue. -/
theorem deliver_quiet (s : Session) (quiet : s.reactions = []) :
    s.deliver.result = .ok (s.flushed s.handle, none) := by
  induction waiting : s.handle.pending generalizing s with
  | nil =>
    have told : s.flushed s.handle = s := by
      rcases s with ⟨⟨_, _, _, _, _, _, _⟩, _, _⟩
      subst waiting
      simp [flushed]
    rw [deliver_idle s waiting, told]
    rfl
  | cons report rest inductionHypothesis =>
    let next : Session := { s with
      handle := { s.handle with pending := rest }, made := s.made.push report }
    have told : next.flushed next.handle = s.flushed s.handle := by
      simp [next, flushed, waiting]
    rw [deliver_report s quiet report rest waiting, ← told]
    exact inductionHypothesis next quiet rfl

/-- A call and then others. -/
theorem calls_cons {next : Call} {later : List Call} {fault : Option Fault} {middle last : Session}
    {faults : List (Option Fault)} (called : (s.call next).result = .ok (middle, fault))
    (went : (calls later middle).result = .ok (last, faults)) :
    (calls (next :: later) s).result = .ok (last, fault :: faults) := by
  rw [calls, Run.result_bind_ok _ _ _ called]
  dsimp only
  rw [Run.result_bind_ok _ _ _ went]
  rfl

/-- A session that parses with a given parser, as set up, for a quiet listener who has been told
all there was. -/
structure Attached (p : Parser) (setup : Setup) (s : Session) : Prop where
  parser : s.handle.parser = p.collect (.atLeast 1)
  userState : s.handle.userState = setup.userState
  opened : s.handle.closed = false
  idle : s.handle.pending = []
  quiet : s.reactions = []

/-- A session that has been fed a text whose course is known. -/
structure Fed (p : Parser) (setup : Setup) (text : List Char) (values : List Value) (stop : Stop)
    (s : Session) : Prop where
  course : Course p setup.userState setup.origin text values stop
  attached : Attached p setup s
  position : s.handle.position = stop.position
  buffer : stop.failure.wasEof = true → s.handle.buffer.toList = stop.rest
  failure : s.handle.failure = if stop.failure.wasEof then none else some stop.failure
  made : s.made.toList = values.map .value ++
    if stop.failure.wasEof then [] else [.failure stop.failure]

/-- A call after which the queue is delivered. -/
theorem call_delivered (s : Session) (quiet : s.reactions = []) (call : Call) (h : Handle)
    (accepted : (s.handle.accept call).result = .ok (h, .deliver)) :
    (s.call call).result = .ok (s.flushed h, none) := by
  unfold Session.call
  rw [Run.result_bind_ok _ _ _ accepted]
  exact deliver_quiet { s with handle := h } quiet

/-- A call that changes nothing. -/
theorem call_silent (s : Session) (call : Call)
    (accepted : (s.handle.accept call).result = .ok (s.handle, .silent)) :
    (s.call call).result = .ok (s, none) := by
  unfold Session.call
  rw [Run.result_bind_ok _ _ _ accepted]
  rfl

/-- A call that is stopped by a fault. What waits is left in the queue. -/
theorem call_faulted (s : Session) (call : Call) (h : Handle) (fault : Fault)
    (accepted : (s.handle.accept call).result = .ok (h, .fault fault)) :
    (s.call call).result = .ok ({ s with handle := h }, some fault) := by
  unfold Session.call
  rw [Run.result_bind_ok _ _ _ accepted]
  rfl

/-- A chunk takes a session to the place where the course of the text in front of it stops. The
course of the whole text is that of what was parsed before and gone on with. -/
theorem Attached.fed (built : Built claimsEnd p) (productive : Productive p)
    (attached : Attached p setup s) (unfailed : s.handle.failure = none) (chunk : String)
    (earlier : List Value) (told : s.made.toList = earlier.map .value)
    (course : Course p setup.userState s.handle.position
      (s.handle.buffer.toList ++ chunk.toList) values stop)
    (whole : Course p setup.userState setup.origin text (earlier ++ values) stop) :
    ∃ after, (s.call (.data chunk)).result = .ok (after, none) ∧
      Fed p setup text (earlier ++ values) stop after := by
  let h : Handle := { s.handle with buffer := s.handle.buffer ++ chunk.toList.toArray }
  have ahead : Course p h.userState h.position h.buffer.toList values stop := by
    simp only [h, attached.userState, Array.toList_append]
    exact course
  have drained := Handle.drain_settles built productive h attached.parser ahead
  have accepted := Handle.accept_data s.handle _ chunk attached.opened unfailed drained
  refine ⟨_, call_delivered s attached.quiet (.data chunk) _ accepted, ?_⟩
  rw [Handle.settled_opened h attached.opened]
  cases waits : stop.failure.wasEof with
  | true =>
    have made : (s.made ++ (s.handle.pending ++ values.map Report.value).toArray).toList =
        (earlier ++ values).map .value ++ [] := by
      simp [attached.idle, told]
    exact ⟨whole, { attached with idle := rfl }, rfl, fun _ => rfl,
      by rw [waits]; exact unfailed, by rw [waits]; exact made⟩
  | false =>
    have made : (s.made ++ (s.handle.pending ++ values.map Report.value ++
        [Report.failure stop.failure]).toArray).toList =
          (earlier ++ values).map .value ++ [.failure stop.failure] := by
      simp [attached.idle, told]
    exact ⟨whole, { attached with idle := rfl }, rfl, fun _ => rfl,
      by rw [waits]; rfl, by rw [waits]; exact made⟩

/-- A first chunk is the text so far. -/
theorem Fed.first (built : Built claimsEnd p) (productive : Productive p) (setup : Setup)
    (chunk : String) :
    ∃ values stop after,
      (Session.call { handle := Handle.start p setup } (.data chunk)).result = .ok (after, none) ∧
      Fed p setup chunk.toList values stop after := by
  obtain ⟨values, stop, course⟩ :=
    Course.exists_of_productive built productive setup.userState setup.origin chunk.toList
  have attached : Attached p setup { handle := Handle.start p setup } :=
    ⟨rfl, rfl, rfl, rfl, rfl⟩
  obtain ⟨after, called, fed⟩ :=
    attached.fed built productive rfl chunk [] rfl course course
  exact ⟨values, stop, after, called, fed⟩

/-- Another chunk goes behind the text so far. Either the session waits, and the course goes on
with what is left and the chunk; or it has failed for good, and so would the longer text. -/
theorem Fed.next (built : Built claimsEnd p) (productive : Productive p) (stable : Stable p)
    (fed : Fed p setup text values stop s) (chunk : String) :
    ∃ newValues newStop after, (s.call (.data chunk)).result = .ok (after, none) ∧
      Fed p setup (text ++ chunk.toList) newValues newStop after := by
  have failure := fed.failure
  cases waits : stop.failure.wasEof with
  | true =>
    rw [waits] at failure
    have told := fed.made
    rw [waits, if_pos rfl, List.append_nil] at told
    obtain ⟨later, newStop, course⟩ := Course.exists_of_productive built productive
      setup.userState stop.position (stop.rest ++ chunk.toList)
    have whole := fed.course.append built stable chunk.toList course
    rw [← fed.position, ← fed.buffer waits] at course
    obtain ⟨after, called, fedAfter⟩ :=
      fed.attached.fed built productive failure chunk values told course whole
    exact ⟨_, newStop, after, called, fedAfter⟩
  | false =>
    rw [waits] at failure
    have dropped := Handle.accept_dropped s.handle chunk _ fed.attached.opened failure
    have whole := fed.course.append_settled built stable chunk.toList waits
    refine ⟨values, _, s, call_silent s _ dropped, whole, fed.attached, fed.position, ?_,
      fed.failure, fed.made⟩
    intro impossible
    exact absurd (waits.symm.trans impossible) Bool.false_ne_true

/-- A session that has been fed a text and told that there is no more. -/
structure Finished (p : Parser) (setup : Setup) (text : List Char) (values : List Value)
    (stop : Stop) (s : Session) : Prop where
  course : Course p setup.userState setup.origin text values stop
  position : s.handle.position = stop.position
  made : s.made.toList = values.map .value ++ stop.reports

/-- The end of a text is where a failure that waited is reported, unless nothing is left. -/
theorem Fed.finish (built : Built claimsEnd p) (productive : Productive p)
    (fed : Fed p setup text values stop s) :
    ∃ after, (s.call .finish).result = .ok (after, none) ∧
      Finished p setup text values stop after := by
  have failure := fed.failure
  have told := fed.made
  cases waits : stop.failure.wasEof with
  | true =>
    rw [waits, if_pos rfl] at failure
    rw [waits, if_pos rfl, List.append_nil] at told
    let h : Handle := { s.handle with closed := true }
    have atStop : Course p h.userState h.position h.buffer.toList [] stop := by
      simp only [h, fed.attached.userState, fed.position, fed.buffer waits]
      exact fed.course.atStop
    have drained := Handle.drain_settles built productive h fed.attached.parser atStop
    have accepted := Handle.accept_finish s.handle _ fed.attached.opened failure drained
    refine ⟨_, call_delivered s fed.attached.quiet .finish _ accepted, fed.course, ?_, ?_⟩
    · rw [Handle.settled_closed h rfl]
      split <;> rfl
    · rw [Handle.settled_closed h rfl]
      unfold Stop.reports
      by_cases used : stop.rest = []
      · rw [if_pos used]
        simp [used, waits, flushed, Handle.moved, h, fed.attached.idle, told]
      · rw [if_neg used]
        simp [used, flushed, Handle.moved, Handle.refused, h, fed.attached.idle, told]
  | false =>
    rw [waits] at failure told
    have accepted := Handle.accept_finish_failed s.handle _ fed.attached.opened failure
    refine ⟨_, call_delivered s fed.attached.quiet .finish _ accepted, fed.course,
      fed.position, ?_⟩
    simp [Stop.reports, waits, flushed, fed.attached.idle, told]

/-- The rest of the chunks and then the end, by induction on the chunks. -/
theorem Fed.feeding (built : Built claimsEnd p) (productive : Productive p) (stable : Stable p)
    (fed : Fed p setup text values stop s) (chunks : List String) :
    ∃ newValues newStop after,
      (Session.calls (chunks.map .data ++ [.finish]) s).result =
        .ok (after, List.replicate (chunks.length + 1) none) ∧
      Finished p setup (text ++ (String.join chunks).toList) newValues newStop after := by
  induction chunks generalizing s text values stop with
  | nil =>
    obtain ⟨after, called, finished⟩ := fed.finish built productive
    refine ⟨values, stop, after, calls_cons called rfl, ?_⟩
    simpa using finished
  | cons chunk rest inductionHypothesis =>
    obtain ⟨_, _, middle, called, fedMiddle⟩ := fed.next built productive stable chunk
    obtain ⟨newValues, newStop, after, went, finished⟩ := inductionHypothesis fedMiddle
    refine ⟨newValues, newStop, after, calls_cons called went, ?_⟩
    simpa [String.join_cons] using finished

/-- All chunks of a text, of which there is at least one, and then the end. -/
theorem feeding (built : Built claimsEnd p) (productive : Productive p) (stable : Stable p)
    (setup : Setup) (chunks : List String) (some_chunk : chunks ≠ []) :
    ∃ values stop after,
      (calls (chunks.map .data ++ [.finish]) { handle := Handle.start p setup }).result =
        .ok (after, List.replicate (chunks.length + 1) none) ∧
      Finished p setup (String.join chunks).toList values stop after := by
  cases chunks with
  | nil => exact absurd rfl some_chunk
  | cons chunk rest =>
    obtain ⟨_, _, middle, called, fed⟩ := Fed.first built productive setup chunk
    obtain ⟨values, stop, after, went, finished⟩ := fed.feeding built productive stable rest
    refine ⟨values, stop, after, calls_cons called went, ?_⟩
    simpa [String.join_cons] using finished

end Session

/-- How a text is cut into chunks makes no difference to what is reported of it, nor to where the
handle stands in the end, if more text changes nothing that the parser has settled. No call
faults.

Proof: either row of chunks leaves its session finished with the course of the joined text, and a
text has one course only. -/
theorem chunking_irrelevant (built : Built claimsEnd p) (productive : Productive p)
    (stable : Stable p) (setup : Setup) (first second : List String) (someFirst : first ≠ [])
    (someSecond : second ≠ []) (sameText : String.join first = String.join second) :
    ∃ left right : Session,
      (Session.calls (first.map .data ++ [.finish]) { handle := Handle.start p setup }).result =
        .ok (left, List.replicate (first.length + 1) none) ∧
      (Session.calls (second.map .data ++ [.finish]) { handle := Handle.start p setup }).result =
        .ok (right, List.replicate (second.length + 1) none) ∧
      left.made = right.made ∧ left.handle.position = right.handle.position := by
  obtain ⟨values, stop, left, wentLeft, finishedLeft⟩ :=
    Session.feeding built productive stable setup first someFirst
  obtain ⟨otherValues, otherStop, right, wentRight, finishedRight⟩ :=
    Session.feeding built productive stable setup second someSecond
  have course := finishedRight.course
  rw [← sameText] at course
  obtain ⟨rfl, rfl⟩ := finishedLeft.course.unique course
  have made : left.made.toList = right.made.toList :=
    finishedLeft.made.trans finishedRight.made.symm
  exact ⟨left, right, wentLeft, wentRight, Array.toList_inj.mp made,
    finishedLeft.position.trans finishedRight.position.symm⟩

/-- A parser of two characters, and three characters in two ways: the second way ends with an
empty chunk. -/
theorem chunking_irrelevant_pairs :
    ∃ left right : Session,
      (Session.calls [.data "a", .data "bc", .finish]
        { handle := Handle.start (Parser.token 2) {} }).result =
          .ok (left, [none, none, none]) ∧
      (Session.calls [.data "abc", .data "", .finish]
        { handle := Handle.start (Parser.token 2) {} }).result =
          .ok (right, [none, none, none]) ∧
      left.made = right.made ∧ left.handle.position = right.handle.position :=
  chunking_irrelevant (Built.token 2 : Built False _) (Productive.token 2) (Stable.token 2) {}
    ["a", "bc"] ["abc", ""] (by decide) (by decide) (by decide)

/-- A text in a single chunk is reported as a repetition parses it in one go: its values in order,
and then the failure that the parser meets where the repetition stops, unless the whole text was
used up and the failure blames the end.

Proof: a course of the text is what the repetition makes, and also what the session reports. The
parser is run where the repetition stops, at an offset far into the text, but fails there as it
does afresh. -/
theorem feeding_agrees_with_collect (built : Built claimsEnd p) (productive : Productive p)
    (setup : Setup) (t : String) :
    ∃ (stopped : State) (values : List Value) (failed : State) (e : Failure) (after : Session),
      ((p.collect).parse (.ofString t) setup
        { allowTrailing := true, returnState := true }).result = .ok (.state stopped) ∧
      stopped.value = .list values ∧
      (p.run stopped).result = .ok failed ∧ failed.error = some e ∧
      (Session.calls [.data t, .finish] { handle := Handle.start p setup }).result =
        .ok (after, [none, none]) ∧
      after.made.toList = values.map .value ++
        if stopped.offset < stopped.input.size ∨ e.wasEof = false then [.failure e] else [] := by
  obtain ⟨values, stop, middle, calledData, fed⟩ := Session.Fed.first built productive setup t
  obtain ⟨after, calledFinish, finished⟩ := fed.finish built productive
  let start : State := State.front setup.userState setup.origin t.toList
  have startReady : start.Ready := State.front_ready _ _ _
  have startOnText : start.OnText := State.front_onText _ _ _
  have course : Course p start.userState start.position start.textAhead values stop := by
    rw [State.textAhead_front]
    exact fed.course
  obtain ⟨stopped, collected, value, arrived⟩ :=
    course.collect_enough built productive start startReady startOnText 0 (Nat.zero_le _)
  obtain ⟨failed, ran, refused⟩ := arrived.fails built startOnText course
  have left := arrived.offset_lt_iff startOnText
  have parsed : ((p.collect).parse (.ofString t) setup
      { allowTrailing := true, returnState := true }).result = .ok (.state stopped) := by
    have reached : (p.collect.reach setup (.ofString t)).result = .ok stopped :=
      Parser.reach_result setup (.ofString t) collected
    unfold Parser.parse
    simp only [if_true]
    rw [Run.result_bind_ok _ _ stopped reached, Parser.deliver, arrived.ready.clean]
    rfl
  have called : (Session.calls [.data t, .finish] { handle := Handle.start p setup }).result =
      .ok (after, [none, none]) :=
    Session.calls_cons calledData (Session.calls_cons calledFinish rfl)
  refine ⟨stopped, values, failed, stop.failure, after, parsed, value, ran, refused, called, ?_⟩
  rw [finished.made, Stop.reports]
  simp only [left]

/-- A parser of two characters and three characters: one value, and a failure that blames the end
but has a character in front of it. -/
theorem feeding_agrees_with_collect_pairs :
    ∃ (stopped : State) (values : List Value) (failed : State) (e : Failure) (after : Session),
      (((Parser.token 2).collect).parse (.ofString "abc") {}
        { allowTrailing := true, returnState := true }).result = .ok (.state stopped) ∧
      stopped.value = .list values ∧
      ((Parser.token 2).run stopped).result = .ok failed ∧ failed.error = some e ∧
      (Session.calls [.data "abc", .finish]
        { handle := Handle.start (Parser.token 2) {} }).result = .ok (after, [none, none]) ∧
      after.made.toList = values.map .value ++
        if stopped.offset < stopped.input.size ∨ e.wasEof = false then [.failure e] else [] :=
  feeding_agrees_with_collect (Built.token 2 : Built False _) (Productive.token 2) {} "abc"

end Descent
