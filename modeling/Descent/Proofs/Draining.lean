import Descent.Handle
import Descent.Proofs.Course
import Descent.Proofs.Iteration

/-!
# Draining a handle

A handle that is drained makes the course of its buffer. The first pass finds all the values the
course has, and keeps the text where the course stops. If there were any values, a second pass
meets the failure there; so does the first pass itself if there were none. What becomes of the
failure depends on whether the handle is closed: while it is open, a failure that blames the end
waits for more text, and once it is closed, only a failure before an empty buffer counts for
nothing.
-/

namespace Descent

variable {claimsEnd : Prop} {p : Parser} {reached : State} {values : List Value} {stop : Stop}

/-- A run that faults does so however it is recorded. -/
theorem Parser.reach_fault (setup : Setup) (input : Input) (fault : Fault)
    (ran : (p.run (setup.start input)).result = .error fault) :
    (p.reach setup input).result = .error fault := by
  unfold reach
  dsimp only
  rw [Run.result_note, Run.result_bind_error _ _ _ ran]

namespace Handle

/-- The state that a pass begins with. -/
def front (h : Handle) : State := State.front h.userState h.position h.buffer.toList

/-- Whether a failure in front of the buffer counts. -/
def blames (h : Handle) (e : Failure) : Bool :=
  if h.closed then !h.buffer.isEmpty else !e.wasEof

/-- The handle where a course of its buffer stops. -/
def moved (h : Handle) (values : List Value) (stop : Stop) : Handle :=
  { h with
    position := stop.position
    buffer := stop.rest.toArray
    pending := h.pending ++ values.map .value }

/-- The handle after a course of its buffer, and after the failure there if that counts. -/
def settled (h : Handle) (values : List Value) (stop : Stop) : Handle :=
  let after := h.moved values stop
  if after.blames stop.failure then after.refused stop.failure else after

/-- While a handle is open, a failure that blames the end waits. -/
theorem settled_opened (h : Handle) (opened : h.closed = false) (values : List Value)
    (stop : Stop) :
    h.settled values stop =
      if stop.failure.wasEof then h.moved values stop
      else (h.moved values stop).refused stop.failure := by
  have blamed : (h.moved values stop).blames stop.failure = !stop.failure.wasEof := by
    simp [blames, moved, opened]
  unfold settled
  dsimp only
  rw [blamed]
  cases stop.failure.wasEof <;> rfl

/-- Once a handle is closed, a failure counts if there is text before which it stopped. -/
theorem settled_closed (h : Handle) (closed : h.closed = true) (values : List Value)
    (stop : Stop) :
    h.settled values stop =
      if stop.rest = [] then h.moved values stop
      else (h.moved values stop).refused stop.failure := by
  have blamed : (h.moved values stop).blames stop.failure = !stop.rest.isEmpty := by
    simp [blames, moved, closed]
  unfold settled
  dsimp only
  rw [blamed]
  cases stop.rest <;> rfl

/-- The handle after a failure, be it that the failure waits or that it counts. -/
def afterFailure (h : Handle) (e : Failure) : Handle :=
  if e.wasEof && !h.closed then h else h.refused e

theorem blamed_result (h : Handle) (e : Failure) :
    (h.blamed e).result = .ok { handle := h.afterFailure e } := by
  unfold blamed afterFailure
  cases e.wasEof && !h.closed with
  | false => rfl
  | true => rfl

/-- A pass that has something to do goes by what the parser comes to on the buffer. -/
theorem pass_due (h : Handle) (due : (h.closed && h.buffer.isEmpty) = false) :
    h.pass =
      (h.parser.reach { userState := h.userState, position := some h.position }
        (.text h.buffer)).caught >>= fun outcome =>
          match outcome with
          | .error (.rejected e) => h.blamed e
          | .error fault => return { handle := h, fault := some fault }
          | .ok reached =>
            match reached.error with
            | none => return { handle := h.advanced reached, progressed := true }
            | some e => h.blamed e := by
  unfold pass
  rw [due]
  rfl

/-- A pass that has something to do parses the buffer from its start. -/
theorem pass_reached (h : Handle) (due : (h.closed && h.buffer.isEmpty) = false)
    (ran : (h.parser.run h.front).result = .ok reached) :
    h.pass.result = .ok (match reached.error with
      | none => { handle := h.advanced reached, progressed := true }
      | some e => { handle := h.afterFailure e }) := by
  have reach := Parser.reach_result { userState := h.userState, position := some h.position }
    (.text h.buffer) ran
  have caught : (h.parser.reach { userState := h.userState, position := some h.position }
      (.text h.buffer)).caught.result = .ok (.ok reached) := congrArg Except.ok reach
  rw [pass_due h due, Run.result_bind_ok _ _ _ caught]
  dsimp only
  cases reached.error with
  | none => rfl
  | some e => exact blamed_result h e

/-- What a fault of the parser comes to. A failure that was raised counts or waits like any other,
and any other fault is the fault of the pass. -/
def faulted (h : Handle) : Fault → Pass
  | .rejected e => { handle := h.afterFailure e }
  | fault => { handle := h, fault := some fault }

/-- A pass in which the parser faults. -/
theorem pass_faulted (h : Handle) (fault : Fault) (due : (h.closed && h.buffer.isEmpty) = false)
    (ran : (h.parser.run h.front).result = .error fault) :
    h.pass.result = .ok (h.faulted fault) := by
  have reach := Parser.reach_fault { userState := h.userState, position := some h.position }
    (.text h.buffer) fault ran
  have caught : (h.parser.reach { userState := h.userState, position := some h.position }
      (.text h.buffer)).caught.result = .ok (.error fault) := congrArg Except.ok reach
  rw [pass_due h due, Run.result_bind_ok _ _ _ caught]
  cases fault with
  | rejected e => exact blamed_result h e
  | _ => rfl

/-- Once closed, a handle with an empty buffer has nothing left to do. -/
theorem pass_idle (h : Handle) (idle : (h.closed && h.buffer.isEmpty) = true) :
    h.pass.result = .ok { handle := h } := by
  unfold pass
  rw [idle]
  rfl

/-- No more text waits behind what was parsed than was unread there. -/
theorem size_advanced_le (h : Handle) (reached : State) :
    (h.advanced reached).buffer.size ≤ reached.unread := by
  have few : reached.remaining.size ≤ reached.unread := by
    rw [State.remaining, Input.drop, Input.size_extract, State.unread, Input.place]
    split <;> omega
  unfold advanced
  dsimp only
  cases ahead : reached.remaining with
  | text chars =>
    rw [ahead] at few
    exact few
  | _ => exact Nat.zero_le _

/-- A pass that has parsed something has shortened the buffer, whatever the parser is. -/
theorem pass_shortens (h : Handle) (serves : h.parser = p.collect (.atLeast 1)) {done : Pass}
    (passed : h.pass.result = .ok done) (progressed : done.progressed = true) :
    done.handle.buffer.size < h.buffer.size := by
  cases due : h.closed && h.buffer.isEmpty with
  | true =>
    obtain rfl := Except.ok.inj ((pass_idle h due).symm.trans passed)
    cases progressed
  | false =>
    cases ran : (h.parser.run h.front).result with
    | error fault =>
      obtain rfl := Except.ok.inj ((pass_faulted h fault due ran).symm.trans passed)
      cases fault <;> cases progressed
    | ok reached =>
      obtain rfl := Except.ok.inj ((pass_reached h due ran).symm.trans passed)
      cases outcome : reached.error with
      | some e =>
        rw [outcome] at progressed
        cases progressed
      | none =>
        rw [serves] at ran
        have shorter : reached.unread < h.front.unread := Parser.collect_shortens ran outcome
        have whole : h.front.unread = h.buffer.size := by
          simp [front, State.front, State.unread, Input.size]
        rw [← whole]
        exact Nat.lt_of_le_of_lt (size_advanced_le h reached) shorter

/-- Draining is the loop over passes that goes on as long as they parse something. That no pass of
it leaves the buffer as long as it was need not be asked for. -/
theorem drain_loops (h : Handle) (serves : h.parser = p.collect (.atLeast 1)) :
    h.drain = h.pass >>= fun done =>
      if done.progressed then done.handle.drain else return (done.handle, done.fault) := by
  rw [drain]
  have ends : h.pass.Ensures fun done => h.pass.result = .ok done := fun _ passed => passed
  apply Run.bind_congr_ensures ends
  intro done passed
  by_cases progressed : done.progressed = true
  · rw [if_pos progressed, if_pos ⟨progressed, pass_shortens h serves passed progressed⟩]
  · rw [if_neg progressed, if_neg fun further => progressed further.1]

/-- A course without values leaves the handle in its place. -/
theorem moved_nil (h : Handle)
    (course : Course p h.userState h.position h.buffer.toList [] stop) : h.moved [] stop = h := by
  obtain ⟨position, rest⟩ := course.stop_of_nil
  unfold moved
  rw [position, rest, List.map_nil, List.append_nil]

/-- A pass over a course without values does nothing but count the failure. -/
theorem pass_settles (built : Built claimsEnd p) (productive : Productive p) (h : Handle)
    (serves : h.parser = p.collect (.atLeast 1))
    (course : Course p h.userState h.position h.buffer.toList [] stop) :
    h.pass.result = .ok { handle := h.settled [] stop } := by
  unfold settled
  dsimp only
  rw [moved_nil h course]
  cases due : h.closed && h.buffer.isEmpty with
  | true =>
    obtain ⟨closed, empty⟩ := Bool.and_eq_true_iff.mp due
    have blameless : h.blames stop.failure = false := by simp [blames, closed, empty]
    rw [pass_idle h due, blameless]
    rfl
  | false =>
    have whole : Course p h.front.userState h.front.position h.front.textAhead [] stop := by
      rw [front, State.textAhead_front]
      exact course
    obtain ⟨reached, ran, failed⟩ := whole.collect_short built productive h.front
      (State.front_ready _ _ _) (State.front_onText _ _ _) 1 Nat.zero_lt_one
    rw [← serves] at ran
    rw [pass_reached h due ran, failed]
    dsimp only
    unfold afterFailure
    cases closed : h.closed with
    | true =>
      have filled : h.buffer.isEmpty = false := by simpa [closed] using due
      have blamed : h.blames stop.failure = true := by simp [blames, closed, filled]
      rw [blamed]
      simp
    | false =>
      have blamed : h.blames stop.failure = !stop.failure.wasEof := by simp [blames, closed]
      rw [blamed]
      cases stop.failure.wasEof <;> rfl

/-- A pass over a course with values makes all of them. -/
theorem pass_moves (built : Built claimsEnd p) (productive : Productive p) (h : Handle)
    (serves : h.parser = p.collect (.atLeast 1))
    (course : Course p h.userState h.position h.buffer.toList values stop)
    (some_value : 1 ≤ values.length) :
    h.pass.result = .ok { handle := h.moved values stop, progressed := true } := by
  have shorter := course.length_rest built productive
  have due : (h.closed && h.buffer.isEmpty) = false := by
    have filled : h.buffer.isEmpty = false := by
      rw [Array.isEmpty_eq_false_iff]
      intro empty
      rw [empty] at shorter
      simp only [List.length_nil] at shorter
      omega
    rw [filled, Bool.and_false]
  have whole : Course p h.front.userState h.front.position h.front.textAhead values stop := by
    rw [front, State.textAhead_front]
    exact course
  have onText : h.front.OnText := State.front_onText _ _ _
  obtain ⟨reached, ran, value, arrived⟩ := whole.collect_enough built productive h.front
    (State.front_ready _ _ _) onText 1 some_value
  have advanced : h.advanced reached = h.moved values stop := by
    unfold advanced moved
    rw [State.remaining_eq_text reached (arrived.onText onText), arrived.position,
      arrived.textAhead, value]
    rfl
  rw [← serves] at ran
  rw [pass_reached h due ran, arrived.ready.clean, ← advanced]

/-- If there is nothing to parse, draining is a single pass. -/
theorem drain_stops (built : Built claimsEnd p) (productive : Productive p) (h : Handle)
    (serves : h.parser = p.collect (.atLeast 1))
    (course : Course p h.userState h.position h.buffer.toList [] stop) :
    h.drain.result = .ok (h.settled [] stop, none) := by
  rw [drain_loops h serves,
    Run.result_bind_ok _ _ _ (pass_settles built productive h serves course)]
  rfl

/-- A drained handle has made the course of its buffer. -/
theorem drain_settles (built : Built claimsEnd p) (productive : Productive p) (h : Handle)
    (serves : h.parser = p.collect (.atLeast 1))
    (course : Course p h.userState h.position h.buffer.toList values stop) :
    h.drain.result = .ok (h.settled values stop, none) := by
  cases values with
  | nil => exact drain_stops built productive h serves course
  | cons first rest =>
    let after : Handle := h.moved (first :: rest) stop
    have some_value : 1 ≤ (first :: rest).length := Nat.succ_le_succ (Nat.zero_le _)
    have atStop : Course p after.userState after.position after.buffer.toList [] stop :=
      course.atStop
    have again : after.settled [] stop = h.settled (first :: rest) stop := by
      unfold settled
      rw [moved_nil after atStop]
    rw [drain_loops h serves,
      Run.result_bind_ok _ _ _ (pass_moves built productive h serves course some_value), ← again]
    exact drain_stops built productive after serves atStop

/-! ## Calls on an open handle -/

/-- What is drained without a fault is to be delivered. -/
theorem drained_result (h after : Handle) (ran : h.drain.result = .ok (after, none)) :
    h.drained.result = .ok (after, .deliver) :=
  Run.result_bind_ok _ _ _ ran

/-- A chunk is put behind the buffer, and what is there then is drained. -/
theorem accept_data (h after : Handle) (chunk : String) (opened : h.closed = false)
    (unfailed : h.failure = none)
    (ran : ({ h with buffer := h.buffer ++ chunk.toList.toArray } : Handle).drain.result =
      .ok (after, none)) :
    (h.accept (.data chunk)).result = .ok (after, .deliver) := by
  rcases h with ⟨parser, userState, position, buffer, closed, failure, pending⟩
  dsimp only at opened unfailed
  subst opened unfailed
  exact drained_result _ after ran

/-- After a failure, chunks are dropped. -/
theorem accept_dropped (h : Handle) (chunk : String) (e : Failure) (opened : h.closed = false)
    (failed : h.failure = some e) : (h.accept (.data chunk)).result = .ok (h, .silent) := by
  unfold accept
  rw [opened, failed]
  rfl

/-- At the end the handle is closed and then drained. -/
theorem accept_finish (h after : Handle) (opened : h.closed = false)
    (unfailed : h.failure = none)
    (ran : ({ h with closed := true } : Handle).drain.result = .ok (after, none)) :
    (h.accept .finish).result = .ok (after, .deliver) := by
  rcases h with ⟨parser, userState, position, buffer, closed, failure, pending⟩
  dsimp only at opened unfailed
  subst opened unfailed
  exact drained_result _ after ran

/-- After a failure, the end only closes the handle. -/
theorem accept_finish_failed (h : Handle) (e : Failure) (opened : h.closed = false)
    (failed : h.failure = some e) :
    (h.accept .finish).result = .ok ({ h with closed := true }, .deliver) := by
  rcases h with ⟨parser, userState, position, buffer, closed, failure, pending⟩
  dsimp only at opened failed
  subst opened failed
  rfl

end Handle
end Descent
