import Descent.Proofs.Built
import Descent.Proofs.Outcome
import Descent.Proofs.Passage

/-!
# From the state before a run to the state after it

What a run may do to a state is one relation: it keeps the input and the user state, never goes
back, and leaves the position that belongs to the offset. A success stays inside the input. A
failure lies between where the run began and one column past the end of the input and says
something; unless the grammar itself claims that the input has ended, it blames the end exactly
when it lies past it.

The relation composes along successes. Failures met later on lie among the places counted from
the start, and merging two of them keeps to those places: at one place both say the same about
the end, so the flag can neither be lost nor made up.
-/

namespace Descent

variable {claimsEnd : Prop} {s reached middle last : State}

/-- A failure that a run from a state may end with. -/
structure Situated (claimsEnd : Prop) (s : State) (e : Failure) : Prop where
  worded : e.messages ≠ []
  placed : ∃ count ≤ s.unread + 1, e.position = s.place count ∧
    (¬ claimsEnd → (e.wasEof = true ↔ s.unread < count))

/-- What a run from one state may leave. -/
structure Leads (claimsEnd : Prop) (s reached : State) : Prop where
  input : reached.input = s.input
  userState : reached.userState = s.userState
  forward : s.offset ≤ reached.offset
  position : reached.position = s.place (s.passed reached)
  inside : reached.error = none → reached.offset ≤ reached.input.size
  situated : ∀ e, reached.error = some e → Situated claimsEnd s e

namespace Leads

/-- A success is a state that the next parser may be started on. -/
theorem ready (ready : s.Ready) (leads : Leads claimsEnd s reached)
    (succeeded : reached.error = none) : reached.Ready where
  clean := succeeded
  start := Int.le_trans ready.start leads.forward
  inside := leads.inside succeeded

/-- What a success has passed is no longer unread. -/
theorem passed_add_unread (ready : s.Ready) (leads : Leads claimsEnd s reached)
    (succeeded : reached.error = none) : s.passed reached + reached.unread = s.unread := by
  have forward : s.offset ≤ reached.offset := leads.forward
  have inside : reached.offset ≤ reached.input.size := leads.inside succeeded
  have start : 0 ≤ s.offset := ready.start
  rw [leads.input] at inside
  unfold State.passed State.unread
  rw [leads.input]
  omega

/-- What a success leaves unread is a later part of what was unread before. -/
theorem ahead (ready : s.Ready) (leads : Leads claimsEnd s reached)
    (succeeded : reached.error = none) : reached.ahead = s.ahead.drop (s.passed reached) := by
  have start : 0 ≤ s.offset := ready.start
  have forward : s.offset ≤ reached.offset := leads.forward
  have length : s.remaining.breaks.length = s.unread := by
    rw [Input.breaks_length, s.size_remaining start]
  have few : s.passed reached ≤ s.unread := by
    rw [← passed_add_unread ready leads succeeded]
    exact Nat.le_add_right _ _
  have further : s.offset.toNat + s.passed reached = reached.offset.toNat := by
    unfold State.passed
    omega
  unfold State.ahead
  rw [List.drop_append_of_le_length (by omega),
    State.breaks_remaining reached (leads.ready ready succeeded),
    State.breaks_remaining s ready, List.drop_drop, leads.input, further]

/-- Places counted from a success are places counted from the start. -/
theorem place (ready : s.Ready) (leads : Leads claimsEnd s reached)
    (succeeded : reached.error = none) (count : Nat) :
    reached.place count = s.place (s.passed reached + count) := by
  unfold State.place
  rw [leads.position, leads.ahead ready succeeded, State.place, List.take_add,
    Position.along_append]

/-- Nothing has happened yet. -/
theorem refl (ready : s.Ready) : Leads claimsEnd s s where
  input := rfl
  userState := rfl
  forward := Int.le_refl _
  position := by rw [State.passed, Int.sub_self]; rfl
  inside _ := ready.inside
  situated e failed := by rw [ready.clean] at failed; cases failed

/-- What a state holds besides its place does not matter to what leads to it. -/
theorem succeed (leads : Leads claimsEnd s reached) (succeeded : reached.error = none)
    (v : Value) : Leads claimsEnd s (reached.succeed v) where
  input := leads.input
  userState := leads.userState
  forward := leads.forward
  position := leads.position
  inside _ := leads.inside succeeded
  situated e failed := by cases failed

end Leads

namespace Situated

/-- A failure met after a success lies among the places counted from the start. -/
theorem before {e : Failure} (ready : s.Ready) (leads : Leads claimsEnd s middle)
    (succeeded : middle.error = none) (situated : Situated claimsEnd middle e) :
    Situated claimsEnd s e := by
  obtain ⟨worded, count, inside, position, ended⟩ := situated
  have unread : s.passed middle + middle.unread = s.unread :=
    leads.passed_add_unread ready succeeded
  refine ⟨worded, s.passed middle + count, by omega, ?_, fun honest => ?_⟩
  · rw [position, leads.place ready succeeded]
  · rw [ended honest]
    omega

/-- A plain failure where the run began. -/
theorem here (message : String) (kind : FailureKind)
    (admitted : kind = .eof → claimsEnd) :
    Situated claimsEnd s ⟨s.position, [message], kind, kind == .eof⟩ := by
  have start : 0 ≤ s.unread := Nat.zero_le _
  refine ⟨by simp, 0, by omega, rfl, fun honest => ?_⟩
  have ordinary : kind ≠ .eof := fun eof => honest (admitted eof)
  simp [ordinary]

/-- A failure keeps its place and what it says about the end under other words. -/
theorem withMessages {e : Failure} (situated : Situated claimsEnd s e) (message : String)
    (kind : FailureKind) : Situated claimsEnd s (e.withMessages [message] kind) :=
  ⟨by simp [Failure.withMessages], situated.placed⟩

end Situated

/-- The first occurrences of messages are none only if there are no messages. -/
theorem Failure.distinctMessages_ne_nil (messages : List String) (worded : messages ≠ []) :
    Failure.distinctMessages messages ≠ [] := by
  cases messages with
  | nil => exact absurd rfl worded
  | cons message rest => simp [Failure.distinctMessages]

/-- Failures that say something are merged by their places alone. -/
theorem Failure.merge_of_worded (e f : Failure) (first : e.messages ≠ [])
    (second : f.messages ≠ []) :
    Failure.merge e f =
      match e.position.order f.position with
      | .gt => e
      | .lt => f
      | .eq => Failure.joined e f := by
  have filledFirst : e.messages.isEmpty = false := by simpa using first
  have filledSecond : f.messages.isEmpty = false := by simpa using second
  have keepsFirst : ¬ (e.messages.isEmpty && !f.messages.isEmpty) = true := by simp [filledFirst]
  have keepsSecond : ¬ (f.messages.isEmpty && !e.messages.isEmpty) = true := by
    simp [filledSecond]
  exact (if_neg keepsFirst).trans (if_neg keepsSecond)

/-- What stands for two failures that say something says something. -/
theorem Failure.merge_worded (e f : Failure) (first : e.messages ≠ [])
    (second : f.messages ≠ []) : (Failure.merge e f).messages ≠ [] := by
  rw [Failure.merge_of_worded e f first second]
  cases e.position.order f.position with
  | gt => exact first
  | lt => exact second
  | eq => exact distinctMessages_ne_nil _ (List.append_ne_nil_of_left_ne_nil first _)

/-- The furthest of two failures is one of them, and at one place both say the same about the
end: the flag belongs to the place. -/
theorem Situated.merge {e f : Failure} (start : 0 ≤ s.offset) (first : Situated claimsEnd s e)
    (second : Situated claimsEnd s f) : Situated claimsEnd s (Failure.merge e f) := by
  refine ⟨Failure.merge_worded e f first.worded second.worded, ?_⟩
  rw [Failure.merge_of_worded e f first.worded second.worded]
  obtain ⟨m, left, firstPlace, firstEnd⟩ := first.placed
  obtain ⟨n, right, secondPlace, secondEnd⟩ := second.placed
  rw [firstPlace, secondPlace, State.order_place s start m n left right]
  cases compared : compare m n with
  | gt => exact first.placed
  | lt => exact second.placed
  | eq =>
    have same : m = n := Nat.compare_eq_eq.mp compared
    subst same
    refine ⟨m, left, secondPlace, fun honest => ?_⟩
    · simp only [Failure.joined, Bool.or_eq_true, firstEnd honest, secondEnd honest, or_self]

/-- A run may go on from a success. -/
theorem Leads.trans (ready : s.Ready) (first : Leads claimsEnd s middle)
    (succeeded : middle.error = none) (second : Leads claimsEnd middle last) :
    Leads claimsEnd s last where
  input := second.input.trans first.input
  userState := second.userState.trans first.userState
  forward := Int.le_trans first.forward second.forward
  position := by
    have further : s.passed middle + middle.passed last = s.passed last := by
      have start : s.offset ≤ middle.offset := first.forward
      have rest : middle.offset ≤ last.offset := second.forward
      unfold State.passed
      omega
    rw [second.position, first.place ready succeeded, further]
  inside ended := second.inside ended
  situated e failed := (second.situated e failed).before ready first succeeded

namespace Parser

/-- Consuming more items than there are fails one column past the end. -/
theorem token_short (s : State) (clean : s.error = none) (start : 0 ≤ s.offset) (count : Nat)
    (short : s.unread < max 1 count) :
    (token count).run s = pure { s with
      offset := s.offset + (max 1 count : Nat), position := s.place (s.unread + 1),
      error := some ⟨s.place (s.unread + 1), ["unexpected eof"], .eof, true⟩ } := by
  have size : (s.remaining.extract 0 (max 1 count)).size < max 1 count := by
    rw [State.size_next s start]
    omega
  unfold token
  dsimp only
  rw [State.slice_eq_extract s start, if_pos size, State.over_next_short s start _ short]
  unfold failing
  rw [clean]
  rfl

/-- Consuming items that are there moves to the place after them. -/
theorem token_enough (s : State) (ready : s.Ready) (count : Nat) (enough : max 1 count ≤ s.unread) :
    (token count).run s = pure { s with
      value := (s.remaining.extract 0 (max 1 count)).toValue,
      offset := s.offset + (max 1 count : Nat), position := s.place (max 1 count),
      error := none } := by
  have size : ¬ (s.remaining.extract 0 (max 1 count)).size < max 1 count := by
    rw [State.size_next s ready.start]
    omega
  unfold token
  dsimp only
  rw [State.slice_eq_extract s ready.start, if_neg size, State.over_next s ready _ enough]

end Parser

namespace Leads

/-- A failure on the spot. -/
theorem failing (ready : s.Ready) (message : String) (kind : FailureKind)
    (admitted : kind = .eof → claimsEnd) :
    ((Parser.failing message kind).run s).Ensures (Leads claimsEnd s) := by
  have start : Leads claimsEnd s s := refl ready
  refine Run.ensures_pure _ _ ?_
  rw [ready.clean]
  exact { start with
    inside := nofun
    situated := fun e failed => Option.some.inj failed ▸ Situated.here message kind admitted }

/-- Consuming items moves over them; running off the end stops one column past it. -/
theorem token (ready : s.Ready) (count : Nat) :
    ((Parser.token count).run s).Ensures (Leads claimsEnd s) := by
  have inside : s.offset ≤ s.input.size := ready.inside
  have forward : s.offset ≤ s.offset + (max 1 count : Nat) := by omega
  have passed : (s.offset + (max 1 count : Nat) - s.offset).toNat = max 1 count := by omega
  by_cases short : s.unread < max 1 count
  · have same : s.place (s.unread + 1) = s.place (max 1 count) := by
      rw [State.place_beyond s ready.start _ short,
        State.place_beyond s ready.start _ (Nat.lt_succ_self _)]
    rw [Parser.token_short s ready.clean ready.start count short]
    refine Run.ensures_pure _ _ ⟨rfl, rfl, forward, ?_, nofun, fun e failed => ?_⟩
    · rw [State.passed, passed, same]
    · have blamed := Option.some.inj failed
      subst blamed
      exact ⟨by simp, s.unread + 1, Nat.le_refl _, rfl, fun _ => by simp⟩
  · have enough : max 1 count ≤ s.unread := Nat.le_of_not_lt short
    rw [Parser.token_enough s ready count enough]
    refine Run.ensures_pure _ _ ⟨rfl, rfl, forward, ?_, fun _ => ?_, nofun⟩
    · rw [State.passed, passed]
    · unfold State.unread at enough
      simp only
      omega

/-- The end of the input is a matter of the offset, and nothing moves. -/
theorem atEnd (ready : s.Ready) : (Parser.atEnd.run s).Ensures (Leads claimsEnd s) := by
  unfold Parser.atEnd
  dsimp only
  by_cases ended : (s.input.size : Int) = s.offset
  · rw [if_pos ended]
    exact Run.ensures_pure _ _ ((refl ready).succeed ready.clean _)
  · rw [if_neg ended]
    exact failing ready _ _ nofun

end Leads

theorem State.failed_of_error {e : Failure} (given : s.error = some e) : s.failed = true := by
  rw [failed, given]
  rfl

theorem State.not_failed_of_clean (clean : s.error = none) : ¬ s.failed = true := by
  rw [failed, clean]
  exact Bool.false_ne_true

/-- A state that has not failed carries no failure. -/
theorem State.error_of_not_failed (s : State) (succeeded : ¬ s.failed = true) :
    s.error = none := by
  simpa [State.failed] using succeeded

/-- Without a failure a success only puts another value in place. -/
theorem State.succeed_of_clean (s : State) (clean : s.error = none) (w : Value) :
    s.succeed w = { s with value := w } := by
  rw [State.succeed, ← clean]

/-- A failed state carries a failure. -/
theorem State.error_of_failed (s : State) (failed : s.failed = true) : ∃ e, s.error = some e :=
  Option.isSome_iff_exists.mp failed

/-- A failed state still fails with an earlier failure merged into its own. -/
theorem State.failed_merged (s : State) (earlier : Option Failure) (failed : s.failed = true) :
    ({ s with error := Failure.merge? earlier s.error } : State).failed = true := by
  obtain ⟨e, found⟩ := s.error_of_failed failed
  obtain ⟨merged, same⟩ := Failure.exists_merge?_some earlier e
  rw [State.failed, found, same]
  rfl

/-- Merging possible failures of runs from one state gives a possible failure of such a run. -/
theorem Situated.merge? {earlier later : Option Failure} (start : 0 ≤ s.offset)
    (first : ∀ e, earlier = some e → Situated claimsEnd s e)
    (second : ∀ e, later = some e → Situated claimsEnd s e) :
    ∀ e, Failure.merge? earlier later = some e → Situated claimsEnd s e := by
  intro e merged
  cases earlier with
  | none => exact second e merged
  | some f =>
    cases later with
    | none => exact first e merged
    | some g =>
      have same : Failure.merge f g = e := Option.some.inj merged
      exact same ▸ Situated.merge start (first f rfl) (second g rfl)

/-- What every attempt of a choice ensures the choice ensures, if it may also be said of an attempt
whose failure stands for those before it. -/
theorem Parser.attempt_ensures (merged : Option Failure → Prop) {post : State → Prop}
    (step : ∀ earlier reached, merged earlier → post reached → reached.failed = true →
      merged (Failure.merge? earlier reached.error) ∧
        post { reached with error := Failure.merge? earlier reached.error })
    (earlier : Option Failure) (before : merged earlier) (p : Parser) (more : List Parser)
    (all : ∀ q ∈ p :: more, (q.run s).Ensures post) :
    (attempt s earlier p more).Ensures post := by
  induction more generalizing earlier p with
  | nil =>
    rw [attempt_nil]
    refine Run.ensures_bind _ _ _ _ (all p List.mem_cons_self) ?_
    intro reached holds
    by_cases failed : reached.failed = true
    · rw [if_pos failed]
      exact Run.ensures_pure _ _ (step earlier reached before holds failed).2
    · rw [if_neg failed]
      exact Run.ensures_pure _ _ holds
  | cons next later inductionHypothesis =>
    rw [attempt_cons]
    refine Run.ensures_bind _ _ _ _ (all p List.mem_cons_self) ?_
    intro reached holds
    by_cases failed : reached.failed = true
    · rw [if_pos failed]
      exact inductionHypothesis _ (step earlier reached before holds failed).1 next
        fun q member => all q (List.mem_cons_of_mem p member)
    · rw [if_neg failed]
      exact Run.ensures_pure _ _ holds

/-- Every attempt starts where the choice does, and so does what is left of all of them. -/
theorem Leads.attempt (ready : s.Ready) (earlier : Option Failure)
    (merged : ∀ e, earlier = some e → Situated claimsEnd s e) (p : Parser) (more : List Parser)
    (all : ∀ q ∈ p :: more, (q.run s).Ensures (Leads claimsEnd s)) :
    (Parser.attempt s earlier p more).Ensures (Leads claimsEnd s) := by
  refine Parser.attempt_ensures (fun earlier => ∀ e, earlier = some e → Situated claimsEnd s e) ?_
    earlier merged p more all
  intro before reached situated leads failed
  have together := Situated.merge? ready.start situated leads.situated
  refine ⟨together, { leads with inside := ?_, situated := together }⟩
  obtain ⟨e, found⟩ := reached.error_of_failed failed
  rw [found]
  cases before <;> nofun

end Descent
