import Descent.Proofs.Conversation
import Descent.Proofs.Extension
import Descent.Proofs.Onward

/-!
# Failures that are final

A failure that does not blame the end of the text is final for many parsers: whatever text is
added, they fail as they did. This is so where a parser reads its text straight on and never looks
for the end, since all that it has read stays as it was. It also holds for a choice between such
parsers, and for choices between choices. An alternative that ran out of text might succeed on
more of it, but its failure lies one column past the end, further on than all that the others have
to say, and so it is the one that the choice ends with.

For a handle this means that no failure it reports while it is open could have been mended by text
that was still to come.
-/

namespace Descent

variable {p : Parser} {s reached : State}

/-! ## Settled failures -/

/-- Nothing failed, or something did that more text does not mend. -/
def Failure.Settled (failure : Option Failure) : Prop := ∀ e, failure = some e → e.wasEof = false

/-- What stands for two failures of runs from one state is settled only if both are: at the end
lies the furthest of all places, and at one place both say the same about the end. -/
theorem Situated.settled_of_merge {e f : Failure} (start : 0 ≤ s.offset)
    (first : Situated False s e) (second : Situated False s f)
    (settled : (Failure.merge e f).wasEof = false) :
    e.wasEof = false ∧ f.wasEof = false := by
  obtain ⟨m, left, firstPlace, firstEnd⟩ := first.placed
  obtain ⟨n, right, secondPlace, secondEnd⟩ := second.placed
  have firstInside : e.wasEof = false ↔ m ≤ s.unread := by
    rw [← Bool.not_eq_true, firstEnd not_false, Nat.not_lt]
  have secondInside : f.wasEof = false ↔ n ≤ s.unread := by
    rw [← Bool.not_eq_true, secondEnd not_false, Nat.not_lt]
  rw [Failure.merge_of_worded e f first.worded second.worded, firstPlace, secondPlace,
    State.order_place s start m n left right] at settled
  cases compared : compare m n with
  | gt =>
    rw [compared] at settled
    have beyond : n < m := Nat.compare_eq_gt.mp compared
    have inside : m ≤ s.unread := firstInside.mp settled
    exact ⟨settled, secondInside.mpr (by omega)⟩
  | lt =>
    rw [compared] at settled
    have beyond : m < n := Nat.compare_eq_lt.mp compared
    have inside : n ≤ s.unread := secondInside.mp settled
    exact ⟨firstInside.mpr (by omega), settled⟩
  | eq =>
    rw [compared] at settled
    exact Bool.or_eq_false_iff.mp settled

/-- The same for possible failures. -/
theorem Situated.settled_of_merge? {earlier later : Option Failure} (start : 0 ≤ s.offset)
    (first : ∀ e, earlier = some e → Situated False s e)
    (second : ∀ e, later = some e → Situated False s e)
    (settled : Failure.Settled (Failure.merge? earlier later)) :
    Failure.Settled earlier ∧ Failure.Settled later := by
  cases earlier with
  | none => exact ⟨nofun, settled⟩
  | some e =>
    cases later with
    | none => exact ⟨settled, nofun⟩
    | some f =>
      obtain ⟨left, right⟩ :=
        Situated.settled_of_merge start (first e rfl) (second f rfl) (settled _ rfl)
      exact ⟨fun _ same => Option.some.inj same ▸ left, fun _ same => Option.some.inj same ▸ right⟩

/-! ## Reading straight on -/

/-- The parsers that read their text straight on. They neither look for its end nor try anything
twice, and do not claim themselves that the text has ended. -/
inductive Straight : Parser → Prop where
  | renamed {p q : Parser} (straight : Straight p) (sameRun : q.run = p.run) : Straight q
  | succeed (v : Value) : Straight (Parser.succeed v)
  | raising (fault : Fault) : Straight (Parser.raising fault)
  | failing (message : String) (kind : FailureKind) (ordinary : kind ≠ .eof) :
      Straight (Parser.failing message kind)
  | token (count : Nat) : Straight (Parser.token count)
  | bind {p : Parser} {next : Value → Parser} (first : Straight p)
      (second : ∀ v, Straight (next v)) : Straight (p.bind next)
  | label {p : Parser} (expected : String) (straight : Straight p) :
      Straight (p.label expected)
  | noted {p : Parser} (n : Note) (straight : Straight p) : Straight (p.noted n)

namespace Straight

/-- Whatever only puts parsers in order reads straight on if they do. -/
theorem sequential : Sequential Straight where
  renamed := renamed
  succeed := succeed
  raising := raising
  refusal message := failing message .failure nofun
  token := token
  bind := bind
  label := label
  noted := noted

theorem built (straight : Straight p) : Built False p := by
  induction straight with
  | renamed straight sameRun inductionHypothesis => exact .renamed inductionHypothesis sameRun
  | succeed v => exact .succeed v
  | raising fault => exact .raising fault
  | failing message kind ordinary => exact .failing message kind ordinary
  | token count => exact .token count
  | bind first second ofFirst ofSecond => exact .bind ofFirst ofSecond
  | label expected straight inductionHypothesis => exact .label expected inductionHypothesis
  | noted n straight inductionHypothesis => exact .noted n inductionHypothesis

end Straight

/-- A label changes the words of a failure, and neither what happened nor whether it is settled. -/
theorem Parser.label_inv (expected : String)
    (ran : ((p.label expected).run s).result = .ok reached)
    (settled : Failure.Settled reached.error) :
    ∃ middle, (p.run s).result = .ok middle ∧ middle.failed = reached.failed ∧
      Failure.Settled middle.error ∧
      ∀ more, (p.run (s.extended more)).result = .ok (middle.extended more) →
        ((p.label expected).run (s.extended more)).result = .ok (reached.extended more) := by
  obtain ⟨middle, went, relabelled⟩ := Run.result_bind_inv _ _ _ ran
  obtain rfl := Except.ok.inj relabelled
  refine ⟨middle, went, ?_, ?_, fun more longer => ?_⟩
  · simp [State.failed]
  · intro e failed
    exact settled (e.withMessages ["expected " ++ expected] .expectation) (by simp [failed])
  · rw [Parser.label, Run.result_bind_ok _ _ _ longer]
    simp only [State.extended_with_error, State.extended_error]
    rfl

/-- Asking for more items than there are blames the end, also where the offset is past it. -/
theorem Parser.token_blames_end (clean : s.error = none) (start : 0 ≤ s.offset) (count : Nat)
    (short : s.unread < max 1 count) (ran : ((token count).run s).result = .ok reached) :
    ∃ e, reached.error = some e ∧ e.wasEof = true := by
  obtain ⟨offset, same⟩ := Int.eq_ofNat_of_zero_le start
  have stop : s.offset + (max 1 count : Nat) = ((offset + max 1 count : Nat) : Int) := by omega
  have few : (s.input.slice s.offset (s.offset + (max 1 count : Nat))).size < max 1 count := by
    rw [stop, same, Input.slice_natCast, Input.size_extract]
    unfold State.unread at short
    omega
  unfold token at ran
  dsimp only at ran
  rw [if_pos few] at ran
  obtain rfl := Except.ok.inj ran
  exact ⟨_, by rw [clean, Failure.merge?_none_left], rfl⟩

/-- A parser that reads straight on does on a longer text what it did, unless it ran out of text.
By induction on the parser: what it has read when it goes on is within the shorter text. An offset
past the end does no harm, for nothing is read there. -/
theorem Straight.extended (straight : Straight p) (clean : s.error = none) (start : 0 ≤ s.offset)
    (onText : s.OnText) (more : List Char) (ran : (p.run s).result = .ok reached)
    (settled : Failure.Settled reached.error) :
    (p.run (s.extended more)).result = .ok (reached.extended more) := by
  induction straight generalizing s reached with
  | renamed straight sameRun inductionHypothesis =>
    rw [sameRun] at ran ⊢
    exact inductionHypothesis clean start onText ran settled
  | succeed v =>
    obtain rfl := Except.ok.inj ran
    obtain ⟨chars, same⟩ := onText
    simp [Parser.succeed, State.succeed, State.extended, same, Run.pure_eq]
  | raising fault => cases ran
  | failing message kind ordinary =>
    obtain rfl := Except.ok.inj ran
    simp only [Parser.failing, State.extended_with_error, State.extended_error,
      State.extended_position]
    rfl
  | token count =>
    by_cases short : s.unread < max 1 count
    · obtain ⟨e, failed, blamed⟩ := Parser.token_blames_end clean start count short ran
      cases blamed.symm.trans (settled e failed)
    · have enough : max 1 count ≤ s.unread := Nat.le_of_not_lt short
      have inside : s.offset ≤ s.input.size := by
        unfold State.unread at enough
        omega
      exact Parser.token_extended count ⟨clean, start, inside⟩ onText enough more ran
  | @bind p next first second ofFirst ofSecond =>
    obtain ⟨middle, went, rest⟩ := Run.result_bind_inv _ _ _ ran
    obtain ⟨sameInput, _, forward, _⟩ := first.built.onward s middle went
    by_cases failed : middle.failed = true
    · rw [if_pos failed] at rest
      obtain rfl := Except.ok.inj rest
      have wentLonger := ofFirst clean start onText went settled
      rw [← State.extended_failed middle more] at failed
      rw [Parser.bind, Run.result_bind_ok _ _ _ wentLonger, if_pos failed]
      rfl
    · rw [if_neg failed] at rest
      have succeeded : middle.error = none := middle.error_of_not_failed failed
      have nothing : Failure.Settled middle.error := by
        intro e found
        cases succeeded.symm.trans found
      have stillOnText : middle.OnText := by
        obtain ⟨chars, same⟩ := onText
        exact ⟨chars, sameInput.trans same⟩
      have wentLonger := ofFirst clean start onText went nothing
      rw [← State.extended_failed middle more] at failed
      rw [Parser.bind, Run.result_bind_ok _ _ _ wentLonger, if_neg failed,
        State.extended_value]
      exact ofSecond middle.value succeeded (Int.le_trans start forward) stillOnText rest settled
  | label expected straight inductionHypothesis =>
    obtain ⟨middle, went, _, before, labelled⟩ := Parser.label_inv expected ran settled
    exact labelled more (inductionHypothesis clean start onText went before)
  | noted n straight inductionHypothesis =>
    rw [Parser.noted, Run.result_note] at ran ⊢
    exact inductionHypothesis clean start onText ran settled

/-! ## Where failures lie -/

/-- Wherever a parser is started, unless the offset counts from the end, its failures lie between
there and one column past the end, and they blame the end just where they lie past it. -/
def Placed (p : Parser) : Prop :=
  ∀ s : State, s.error = none → 0 ≤ s.offset →
    (p.run s).Ensures fun reached => ∀ e, reached.error = some e → Situated False s e

/-- Where a failure lies is a matter of the place that it is counted from. -/
theorem Situated.of_place {t : State} {e : Failure} (input : t.input = s.input)
    (offset : t.offset = s.offset) (position : t.position = s.position)
    (situated : Situated False t e) : Situated False s e := by
  rcases s with ⟨_, _, _, _, _, _⟩
  rcases t with ⟨_, _, _, _, _, _⟩
  dsimp only at input offset position
  subst input offset position
  exact ⟨situated.worded, situated.placed⟩

/-- Past the end a parser that reads straight on reads nothing. If it succeeds it has stayed where
it was, and its failures lie there or one column further. -/
theorem Straight.past_end (straight : Straight p) (clean : s.error = none)
    (past : s.input.size ≤ s.offset) (ran : (p.run s).result = .ok reached) :
    (reached.error = none → reached.input = s.input ∧ reached.offset = s.offset ∧
        reached.position = s.position) ∧
      ∀ e, reached.error = some e → Situated False s e := by
  induction straight generalizing s reached with
  | renamed straight sameRun inductionHypothesis =>
    rw [sameRun] at ran
    exact inductionHypothesis clean past ran
  | succeed v =>
    obtain rfl := Except.ok.inj ran
    exact ⟨fun _ => ⟨rfl, rfl, rfl⟩, nofun⟩
  | raising fault => cases ran
  | failing message kind ordinary =>
    obtain rfl := Except.ok.inj ran
    rw [clean]
    refine ⟨nofun, ?_⟩
    intro e failed
    exact Option.some.inj failed ▸ Situated.here message kind fun eof => ordinary eof
  | token count =>
    have start : 0 ≤ s.offset := by omega
    have nothing : s.unread < max 1 count := by
      unfold State.unread
      omega
    rw [Parser.token_short s clean start count nothing] at ran
    obtain rfl := Except.ok.inj ran
    refine ⟨nofun, ?_⟩
    intro e failed
    exact Option.some.inj failed ▸ ⟨by simp, s.unread + 1, Nat.le_refl _, rfl, fun _ => by simp⟩
  | @bind p next first second ofFirst ofSecond =>
    obtain ⟨middle, went, rest⟩ := Run.result_bind_inv _ _ _ ran
    obtain ⟨stays, situated⟩ := ofFirst clean past went
    by_cases failed : middle.failed = true
    · rw [if_pos failed] at rest
      obtain rfl := Except.ok.inj rest
      exact ⟨stays, situated⟩
    · rw [if_neg failed] at rest
      have succeeded : middle.error = none := middle.error_of_not_failed failed
      obtain ⟨input, offset, position⟩ := stays succeeded
      have still : middle.input.size ≤ middle.offset := by rwa [input, offset]
      obtain ⟨staysLater, situatedLater⟩ := ofSecond middle.value succeeded still rest
      constructor
      · intro ended
        obtain ⟨sameInput, sameOffset, samePosition⟩ := staysLater ended
        exact ⟨sameInput.trans input, sameOffset.trans offset, samePosition.trans position⟩
      · intro e found
        exact Situated.of_place input offset position (situatedLater e found)
  | label expected straight inductionHypothesis =>
    obtain ⟨middle, went, relabelled⟩ := Run.result_bind_inv _ _ _ ran
    obtain rfl := Except.ok.inj relabelled
    obtain ⟨stays, situated⟩ := inductionHypothesis clean past went
    cases outcome : middle.error with
    | none => exact ⟨fun _ => stays outcome, nofun⟩
    | some f =>
      refine ⟨nofun, ?_⟩
      intro e found
      exact Option.some.inj found ▸ (situated f outcome).withMessages _ _
  | noted n straight inductionHypothesis =>
    rw [Parser.noted, Run.result_note] at ran
    exact inductionHypothesis clean past ran

/-- Failures of a parser that reads straight on, on the text and past its end. -/
theorem Straight.placed (straight : Straight p) : Placed p := by
  intro s clean start reached ran
  by_cases inside : s.offset ≤ s.input.size
  · exact (straight.built.leads s ⟨clean, start, inside⟩ reached ran).situated
  · exact (straight.past_end clean (by omega) ran).2

/-! ## Choosing between parsers -/

/-- Choices between parsers that read straight on. Whatever is tried instead of something else is
tried outermost. -/
inductive Forked : Parser → Prop where
  | straight {p : Parser} (straight : Straight p) : Forked p
  | choice {p : Parser} {more : List Parser} (all : ∀ q ∈ p :: more, Forked q) :
      Forked (Parser.choice p more)
  | label {p : Parser} (expected : String) (forked : Forked p) : Forked (p.label expected)

/-- Failures of a choice stand for failures of its alternatives. -/
theorem Forked.placed (forked : Forked p) : Placed p := by
  induction forked with
  | straight straight => exact straight.placed
  | @choice p more all inductionHypothesis =>
    intro s clean start
    refine Parser.attempt_ensures (fun earlier => ∀ e, earlier = some e → Situated False s e) ?_
      none nofun p more fun q member => inductionHypothesis q member s clean start
    intro before reached merged situated _
    have together := Situated.merge? start merged situated
    exact ⟨together, together⟩
  | label expected forked inductionHypothesis =>
    intro s clean start
    refine Run.ensures_bind _ _ _ _ (inductionHypothesis s clean start) ?_
    intro middle situated
    refine Run.ensures_pure _ _ ?_
    intro e found
    obtain ⟨f, failed, rfl⟩ := Option.map_eq_some_iff.mp found
    exact (situated f failed).withMessages _ _

/-- A parser whose settled failures are final: on a longer text it fails in the same way. -/
def Final (p : Parser) : Prop :=
  ∀ (s reached : State) (more : List Char), s.error = none → 0 ≤ s.offset → s.OnText →
    (p.run s).result = .ok reached → reached.failed = true → Failure.Settled reached.error →
    (p.run (s.extended more)).result = .ok (reached.extended more)

/-- After an attempt that failed come the others, or its failure is the last. -/
theorem Parser.attempt_stuck {middle : State} (earlier : Option Failure) (others : List Parser)
    (went : (p.run s).result = .ok middle) (stuck : middle.failed = true) :
    (attempt s earlier p others).result =
      (match others with
        | [] => pure { middle with error := Failure.merge? earlier middle.error }
        | next :: later => attempt s (Failure.merge? earlier middle.error) next later).result := by
  cases others <;> rw [attempt, Run.result_bind_ok _ _ _ went, if_pos stuck]

/-- If all attempts together fail, so does the first. -/
theorem Parser.attempt_inv (earlier : Option Failure) (others : List Parser)
    (ran : (attempt s earlier p others).result = .ok reached) (failed : reached.failed = true) :
    ∃ middle, (p.run s).result = .ok middle ∧ middle.failed = true := by
  have first : ∃ middle, (p.run s).result = .ok middle ∧
      (middle.failed = true ∨ middle = reached) := by
    cases others <;>
    · rw [attempt] at ran
      obtain ⟨middle, went, rest⟩ := Run.result_bind_inv _ _ _ ran
      refine ⟨middle, went, ?_⟩
      by_cases stuck : middle.failed = true
      · exact .inl stuck
      · rw [if_neg stuck] at rest
        exact .inr (Except.ok.inj rest)
  obtain ⟨middle, went, stuck | rfl⟩ := first
  · exact ⟨middle, went, stuck⟩
  · exact ⟨middle, went, failed⟩

/-- If all attempts together come to a settled failure, they do so on a longer text, and what was
there before them was settled too. By induction on the attempts that are left. -/
theorem Parser.attempt_extended (clean : s.error = none) (start : 0 ≤ s.offset)
    (onText : s.OnText) (more : List Char) (earlier : Option Failure)
    (merged : ∀ e, earlier = some e → Situated False s e) (p : Parser) (others : List Parser)
    (placed : ∀ q ∈ p :: others, Placed q)
    (final : ∀ q ∈ p :: others, Final q)
    (ran : (attempt s earlier p others).result = .ok reached) (failed : reached.failed = true)
    (settled : Failure.Settled reached.error) :
    Failure.Settled earlier ∧
      (attempt (s.extended more) earlier p others).result = .ok (reached.extended more) := by
  induction others generalizing earlier p with
  | nil =>
    obtain ⟨middle, went, stuck⟩ := attempt_inv earlier [] ran failed
    have situated := placed p List.mem_cons_self s clean start middle went
    rw [attempt_stuck earlier [] went stuck] at ran
    obtain rfl := Except.ok.inj ran
    obtain ⟨before, here⟩ := Situated.settled_of_merge? start merged situated settled
    have longer := final p List.mem_cons_self s middle more clean start onText went stuck here
    rw [← State.extended_failed middle more] at stuck
    refine ⟨before, ?_⟩
    rw [attempt_stuck earlier [] longer stuck]
    simp only [State.extended_with_error, State.extended_error]
    rfl
  | cons next later inductionHypothesis =>
    obtain ⟨middle, went, stuck⟩ := attempt_inv earlier (next :: later) ran failed
    have situated := placed p List.mem_cons_self s clean start middle went
    rw [attempt_stuck earlier (next :: later) went stuck] at ran
    obtain ⟨both, onwards⟩ := inductionHypothesis _
      (Situated.merge? start merged situated) next
      (fun q member => placed q (List.mem_cons_of_mem p member))
      (fun q member => final q (List.mem_cons_of_mem p member)) ran
    obtain ⟨before, here⟩ := Situated.settled_of_merge? start merged situated both
    have longer := final p List.mem_cons_self s middle more clean start onText went stuck here
    rw [← State.extended_failed middle more] at stuck
    refine ⟨before, ?_⟩
    rw [attempt_stuck earlier (next :: later) longer stuck, State.extended_error]
    exact onwards

/-- Settled failures of choices between parsers that read straight on are final. -/
theorem Forked.final (forked : Forked p) : Final p := by
  induction forked with
  | straight straight =>
    intro s reached more clean start onText ran _ settled
    exact straight.extended clean start onText more ran settled
  | @choice p others all inductionHypothesis =>
    intro s reached more clean start onText ran failed settled
    have placed : ∀ q ∈ p :: others, Placed q := fun q member => (all q member).placed
    obtain ⟨_, longer⟩ := Parser.attempt_extended clean start onText more none nofun p others placed
      inductionHypothesis ran failed settled
    exact longer
  | label expected forked inductionHypothesis =>
    intro s reached more clean start onText ran failed settled
    obtain ⟨middle, went, alike, before, labelled⟩ := Parser.label_inv expected ran settled
    rw [← alike] at failed
    exact labelled more (inductionHypothesis s middle more clean start onText went failed before)

/-! ## Failures that a handle has found -/

/-- A repetition that has to have a first value fails only if there is none. -/
theorem Parser.collect_refused {e : Failure}
    (ran : ((p.collect (.atLeast 1)).run s).result = .ok reached)
    (failed : reached.error = some e) : (p.run s).result = .ok reached := by
  have some_value : ∀ (v : Value) (harvest : Harvest),
      ((harvest.cons v).settle (.finite 1)).error = none := by
    intro v harvest
    unfold Harvest.settle
    cases refused : (harvest.cons v).refusal <;> simp [Harvest.cons, Limit.exceeds, State.succeed]
  have repeated : (repeated .collect (roundOf p) (.atLeast 1) s).result = .ok reached := ran
  rw [repeated_eq] at repeated
  obtain ⟨harvest, made, settled⟩ := Run.result_bind_inv _ _ _ repeated
  have harvested : (roundsOn .collect (roundOf p) s).result = .ok harvest := made
  rw [roundsOn_eq] at harvested
  obtain ⟨went, rounded, rest⟩ := Run.result_bind_inv _ _ _ harvested
  obtain ⟨middle, attempted, sorted⟩ := Run.result_bind_inv _ _ _ rounded
  by_cases stuck : middle.failed = true
  · rw [if_pos stuck] at sorted
    obtain rfl := Except.ok.inj sorted
    obtain rfl := Except.ok.inj rest
    obtain rfl := Except.ok.inj settled
    exact attempted
  · rw [if_neg stuck] at sorted
    obtain rfl := Except.ok.inj sorted
    by_cases less : middle.unread < s.unread
    · simp only [Round.proceed, if_pos less] at rest
      obtain ⟨later, _, together⟩ := Run.result_bind_inv _ _ _ rest
      obtain rfl := Except.ok.inj together
      obtain rfl := Except.ok.inj settled
      cases (some_value middle.value later).symm.trans failed
    · simp only [Round.proceed, if_neg less] at rest
      cases rest

/-- A handle serves a parser, and if it has failed, then as the parser does on what is in the
buffer. While it is open that failure does not blame the end. -/
structure Handle.Serves (p : Parser) (setup : Setup) (h : Handle) : Prop where
  parser : h.parser = p.collect (.atLeast 1)
  userState : h.userState = setup.userState
  refusal : ∀ e, h.failure = some e → h.Meets e ∧ (e.wasEof && !h.closed) = false

namespace Handle.Serves

variable {setup : Setup} {h after : Handle} {reports : List Report}

/-- Passes over the buffer stop at the failure that they find. -/
theorem drained (drains : h.Drains reports after) (parser : h.parser = p.collect (.atLeast 1))
    (userState : h.userState = setup.userState) (unfailed : h.failure = none) :
    after.Serves p setup where
  parser := drains.setup.1.trans parser
  userState := drains.setup.2.trans userState
  refusal _ found := drains.refusal unfailed found

/-- The queue plays no part in what a handle has failed with, nor does it matter if the handle has
been closed since. -/
theorem of_front (serves : h.Serves p setup) (parser : after.parser = h.parser)
    (front : after.front = h.front) (failure : after.failure = h.failure)
    (closed : h.closed = true → after.closed = true) : after.Serves p setup := by
  have userState : after.userState = h.userState := congrArg State.userState front
  refine ⟨parser.trans serves.parser, userState.trans serves.userState, ?_⟩
  intro e found
  obtain ⟨met, counts⟩ := serves.refusal e (failure.symm.trans found)
  refine ⟨met.of_front parser front, ?_⟩
  cases opened : h.closed with
  | true => rw [closed opened, Bool.not_true, Bool.and_false]
  | false =>
    have settled : e.wasEof = false := by simpa [opened] using counts
    rw [settled, Bool.false_and]

/-- Every call keeps what a handle has failed with. -/
theorem answered {call : Call} (serves : h.Serves p setup)
    (answers : h.Answers call reports after) : after.Serves p setup := by
  cases answers with
  | late call closed => exact serves
  | dropped chunk opened failed => exact serves
  | data opened unfailed drains => exact drained drains serves.parser serves.userState unfailed
  | finishFailed opened failed => exact serves.of_front rfl rfl rfl fun _ => rfl
  | finish opened unfailed drains => exact drained drains serves.parser serves.userState unfailed
  | error text opened => exact serves.of_front rfl rfl rfl fun _ => rfl

/-- Every move keeps what the handle has failed with. Reports play no part in it. -/
theorem move {s next : Scene} {deed : Deed} (serves : s.handle.Serves p setup)
    (move : Moves s deed next) : next.handle.Serves p setup := by
  cases move with
  | @call call after verdict free accepted =>
    obtain ⟨delivering, underWay, same⟩ := (s.answered call after).afterCall_eq verdict
    rw [same]
    exact serves.answered (Handle.answers_of_accepted accepted)
  | tell inner waiting => exact serves.of_front rfl rfl rfl id
  | heard inner => exact serves
  | raised inner => exact serves
  | delivered inner idle => exact serves

end Handle.Serves

/-- A failure among the reports of a handle is the one it has failed with. -/
theorem Handle.Accounts.failure_of_mem {h : Handle} {found : List Report} {e : Failure}
    (accounts : h.Accounts found) (member : .failure e ∈ found) : h.failure = some e := by
  obtain ⟨values, error, same, _⟩ := accounts
  rw [same] at member
  simpa using member

/-- In every scene of a conversation the handle serves the parser it was opened with. -/
theorem Conversation.serves {setup : Setup} {scene : Scene}
    (talk : Conversation (.opening p setup) scene) : scene.handle.Serves p setup := by
  have start : (Scene.opening p setup).handle.Serves p setup := ⟨rfl, rfl, nofun⟩
  have move : ∀ s deed next, s.handle.Serves p setup → Moves s deed next →
      next.handle.Serves p setup := fun _ _ _ serves move => serves.move move
  exact talk.keeps move start

/-- A choice between parsers that read straight on, if it fails without blaming the end of the
text, fails on every longer text. So it is from any place that counts from the start, be it past the
end. And so, whenever a handle for such a parser has found a failure while it is open, and the
parser came to an end there and did not raise it, the parser fails on every extension of the buffer
it failed on. -/
theorem refusal_is_final (forked : Forked p) :
    (∀ (s reached : State) (more : List Char) (e : Failure), s.error = none → 0 ≤ s.offset →
      s.OnText → (p.run s).result = .ok reached → reached.error = some e → e.wasEof = false →
      ∃ further, (p.run (s.extended more)).result = .ok further ∧ further.error = some e) ∧
    ∀ (setup : Setup) (scene : Scene) (ended : State) (more : List Char) (e : Failure),
      Conversation (.opening p setup) scene → scene.handle.closed = false →
      .failure e ∈ scene.made ++ scene.handle.pending →
      (scene.handle.parser.run scene.handle.front).result = .ok ended →
      ∃ further, (p.run (.front setup.userState scene.handle.position
          (scene.handle.buffer.toList ++ more))).result = .ok further ∧
        further.error = some e := by
  have final : ∀ (s reached : State) (more : List Char) (e : Failure), s.error = none →
      0 ≤ s.offset → s.OnText → (p.run s).result = .ok reached → reached.error = some e →
      e.wasEof = false →
      ∃ further, (p.run (s.extended more)).result = .ok further ∧ further.error = some e := by
    intro s reached more e clean start onText ran failed settled
    refine ⟨reached.extended more, ?_, by rw [State.extended_error, failed]⟩
    refine forked.final s reached more clean start onText ran (State.failed_of_error failed) ?_
    intro f found
    exact Option.some.inj (failed.symm.trans found) ▸ settled
  refine ⟨final, fun setup scene ended more e talk opened reported came => ?_⟩
  have accounted : scene.Reported :=
    talk.keeps (fun _ _ _ kept move => kept.move move) (Scene.reported_opening p setup)
  rw [accounted.queued] at reported
  have serves := talk.serves
  obtain ⟨met, counts⟩ := serves.refusal e (accounted.accounts.failure_of_mem reported)
  have settled : e.wasEof = false := by simpa [opened] using counts
  cases met with
  | raised ran => cases came.symm.trans ran
  | @ended reached ran failed =>
    rw [serves.parser, Handle.front, serves.userState] at ran
    rw [← State.extended_front]
    exact final _ reached more e rfl (Int.le_refl 0) (State.front_onText _ _ _)
      (Parser.collect_refused ran failed) failed settled

/-- One given character. -/
def Parser.only (c : String) : Parser := satisfying fun v => .ok (v.same (.text c))

/-- Either three given characters, or any two between parentheses. -/
def twoWays : Parser :=
  .label (.choice (.chain (.only "a") [.only "\n", .only "b"])
    [.between (.only "(") (.only ")") (Parser.token.collect (.exactly 2))]) "pair"

/-- Neither way fits three characters of which the last is wrong, whatever follows them. And a
handle that has been fed both ways, and then the second with a wrong end, has found a failure on
the latter that no text behind it mends. -/
theorem refusal_is_final_two_ways :
    (∀ more, ∃ further, (twoWays.run
        ((State.front .null {} ['a', '\n', 'c']).extended more)).result = .ok further ∧
      further.error = some ⟨⟨2, 1, none⟩, ["expected pair"], .expectation, false⟩) ∧
    ∃ scene, Conversation (.opening twoWays {}) scene ∧
      scene.handle.buffer.toList = ['(', 'x', '\n', 'y'] ∧
      ∀ more, ∃ further, (twoWays.run (.front .null scene.handle.position
          (scene.handle.buffer.toList ++ more))).result = .ok further ∧
        further.error = some ⟨⟨3, 1, none⟩, ["expected pair"], .expectation, false⟩ := by
  have closed : Sequential Straight := Straight.sequential
  have single : ∀ c, Straight (Parser.only c) := fun c => closed.satisfying _ (closed.token 1)
  have forked : Forked twoWays := by
    refine .label _ (.choice fun q member => ?_)
    rcases List.mem_cons.mp member with rfl | member
    · refine .straight (closed.chain (single _) fun next following => ?_)
      rcases List.mem_cons.mp following with rfl | following
      · exact single _
      · exact List.mem_singleton.mp following ▸ single _
    · obtain rfl := List.mem_singleton.mp member
      exact .straight (closed.between (single _) (single _) (closed.exactly 2 (closed.token 1)))
  let blamed : Failure := ⟨⟨3, 1, none⟩, ["expected pair"], .expectation, false⟩
  let opened : Handle := Handle.start twoWays {}
  let fed : Handle := { opened with
    position := ⟨2, 5, none⟩, buffer := #['(', 'x', '\n', 'y'], failure := some blamed
    pending := [.value (.text "b"), .value (.list [.text "x", .text "y"]), .failure blamed] }
  have accepted : (opened.accept (.data "a\nb(xy)(x\ny")).result = .ok (fed, .deliver) := by cbv
  have move : Moves (Scene.opening twoWays {}) _ _ :=
    .call (by simp [Scene.Free, Scene.opening]) accepted
  have talk := Conversation.next (.silence _) move
  have ended : (fed.parser.run fed.front).result = .ok
      { value := .text "y", input := .text #['(', 'x', '\n', 'y'], offset := 4
        position := ⟨3, 1, none⟩, error := some blamed } := by cbv
  refine ⟨fun more => ?_, _, talk, rfl, fun more => ?_⟩
  · exact (refusal_is_final forked).1 _ _ more _ rfl (Int.le_refl 0) (State.front_onText _ _ _)
      rfl rfl rfl
  · exact (refusal_is_final forked).2 {} _ _ more blamed talk rfl
      (by simp [Scene.afterCall, Scene.answered, Scene.opening, fed]) ended

/-- A character, or a way out that raises a failure of its own. -/
def orElseRaised (refusal : Failure) : Parser :=
  .choice (Parser.token 2) [Parser.succeed.map fun _ => .error (.rejected refusal)]

/-- An offset that counts from the end stands for another item when there is more text: before the
last character of two there is no *b*, and before that of three there is. And a failure that was
raised need not be final either: the alternative that raises it is tried only as long as the text is
too short for the one before it. -/
theorem refusal_not_final :
    (∃ s reached further : State, s.error = none ∧ s.offset = -2 ∧ s.OnText ∧
      Forked (.only "b") ∧ ((Parser.only "b").run s).result = .ok reached ∧
      reached.error = some ⟨⟨1, 1, none⟩, ["parser error"], .failure, false⟩ ∧
      ((Parser.only "b").run (s.extended ['c'])).result = .ok further ∧ further.error = none) ∧
    ∀ refusal : Failure, refusal.wasEof = false →
      Forked (orElseRaised refusal) ∧
      ∃ scene, Conversation (.opening (orElseRaised refusal) {}) scene ∧
        scene.handle.closed = false ∧ scene.handle.buffer.toList = ['a'] ∧
        scene.handle.pending = [.failure refusal] ∧
        ∃ further, ((orElseRaised refusal).run (.front .null {} ['a', 'b'])).result = .ok further ∧
          further.error = none := by
  constructor
  · have single : Straight (Parser.only "b") := Straight.sequential.satisfying _ (.token 1)
    exact ⟨{ value := .absent, input := .ofString "ab", offset := -2 }, _, _, rfl, rfl, ⟨_, rfl⟩,
      .straight single, rfl, rfl, rfl, rfl⟩
  · rintro ⟨position, messages, kind, wasEof⟩ ordinary
    dsimp only at ordinary
    subst ordinary
    let refusal : Failure := ⟨position, messages, kind, false⟩
    have raises : Straight (Parser.succeed.map fun _ => .error (.rejected refusal)) :=
      .bind (.succeed _) fun _ => .raising _
    have forked : Forked (orElseRaised refusal) := by
      refine .choice fun q member => ?_
      rcases List.mem_cons.mp member with rfl | member
      · exact .straight (.token 2)
      · exact List.mem_singleton.mp member ▸ .straight raises
    let opened : Handle := Handle.start (orElseRaised refusal) {}
    let fed : Handle := { opened with
      buffer := #['a'], failure := some refusal, pending := [.failure refusal] }
    have accepted : (opened.accept (.data "a")).result = .ok (fed, .deliver) := by cbv
    have move : Moves (Scene.opening (orElseRaised refusal) {}) _ _ :=
      .call (by simp [Scene.Free, Scene.opening]) accepted
    exact ⟨forked, _, .next (.silence _) move, rfl, rfl, rfl, _, rfl, rfl⟩

end Descent
