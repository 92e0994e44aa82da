import Descent.Parse
import Descent.Proofs.Locality

/-!
# A parser applied to a text again and again

A course says what comes of a parser that is applied to a text as often as it succeeds: the
values in order, and where and why it stops. Each application starts afresh on what the one
before left, with the position carried over and everything else forgotten.

A repetition applies the parser without starting afresh, at growing offsets of one text. To a
built parser that makes no difference, so a repetition that ends has made exactly the course of
its text. Every text has a course if the parser always ends and never succeeds without consuming
something, and only one.
-/

namespace Descent

variable {claimsEnd : Prop} {s reached : State} {p : Parser} {userState : Value}

namespace State

/-- Whether the input is a text. -/
def OnText (s : State) : Prop := ∃ chars, s.input = .text chars

/-- The characters that are unread. -/
def textAhead (s : State) : List Char :=
  match s.remaining with
  | .text chars => chars.toList
  | _ => []

/-- The state that a fresh parse of some characters begins with. -/
def front (userState : Value) (position : Position) (chars : List Char) : State where
  value := .absent
  input := .text chars.toArray
  position := position
  userState := userState

/-- A fresh state with the same characters ahead. -/
def restarted (s : State) : State := front s.userState s.position s.textAhead

end State

/-- What a parser reaches does not depend on how it is recorded. -/
theorem Parser.reach_result (setup : Setup) (input : Input)
    (ran : (p.run (setup.start input)).result = .ok reached) :
    (p.reach setup input).result = .ok reached := by
  unfold reach
  dsimp only
  rw [Run.result_note, Run.result_bind_ok _ _ _ ran]
  cases reached.error with
  | none => rfl
  | some failure => exact Run.result_note _ _

/-- A parser that ends on every text, and never succeeds there without consuming something. -/
structure Productive (p : Parser) : Prop where
  total : ∀ s : State, s.Ready → s.OnText → ∃ reached, (p.run s).result = .ok reached
  consumes : ∀ s reached : State, s.Ready → s.OnText → (p.run s).result = .ok reached →
    reached.error = none → s.offset < reached.offset

/-- Where a course stops: the position, the text that is left, and why. -/
structure Stop where
  position : Position
  rest : List Char
  failure : Failure

/-- What comes of applying a parser as often as it succeeds. -/
inductive Course (p : Parser) (userState : Value) :
    Position → List Char → List Value → Stop → Prop where
  | stops {position : Position} {chars : List Char} {reached : State} {e : Failure}
      (ran : (p.run (State.front userState position chars)).result = .ok reached)
      (failed : reached.error = some e) :
      Course p userState position chars [] ⟨position, chars, e⟩
  | goesOn {position : Position} {chars : List Char} {reached : State} {values : List Value}
      {stop : Stop} (ran : (p.run (State.front userState position chars)).result = .ok reached)
      (succeeded : reached.error = none)
      (later : Course p userState reached.position reached.textAhead values stop) :
      Course p userState position chars (reached.value :: values) stop

namespace State

theorem front_ready (userState : Value) (position : Position) (chars : List Char) :
    (front userState position chars).Ready :=
  ⟨rfl, Int.le_refl _, Int.natCast_nonneg _⟩

theorem front_onText (userState : Value) (position : Position) (chars : List Char) :
    (front userState position chars).OnText := ⟨_, rfl⟩

/-- Of a text, what is unread is a text. -/
theorem remaining_eq_text (s : State) (onText : s.OnText) :
    s.remaining = .text s.textAhead.toArray := by
  obtain ⟨chars, same⟩ := onText
  unfold textAhead remaining Input.drop
  rw [same]
  rfl

/-- Of a fresh text nothing has been consumed. -/
theorem remaining_front (userState : Value) (position : Position) (chars : List Char) :
    (front userState position chars).remaining = .text chars.toArray := by
  rw [remaining_eq_extract _ (front_ready userState position chars).start]
  simp [front, Input.extract, Input.size]

/-- All characters of a fresh text are unread. -/
theorem textAhead_front (userState : Value) (position : Position) (chars : List Char) :
    (front userState position chars).textAhead = chars := by
  rw [textAhead, remaining_front]

/-- The unread items of a text are its unread characters. -/
theorem length_textAhead (s : State) (ready : s.Ready) (onText : s.OnText) :
    s.textAhead.length = s.unread := by
  rw [← s.size_remaining ready.start, remaining_eq_text s onText]
  simp [Input.size]

/-- Starting afresh is no difference that shows. -/
theorem alike_restarted (s : State) (onText : s.OnText) : Alike s s.restarted where
  remaining := by
    rw [remaining_eq_text s onText, remaining_eq_text s.restarted (front_onText _ _ _), restarted,
      textAhead_front]
  userState := rfl

/-- Starting afresh keeps all places. -/
theorem place_restarted (s : State) (onText : s.OnText) (count : Nat) :
    s.restarted.place count = s.place count := by
  unfold place ahead
  rw [(alike_restarted s onText).remaining]
  rfl

end State

/-- What a success leaves of a text is a text. -/
theorem Leads.onText (onText : s.OnText) (leads : Leads claimsEnd s reached) :
    reached.OnText := by
  obtain ⟨chars, same⟩ := onText
  exact ⟨chars, leads.input.trans same⟩

/-- What a success leaves of a text is what it has not passed. -/
theorem Leads.textAhead (ready : s.Ready) (onText : s.OnText) (leads : Leads claimsEnd s reached)
    (succeeded : reached.error = none) :
    reached.textAhead = s.textAhead.drop (s.passed reached) := by
  have rest := leads.remaining ready succeeded
  rw [State.remaining_eq_text s onText] at rest
  rw [State.textAhead, rest]
  simp only [Input.extract, Input.size, List.extract_toArray, List.extract_eq_take_drop,
    List.size_toArray]
  exact List.take_of_length_le (Nat.le_of_eq List.length_drop)

/-- What a run on a fresh state does, it does on any state with the same characters ahead: it
reaches the same position, fails with the same failure, and after a success has the same value
and the same characters ahead. -/
theorem Built.as_restarted (built : Built claimsEnd p) (ready : s.Ready) (onText : s.OnText)
    {fresh : State} (ran : (p.run s.restarted).result = .ok fresh) :
    ∃ reached, (p.run s).result = .ok reached ∧ Leads claimsEnd s reached ∧
      reached.position = fresh.position ∧ reached.error = fresh.error ∧
      (fresh.error = none → reached.value = fresh.value ∧
        reached.textAhead = fresh.textAhead) := by
  have restartedReady : s.restarted.Ready := State.front_ready _ _ _
  have alike : Alike s s.restarted := State.alike_restarted s onText
  cases built.paired s s.restarted ready restartedReady alike with
  | faulted fault left right =>
    rw [ran] at right
    cases right
  | ended reached other left right paired =>
    obtain rfl : fresh = other := Except.ok.inj (ran.symm.trans right)
    have position : reached.position = fresh.position := by
      rw [paired.left.position, paired.right.position, paired.level.moved,
        State.place_restarted s onText]
    refine ⟨reached, left, paired.left, position, ?_⟩
    cases paired.level.outcome with
    | succeeded leftClean rightClean value =>
      refine ⟨leftClean.trans rightClean.symm, fun _ => ⟨value, ?_⟩⟩
      have after := alike.after ready restartedReady (paired.abreast leftClean rightClean)
      rw [State.textAhead, State.textAhead, after.remaining]
    | failed e f leftFailed rightFailed twins =>
      obtain ⟨count, _, leftPlace, rightPlace⟩ := twins.placed
      have same : e = f := by
        rcases e with ⟨_, _, _, _⟩
        rcases f with ⟨_, _, _, _⟩
        simp only [Failure.mk.injEq]
        refine ⟨?_, twins.messages, twins.kind, twins.wasEof⟩
        exact leftPlace.trans ((State.place_restarted s onText count).symm.trans rightPlace.symm)
      rw [leftFailed, rightFailed, same]
      exact ⟨rfl, fun impossible => by cases impossible⟩

namespace Productive

/-- A productive success on a text leaves less unread. -/
theorem unread_lt (productive : Productive p) (ready : s.Ready) (onText : s.OnText)
    (leads : Leads claimsEnd s reached) (ran : (p.run s).result = .ok reached)
    (succeeded : reached.error = none) : reached.unread < s.unread := by
  have consumed : s.offset < reached.offset :=
    productive.consumes s reached ready onText ran succeeded
  have inside : reached.offset ≤ reached.input.size := leads.inside succeeded
  unfold State.unread
  rw [leads.input] at inside ⊢
  omega

/-- A productive success leaves fewer characters of a fresh text. -/
theorem textAhead_lt (productive : Productive p) (built : Built claimsEnd p)
    {position : Position} {chars : List Char}
    (ran : (p.run (State.front userState position chars)).result = .ok reached)
    (succeeded : reached.error = none) : reached.textAhead.length < chars.length := by
  have ready : (State.front userState position chars).Ready := State.front_ready _ _ _
  have onText : (State.front userState position chars).OnText := State.front_onText _ _ _
  have leads := built.leads _ ready reached ran
  have less := productive.unread_lt ready onText leads ran succeeded
  rwa [← State.length_textAhead _ (leads.ready ready succeeded) (leads.onText onText),
    ← State.length_textAhead _ ready onText, State.textAhead_front] at less

end Productive

namespace Course

variable {position : Position} {chars : List Char} {values : List Value} {stop : Stop}

/-- Every text has a course, by induction on its length: a success leaves a shorter one. -/
theorem exists_of_productive (built : Built claimsEnd p) (productive : Productive p)
    (userState : Value) (position : Position) (chars : List Char) :
    ∃ values stop, Course p userState position chars values stop := by
  induction size : chars.length using Nat.strongRecOn generalizing position chars with
  | ind length inductionHypothesis =>
    obtain ⟨reached, ran⟩ :=
      productive.total _ (State.front_ready userState position chars) (State.front_onText _ _ _)
    cases outcome : reached.error with
    | some e => exact ⟨[], _, .stops ran outcome⟩
    | none =>
      have less := productive.textAhead_lt built ran outcome
      obtain ⟨values, stop, later⟩ :=
        inductionHypothesis _ (size ▸ less) reached.position reached.textAhead rfl
      exact ⟨_, _, .goesOn ran outcome later⟩

/-- A text has one course only: a run has one result. -/
theorem unique {otherValues : List Value} {otherStop : Stop}
    (course : Course p userState position chars values stop)
    (other : Course p userState position chars otherValues otherStop) :
    otherValues = values ∧ otherStop = stop := by
  induction course generalizing otherValues otherStop with
  | stops ran failed =>
    cases other with
    | stops otherRan otherFailed =>
      obtain rfl := Except.ok.inj (ran.symm.trans otherRan)
      obtain rfl := Option.some.inj (failed.symm.trans otherFailed)
      exact ⟨rfl, rfl⟩
    | goesOn otherRan otherSucceeded _ =>
      obtain rfl := Except.ok.inj (ran.symm.trans otherRan)
      rw [failed] at otherSucceeded
      cases otherSucceeded
  | goesOn ran succeeded _ inductionHypothesis =>
    cases other with
    | stops otherRan otherFailed =>
      obtain rfl := Except.ok.inj (ran.symm.trans otherRan)
      rw [succeeded] at otherFailed
      cases otherFailed
    | goesOn otherRan _ otherLater =>
      obtain rfl := Except.ok.inj (ran.symm.trans otherRan)
      obtain ⟨sameValues, sameStop⟩ := inductionHypothesis otherLater
      exact ⟨congrArg _ sameValues, sameStop⟩

/-- Where a course stops, the parser fails. -/
theorem fails_atStop (course : Course p userState position chars values stop) :
    ∃ reached, (p.run (State.front userState stop.position stop.rest)).result = .ok reached ∧
      reached.error = some stop.failure := by
  induction course with
  | stops ran failed => exact ⟨_, ran, failed⟩
  | goesOn _ _ _ inductionHypothesis => exact inductionHypothesis

/-- A course without values stops where it begins. -/
theorem stop_of_nil (course : Course p userState position chars [] stop) :
    stop.position = position ∧ stop.rest = chars := by
  cases course with
  | stops ran failed => exact ⟨rfl, rfl⟩

/-- A course that is begun where one stops stops at once. -/
theorem atStop (course : Course p userState position chars values stop) :
    Course p userState stop.position stop.rest [] stop := by
  obtain ⟨reached, ran, failed⟩ := course.fails_atStop
  exact .stops ran failed

/-- Each value of a course is paid for with at least one character. -/
theorem length_rest (built : Built claimsEnd p) (productive : Productive p)
    (course : Course p userState position chars values stop) :
    stop.rest.length + values.length ≤ chars.length := by
  induction course with
  | stops ran failed => exact Nat.le_refl _
  | goesOn ran succeeded _ inductionHypothesis =>
    have less := productive.textAhead_lt built ran succeeded
    rw [List.length_cons]
    omega

end Course

/-! ## Repetition makes the course of its text -/

/-- A state reached within the same input, where a course stops. -/
structure Arrived (s : State) (stop : Stop) (reached : State) : Prop where
  input : reached.input = s.input
  userState : reached.userState = s.userState
  ready : reached.Ready
  position : reached.position = stop.position
  textAhead : reached.textAhead = stop.rest

/-- Where a course stops within a text, what is left is a text. -/
theorem Arrived.onText {stop : Stop} (onText : s.OnText) (arrived : Arrived s stop reached) :
    reached.OnText := by
  obtain ⟨chars, same⟩ := onText
  exact ⟨chars, arrived.input.trans same⟩

/-- What a repetition has found when it has made a course: its values, the place where the course
stops, and an attempt there that failed for the same reason. -/
structure Made (s : State) (values : List Value) (stop : Stop) (harvest : Harvest) : Prop where
  values : harvest.values = values
  arrived : Arrived s stop harvest.reached
  refusal : ∃ attempt, harvest.refusal = some attempt ∧ attempt.error = some stop.failure

namespace Course

variable {position : Position} {chars : List Char} {values : List Value} {stop : Stop}

/-- The rounds of a repetition make the course of what is ahead, by induction on the course. The
rounds run at growing offsets; each does what it would do afresh. -/
theorem roundsOn (built : Built claimsEnd p) (productive : Productive p)
    (course : Course p userState position chars values stop) (site : Site) (s : State)
    (ready : s.Ready) (onText : s.OnText) (sameUserState : s.userState = userState)
    (samePosition : s.position = position) (sameChars : s.textAhead = chars) :
    ∃ harvest, (Parser.roundsOn site (Parser.roundOf p) s).result = .ok harvest ∧
      Made s values stop harvest := by
  induction course generalizing s with
  | @stops position chars fresh e ran failed =>
    subst sameUserState samePosition sameChars
    obtain ⟨attempt, attempted, _, _, sameError, _⟩ := built.as_restarted ready onText ran
    have refused : attempt.error = some e := sameError.trans failed
    have round : (Parser.roundOf p s).result = .ok (.refused attempt) := by
      rw [Parser.roundOf, Run.result_bind_ok _ _ _ attempted,
        if_pos (State.failed_of_error refused)]
      rfl
    refine ⟨.empty s (some attempt), ?_, rfl, ⟨rfl, rfl, ready, rfl, rfl⟩, attempt, rfl, refused⟩
    rw [Parser.roundsOn_eq, Run.result_bind_ok _ _ _ round]
    rfl
  | @goesOn position chars fresh later stop ran succeeded _ inductionHypothesis =>
    subst sameUserState samePosition sameChars
    obtain ⟨reached, went, leads, onward, sameError, same⟩ := built.as_restarted ready onText ran
    obtain ⟨value, rest⟩ := same succeeded
    have clean : reached.error = none := sameError.trans succeeded
    have less := productive.unread_lt ready onText leads went clean
    have round : (Parser.roundOf p s).result = .ok (.complete reached.value reached) := by
      rw [Parser.roundOf, Run.result_bind_ok _ _ _ went,
        if_neg (State.not_failed_of_clean clean)]
      rfl
    obtain ⟨harvest, found, made⟩ := inductionHypothesis reached (leads.ready ready clean)
      (leads.onText onText) leads.userState onward rest
    have arrived : Arrived s stop harvest.reached :=
      { made.arrived with
        input := made.arrived.input.trans leads.input
        userState := made.arrived.userState.trans leads.userState }
    refine ⟨harvest.cons reached.value, ?_, ?_, arrived, made.refusal⟩
    · rw [Parser.roundsOn_eq, Run.result_bind_ok _ _ _ round, Round.proceed, if_pos less,
        Run.result_bind_ok _ _ _ found]
      rfl
    · rw [Harvest.cons, made.values, value]

/-- An unbounded repetition settles on what its rounds have found. -/
theorem collect_result {harvest : Harvest} (least : Nat) (s : State)
    (found : (Parser.roundsOn .collect (Parser.roundOf p) s).result = .ok harvest) :
    ((p.collect (.atLeast least)).run s).result = .ok (harvest.settle (.finite least)) := by
  have whole : (p.collect (.atLeast least)).run s =
      Parser.repeated .collect (Parser.roundOf p) (.atLeast least) s := rfl
  rw [whole, Parser.repeated_eq]
  exact Run.result_bind_ok _ _ harvest found

/-- A repetition that finds enough values ends where the course stops. -/
theorem collect_enough (built : Built claimsEnd p) (productive : Productive p) (s : State)
    (ready : s.Ready) (onText : s.OnText)
    (course : Course p s.userState s.position s.textAhead values stop) (least : Nat)
    (enough : least ≤ values.length) :
    ∃ reached, ((p.collect (.atLeast least)).run s).result = .ok reached ∧
      reached.value = .list values ∧ Arrived s stop reached := by
  obtain ⟨harvest, found, made⟩ :=
    course.roundsOn built productive .collect s ready onText rfl rfl rfl
  obtain ⟨attempt, refused, _⟩ := made.refusal
  have settled : harvest.settle (.finite least) = harvest.reached.succeed (.list values) := by
    have few : ¬ (Limit.finite least).exceeds harvest.values.length = true := by
      simpa [Limit.exceeds, made.values] using enough
    unfold Harvest.settle
    rw [refused]
    dsimp only
    rw [if_neg few, made.values]
  have reached := collect_result least s found
  rw [settled] at reached
  have ready : (harvest.reached.succeed (.list values)).Ready :=
    ⟨rfl, made.arrived.ready.start, made.arrived.ready.inside⟩
  exact ⟨_, reached, rfl, { made.arrived with ready }⟩

/-- A repetition that finds too few values fails for the reason the course stops. -/
theorem collect_short (built : Built claimsEnd p) (productive : Productive p) (s : State)
    (ready : s.Ready) (onText : s.OnText)
    (course : Course p s.userState s.position s.textAhead values stop) (least : Nat)
    (short : values.length < least) :
    ∃ reached, ((p.collect (.atLeast least)).run s).result = .ok reached ∧
      reached.error = some stop.failure := by
  obtain ⟨harvest, found, made⟩ :=
    course.roundsOn built productive .collect s ready onText rfl rfl rfl
  obtain ⟨attempt, refused, failed⟩ := made.refusal
  have settled : harvest.settle (.finite least) = attempt := by
    have few : (Limit.finite least).exceeds harvest.values.length = true := by
      simpa [Limit.exceeds, made.values] using short
    unfold Harvest.settle
    rw [refused]
    dsimp only
    rw [if_pos few]
  have reached := collect_result least s found
  rw [settled] at reached
  exact ⟨attempt, reached, failed⟩

end Course

namespace Arrived

variable {values : List Value} {stop : Stop}

/-- Where a course stops within a text, the parser fails as it does afresh. -/
theorem fails (built : Built claimsEnd p) (onText : s.OnText)
    (course : Course p s.userState s.position s.textAhead values stop)
    (arrived : Arrived s stop reached) :
    ∃ failed, (p.run reached).result = .ok failed ∧ failed.error = some stop.failure := by
  obtain ⟨fresh, ran, failedFresh⟩ := course.fails_atStop
  have restarted : reached.restarted = State.front s.userState stop.position stop.rest := by
    rw [State.restarted, arrived.userState, arrived.position, arrived.textAhead]
  rw [← restarted] at ran
  obtain ⟨failed, went, _, _, sameError, _⟩ :=
    built.as_restarted arrived.ready (arrived.onText onText) ran
  exact ⟨failed, went, sameError.trans failedFresh⟩

/-- There is input left where a course stops if there is text left. -/
theorem offset_lt_iff (onText : s.OnText) (arrived : Arrived s stop reached) :
    reached.offset < reached.input.size ↔ stop.rest ≠ [] := by
  rw [← List.length_pos_iff, ← arrived.textAhead,
    State.length_textAhead reached arrived.ready (arrived.onText onText)]
  unfold State.unread
  omega

end Arrived

end Descent
