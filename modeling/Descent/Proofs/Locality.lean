import Descent.Proofs.Progress

/-!
# Built parsers see only what lies ahead

Two states are alike if the same items are unread and the user state is the same. What came
before, how far the offset is, where the source says it is and what value came last may all
differ. A built parser cannot tell such states apart: its runs stop with one fault, or both
succeed with one value, or both fail with the same words, always at the same distance.

The places of the two failures are different positions in general. What agrees is the number of
items between the start and the failure, and since places are ordered as these numbers are,
merging takes the same branch in both runs.

All this is about offsets inside the input, which `run_sees_only_ahead` says in full. Offsets that
count from the end are another matter: `run_from_negative_offset`.
-/

namespace Descent

variable {claimsEnd : Prop} {s t r q middle other : State}

/-- Two states from which the same lies ahead. -/
structure Alike (s t : State) : Prop where
  remaining : s.remaining = t.remaining
  userState : s.userState = t.userState

/-- Two failures that say the same at the same distance from two states. -/
structure Twins (s t : State) (e f : Failure) : Prop where
  messages : e.messages = f.messages
  kind : e.kind = f.kind
  wasEof : e.wasEof = f.wasEof
  placed : ∃ count ≤ s.unread + 1, e.position = s.place count ∧ f.position = t.place count

/-- Two runs both succeed with one value or both fail alike. -/
inductive SameOutcome (s t r q : State) : Prop where
  | succeeded (left : r.error = none) (right : q.error = none) (value : r.value = q.value)
  | failed (e f : Failure) (left : r.error = some e) (right : q.error = some f)
      (twins : Twins s t e f)

/-- Two runs go equally far and have the same outcome. -/
structure Level (s t r q : State) : Prop where
  moved : s.passed r = t.passed q
  outcome : SameOutcome s t r q

/-- What a success leaves unread, in terms of what was unread before. -/
theorem Leads.remaining (ready : s.Ready) (leads : Leads claimsEnd s r)
    (succeeded : r.error = none) :
    r.remaining = s.remaining.extract (s.passed r) s.remaining.size := by
  have forward : s.offset ≤ r.offset := leads.forward
  have start : 0 ≤ s.offset := ready.start
  have inside : s.offset ≤ s.input.size := ready.inside
  have size : s.remaining.size = s.unread := s.size_remaining start
  have further : s.offset.toNat + s.passed r = r.offset.toNat := by
    unfold State.passed
    omega
  have whole : min (s.offset.toNat + s.unread) s.input.size = s.input.size := by
    unfold State.unread
    omega
  rw [State.remaining_eq_extract r (leads.ready ready succeeded).start, size,
    State.remaining_eq_extract s ready.start, Input.extract_extract, further, leads.input, whole]

/-- Two successes that go equally far, whatever their values. -/
structure Abreast (claimsEnd : Prop) (s t r q : State) : Prop where
  left : Leads claimsEnd s r
  right : Leads claimsEnd t q
  leftClean : r.error = none
  rightClean : q.error = none
  moved : s.passed r = t.passed q

namespace Alike

/-- The number of unread items belongs to what is unread. -/
theorem unread (first : s.Ready) (second : t.Ready) (alike : Alike s t) :
    s.unread = t.unread := by
  rw [← s.size_remaining first.start, ← t.size_remaining second.start, alike.remaining]

/-- After equally long successes the states are alike again. -/
theorem after (first : s.Ready) (second : t.Ready) (alike : Alike s t)
    (abreast : Abreast claimsEnd s t r q) : Alike r q where
  remaining := by
    rw [abreast.left.remaining first abreast.leftClean,
      abreast.right.remaining second abreast.rightClean, alike.remaining, abreast.moved]
  userState := by rw [abreast.left.userState, abreast.right.userState, alike.userState]

end Alike

/-- Failures on the spot are twins. -/
theorem Twins.here (message : String) (kind : FailureKind) :
    Twins s t ⟨s.position, [message], kind, kind == .eof⟩
      ⟨t.position, [message], kind, kind == .eof⟩ :=
  ⟨rfl, rfl, rfl, 0, Nat.zero_le _, rfl, rfl⟩

/-- Twins met after equally long successes are twins at the start. -/
theorem Twins.before {e f : Failure} (first : s.Ready) (second : t.Ready)
    (abreast : Abreast claimsEnd s t r q) (twins : Twins r q e f) : Twins s t e f := by
  obtain ⟨count, inside, leftPlace, rightPlace⟩ := twins.placed
  have unread : s.passed r + r.unread = s.unread :=
    abreast.left.passed_add_unread first abreast.leftClean
  refine ⟨twins.messages, twins.kind, twins.wasEof, s.passed r + count, by omega, ?_, ?_⟩
  · rw [leftPlace, abreast.left.place first abreast.leftClean]
  · rw [rightPlace, abreast.right.place second abreast.rightClean, abreast.moved]

/-- Merging keeps twins. Their places are ordered as their distances, which agree, so that the
same one of two wins in both runs. -/
theorem Twins.merge {e f g h : Failure} (first : s.Ready) (second : t.Ready)
    (alike : Alike s t) (worded : e.messages ≠ []) (wordedLater : g.messages ≠ [])
    (early : Twins s t e f) (late : Twins s t g h) :
    Twins s t (Failure.merge e g) (Failure.merge f h) := by
  obtain ⟨m, earlyInside, earlyLeft, earlyRight⟩ := early.placed
  obtain ⟨n, lateInside, lateLeft, lateRight⟩ := late.placed
  have unread : s.unread = t.unread := alike.unread first second
  rw [Failure.merge_of_worded e g worded wordedLater,
    Failure.merge_of_worded f h (early.messages ▸ worded) (late.messages ▸ wordedLater),
    earlyLeft, lateLeft, earlyRight, lateRight,
    State.order_place s first.start m n earlyInside lateInside,
    State.order_place t second.start m n (unread ▸ earlyInside) (unread ▸ lateInside)]
  cases compare m n with
  | gt => exact early
  | lt => exact late
  | eq =>
    refine ⟨?_, late.kind, ?_, n, lateInside, lateLeft, lateRight⟩
    · simp only [Failure.joined, early.messages, late.messages]
    · simp only [Failure.joined, early.wasEof, late.wasEof]

/-- Distances add up along runs that go on from one another. -/
theorem Leads.passed_trans (first : Leads claimsEnd s middle)
    (second : Leads claimsEnd middle r) : s.passed r = s.passed middle + middle.passed r := by
  have forward : s.offset ≤ middle.offset := first.forward
  have rest : middle.offset ≤ r.offset := second.forward
  unfold State.passed
  omega

namespace Abreast

/-- Nothing has happened yet in either run. -/
theorem refl (first : s.Ready) (second : t.Ready) : Abreast claimsEnd s t s t where
  left := Leads.refl first
  right := Leads.refl second
  leftClean := first.clean
  rightClean := second.clean
  moved := by simp [State.passed]

/-- Successes that go on equally far. -/
theorem trans (first : s.Ready) (second : t.Ready)
    (abreast : Abreast claimsEnd s t middle other) (on : Abreast claimsEnd middle other r q) :
    Abreast claimsEnd s t r q where
  left := abreast.left.trans first abreast.leftClean on.left
  right := abreast.right.trans second abreast.rightClean on.right
  leftClean := on.leftClean
  rightClean := on.rightClean
  moved := by
    rw [abreast.left.passed_trans on.left, abreast.right.passed_trans on.right, abreast.moved,
      on.moved]

end Abreast

/-- Two runs that are level, each of which leads from its own start. -/
structure Paired (claimsEnd : Prop) (s t r q : State) : Prop where
  level : Level s t r q
  left : Leads claimsEnd s r
  right : Leads claimsEnd t q

/-- Level runs that succeed are abreast. -/
theorem Paired.abreast (paired : Paired claimsEnd s t r q) (leftClean : r.error = none)
    (rightClean : q.error = none) : Abreast claimsEnd s t r q :=
  ⟨paired.left, paired.right, leftClean, rightClean, paired.level.moved⟩

namespace Level

/-- Two runs that go on from equally long successes are level with respect to the start. -/
theorem before (first : s.Ready) (second : t.Ready)
    (abreast : Abreast claimsEnd s t middle other) (paired : Paired claimsEnd middle other r q) :
    Level s t r q where
  moved := by
    rw [abreast.left.passed_trans paired.left, abreast.right.passed_trans paired.right,
      abreast.moved, paired.level.moved]
  outcome := by
    cases paired.level.outcome with
    | succeeded left right value => exact .succeeded left right value
    | failed e f left right twins =>
      exact .failed e f left right (twins.before first second abreast)

/-- Successes on the spot with one value. -/
theorem here (v : Value) : Level s t (s.succeed v) (t.succeed v) where
  moved := by simp [State.passed, State.succeed]
  outcome := .succeeded rfl rfl rfl

/-- Failures on the spot. -/
theorem failing (first : s.Ready) (second : t.Ready) (message : String) (kind : FailureKind) :
    Run.Corresponds (Level s t) ((Parser.failing message kind).run s)
      ((Parser.failing message kind).run t) := by
  refine Run.corresponds_pure _ _ _ ⟨by simp [State.passed], ?_⟩
  rw [first.clean, second.clean]
  exact .failed _ _ rfl rfl (Twins.here message kind)

/-- What is consumed, and whether there is enough of it, lies in what is unread. -/
theorem token (first : s.Ready) (second : t.Ready) (alike : Alike s t) (count : Nat) :
    Run.Corresponds (Level s t) ((Parser.token count).run s) ((Parser.token count).run t) := by
  have moved : (s.offset + (max 1 count : Nat) - s.offset).toNat =
      (t.offset + (max 1 count : Nat) - t.offset).toNat := by omega
  have unread : s.unread = t.unread := alike.unread first second
  by_cases short : s.unread < max 1 count
  · rw [Parser.token_short s first.clean first.start count short,
      Parser.token_short t second.clean second.start count (unread ▸ short), ← unread]
    refine Run.corresponds_pure _ _ _ ⟨moved, .failed _ _ rfl rfl ?_⟩
    exact ⟨rfl, rfl, rfl, s.unread + 1, Nat.le_refl _, rfl, rfl⟩
  · have enough : max 1 count ≤ s.unread := Nat.le_of_not_lt short
    rw [Parser.token_enough s first count enough,
      Parser.token_enough t second count (unread ▸ enough), alike.remaining]
    exact Run.corresponds_pure _ _ _ ⟨moved, .succeeded rfl rfl rfl⟩

/-- Whether there is anything left to read is a matter of what is unread. -/
theorem atEnd (first : s.Ready) (second : t.Ready) (alike : Alike s t) :
    Run.Corresponds (Level s t) (Parser.atEnd.run s) (Parser.atEnd.run t) := by
  have inside : s.offset ≤ s.input.size := first.inside
  have insideRight : t.offset ≤ t.input.size := second.inside
  have unread : s.unread = t.unread := alike.unread first second
  have same : (s.input.size : Int) = s.offset ↔ (t.input.size : Int) = t.offset := by
    unfold State.unread at unread
    omega
  unfold Parser.atEnd
  dsimp only
  by_cases ended : (s.input.size : Int) = s.offset
  · rw [if_pos ended, if_pos (same.mp ended)]
    exact Run.corresponds_pure _ _ _ (here _)
  · rw [if_neg ended, if_neg fun there => ended (same.mpr there)]
    exact failing first second _ _

end Level

/-- Two possible failures: none in either run, or twins that say something. -/
inductive TwinsIfAny (s t : State) : Option Failure → Option Failure → Prop where
  | neither : TwinsIfAny s t none none
  | both (e f : Failure) (worded : e.messages ≠ []) (twins : Twins s t e f) :
      TwinsIfAny s t (some e) (some f)

/-- Failures merged so far and those of the next attempt make twins again. -/
theorem TwinsIfAny.merge {earlier other : Option Failure} {e f : Failure} (first : s.Ready)
    (second : t.Ready) (alike : Alike s t) (worded : e.messages ≠ []) (twins : Twins s t e f)
    (early : TwinsIfAny s t earlier other) :
    ∃ g h, Failure.merge? earlier (some e) = some g ∧ Failure.merge? other (some f) = some h ∧
      g.messages ≠ [] ∧ Twins s t g h := by
  cases early with
  | neither => exact ⟨e, f, rfl, rfl, worded, twins⟩
  | both g h wordedEarly twinsEarly =>
    refine ⟨_, _, rfl, rfl, ?_, Twins.merge first second alike wordedEarly worded twinsEarly twins⟩
    exact Failure.merge_worded g e wordedEarly worded

/-- The attempts of a choice go alike one after another, and so does what is merged of them. -/
theorem Level.attempt (first : s.Ready) (second : t.Ready) (alike : Alike s t)
    (earlier otherEarlier : Option Failure) (early : TwinsIfAny s t earlier otherEarlier)
    (p : Parser) (more : List Parser)
    (all : ∀ part ∈ p :: more,
      Run.Corresponds (Paired claimsEnd s t) (part.run s) (part.run t)) :
    Run.Corresponds (Level s t) (Parser.attempt s earlier p more)
      (Parser.attempt t otherEarlier p more) := by
  induction more generalizing earlier otherEarlier p with
  | nil =>
    rw [Parser.attempt_nil, Parser.attempt_nil]
    apply Run.corresponds_bind _ _ _ _ _ _ (all p List.mem_cons_self)
    intro r q paired
    cases paired.level.outcome with
    | succeeded left right value =>
      rw [if_neg (State.not_failed_of_clean left), if_neg (State.not_failed_of_clean right)]
      exact Run.corresponds_pure _ _ _ paired.level
    | failed e f left right twins =>
      rw [if_pos (State.failed_of_error left), if_pos (State.failed_of_error right)]
      have worded : e.messages ≠ [] := (paired.left.situated e left).worded
      refine Run.corresponds_pure _ _ _ ⟨paired.level.moved, ?_⟩
      obtain ⟨g, h, onLeft, onRight, _, merged⟩ :=
        early.merge first second alike worded twins
      rw [left, right, onLeft, onRight]
      exact .failed g h rfl rfl merged
  | cons next later inductionHypothesis =>
    rw [Parser.attempt_cons, Parser.attempt_cons]
    apply Run.corresponds_bind _ _ _ _ _ _ (all p List.mem_cons_self)
    intro r q paired
    cases paired.level.outcome with
    | succeeded left right value =>
      rw [if_neg (State.not_failed_of_clean left), if_neg (State.not_failed_of_clean right)]
      exact Run.corresponds_pure _ _ _ paired.level
    | failed e f left right twins =>
      rw [if_pos (State.failed_of_error left), if_pos (State.failed_of_error right)]
      have worded : e.messages ≠ [] := (paired.left.situated e left).worded
      obtain ⟨g, h, onLeft, onRight, wordedMerged, merged⟩ :=
        early.merge first second alike worded twins
      rw [left, right, onLeft, onRight]
      exact inductionHypothesis _ _ (.both g h wordedMerged merged) next
        fun part member => all part (List.mem_cons_of_mem p member)

/-- Paired runs that go on from equally long successes are paired with respect to the start. -/
theorem Paired.before (first : s.Ready) (second : t.Ready)
    (abreast : Abreast claimsEnd s t middle other) (paired : Paired claimsEnd middle other r q) :
    Paired claimsEnd s t r q where
  level := Level.before first second abreast paired
  left := abreast.left.trans first abreast.leftClean paired.left
  right := abreast.right.trans second abreast.rightClean paired.right

/-! ## Repetition -/

/-- Two rounds that went alike. -/
inductive RoundPaired (claimsEnd : Prop) (s t : State) : Round → Round → Prop where
  | refused (a b : State) (fails : Paired claimsEnd s t a b) :
      RoundPaired claimsEnd s t (.refused a) (.refused b)
  | last (v : Value) (r q a b : State) (abreast : Abreast claimsEnd s t r q)
      (fails : Paired claimsEnd s t a b) : RoundPaired claimsEnd s t (.last v r a) (.last v q b)
  | complete (v : Value) (r q : State) (abreast : Abreast claimsEnd s t r q) :
      RoundPaired claimsEnd s t (.complete v r) (.complete v q)

/-- Two possible failed attempts: none in either row of rounds, or paired ones. -/
inductive PairedIfAny (claimsEnd : Prop) (s t : State) (x y : Option State) : Prop where
  | neither (left : x = none) (right : y = none)
  | both (a b : State) (left : x = some a) (right : y = some b)
      (fails : Paired claimsEnd s t a b)

/-- Two rows of rounds that went alike. -/
structure HarvestPaired (claimsEnd : Prop) (s t : State) (h k : Harvest) : Prop where
  values : h.values = k.values
  abreast : Abreast claimsEnd s t h.reached k.reached
  refusal : PairedIfAny claimsEnd s t h.refusal k.refusal

namespace HarvestPaired

variable {h k : Harvest}

/-- A round before a row of rounds. -/
theorem cons (first : s.Ready) (second : t.Ready) (v : Value)
    (abreast : Abreast claimsEnd s t middle other)
    (rest : HarvestPaired claimsEnd middle other h k) :
    HarvestPaired claimsEnd s t (h.cons v) (k.cons v) where
  values := congrArg (v :: ·) rest.values
  abreast := abreast.trans first second rest.abreast
  refusal := by
    cases rest.refusal with
    | neither left right => exact .neither left right
    | both a b left right fails => exact .both a b left right (fails.before first second abreast)

/-- Alike rows of rounds settle alike: the numbers of values agree, so both have too few of them
or neither has. -/
theorem settle (least : Limit) (paired : HarvestPaired claimsEnd s t h k) :
    Level s t (h.settle least) (k.settle least) := by
  have success : Level s t (h.reached.succeed (.list h.values))
      (k.reached.succeed (.list k.values)) :=
    ⟨paired.abreast.moved, .succeeded rfl rfl (congrArg Value.list paired.values)⟩
  have count : h.values.length = k.values.length := congrArg List.length paired.values
  unfold Harvest.settle
  rw [← count]
  cases paired.refusal with
  | neither left right =>
    rw [left, right]
    exact success
  | both a b left right fails =>
    rw [left, right]
    dsimp only
    by_cases few : least.exceeds h.values.length = true
    · rw [if_pos few, if_pos few]
      exact fails.level
    · rw [if_neg few, if_neg few]
      exact success

end HarvestPaired

/-- Rows that end with alike rounds or go on after them. -/
theorem RoundPaired.corresponds (first : s.Ready) (second : t.Ready) {left right : Round}
    (paired : RoundPaired claimsEnd s t left right) (go further : Value → State → Run Harvest)
    (next : ∀ v r q, Abreast claimsEnd s t r q →
      Run.Corresponds (HarvestPaired claimsEnd s t) (go v r) (further v q)) :
    Run.Corresponds (HarvestPaired claimsEnd s t) (left.proceed s go)
      (right.proceed t further) := by
  cases paired with
  | refused a b fails =>
    exact Run.corresponds_pure _ _ _ ⟨rfl, Abreast.refl first second, .both a b rfl rfl fails⟩
  | last v r q a b abreast fails =>
    exact Run.corresponds_pure _ _ _ ⟨rfl, abreast, .both a b rfl rfl fails⟩
  | complete v r q abreast => exact next v r q abreast

variable {round : State → Run Round}

/-- At most a given number of rounds, by induction on the number. -/
theorem HarvestPaired.roundsUpTo
    (rounds : ∀ s t : State, s.Ready → t.Ready → Alike s t →
      Run.Corresponds (RoundPaired claimsEnd s t) (round s) (round t))
    (most : Nat) (first : s.Ready) (second : t.Ready) (alike : Alike s t) :
    Run.Corresponds (HarvestPaired claimsEnd s t) (Parser.roundsUpTo round most s)
      (Parser.roundsUpTo round most t) := by
  induction most generalizing s t with
  | zero =>
    exact Run.corresponds_pure _ _ _ ⟨rfl, Abreast.refl first second, .neither rfl rfl⟩
  | succ most inductionHypothesis =>
    rw [Parser.roundsUpTo_succ, Parser.roundsUpTo_succ]
    apply Run.corresponds_bind _ _ _ _ _ _ (rounds s t first second alike)
    intro a b paired
    apply paired.corresponds first second _ _
    intro v r q abreast
    have leftReady : r.Ready := abreast.left.ready first abreast.leftClean
    have rightReady : q.Ready := abreast.right.ready second abreast.rightClean
    apply Run.corresponds_bind _ _ _ _ _ _
      (inductionHypothesis leftReady rightReady (alike.after first second abreast))
    intro h k found
    exact Run.corresponds_pure _ _ _ (found.cons first second v abreast)

/-- Any number of rounds, by induction on what is unread. Whether a round consumed something is
the same question in both rows. -/
theorem HarvestPaired.roundsOn (site : Site)
    (rounds : ∀ s t : State, s.Ready → t.Ready → Alike s t →
      Run.Corresponds (RoundPaired claimsEnd s t) (round s) (round t))
    (first : s.Ready) (second : t.Ready) (alike : Alike s t) :
    Run.Corresponds (HarvestPaired claimsEnd s t) (Parser.roundsOn site round s)
      (Parser.roundsOn site round t) := by
  induction size : s.unread using Nat.strongRecOn generalizing s t with
  | ind unread inductionHypothesis =>
    rw [Parser.roundsOn_eq, Parser.roundsOn_eq]
    apply Run.corresponds_bind _ _ _ _ _ _ (rounds s t first second alike)
    intro a b paired
    apply paired.corresponds first second _ _
    intro v r q abreast
    have leftReady : r.Ready := abreast.left.ready first abreast.leftClean
    have rightReady : q.Ready := abreast.right.ready second abreast.rightClean
    have alikeAfter : Alike r q := alike.after first second abreast
    rw [← alike.unread first second, ← alikeAfter.unread leftReady rightReady]
    by_cases less : r.unread < s.unread
    · rw [if_pos less, if_pos less]
      apply Run.corresponds_bind _ _ _ _ _ _
        (inductionHypothesis r.unread (size ▸ less) leftReady rightReady alikeAfter rfl)
      intro h k found
      exact Run.corresponds_pure _ _ _ (found.cons first second v abreast)
    · rw [if_neg less, if_neg less]
      exact Run.corresponds_raise _ _

/-- A repetition within any bounds. -/
theorem Level.repeated (site : Site) (bounds : Bounds)
    (rounds : ∀ s t : State, s.Ready → t.Ready → Alike s t →
      Run.Corresponds (RoundPaired claimsEnd s t) (round s) (round t))
    (first : s.Ready) (second : t.Ready) (alike : Alike s t) :
    Run.Corresponds (Level s t) (Parser.repeated site round bounds s)
      (Parser.repeated site round bounds t) := by
  have harvested : Run.Corresponds (HarvestPaired claimsEnd s t)
      (Parser.harvest site round bounds.most s) (Parser.harvest site round bounds.most t) := by
    cases bounds.most with
    | finite most => exact HarvestPaired.roundsUpTo rounds most first second alike
    | unbounded => exact HarvestPaired.roundsOn site rounds first second alike
  rw [Parser.repeated_eq, Parser.repeated_eq]
  apply Run.corresponds_bind _ _ _ _ _ _ harvested
  intro h k found
  exact Run.corresponds_pure _ _ _ (found.settle bounds.least)

/-- The round of a plain repetition. -/
theorem RoundPaired.roundOf {p : Parser} (s t : State)
    (paired : Run.Corresponds (Paired claimsEnd s t) (p.run s) (p.run t)) :
    Run.Corresponds (RoundPaired claimsEnd s t) (Parser.roundOf p s) (Parser.roundOf p t) := by
  apply Run.corresponds_bind _ _ _ _ _ _ paired
  intro r q pairedEnds
  refine Run.corresponds_pure _ _ _ ?_
  cases pairedEnds.level.outcome with
  | succeeded left right value =>
    rw [if_neg (State.not_failed_of_clean left), if_neg (State.not_failed_of_clean right), value]
    exact .complete _ r q (pairedEnds.abreast left right)
  | failed e f left right twins =>
    rw [if_pos (State.failed_of_error left), if_pos (State.failed_of_error right)]
    exact .refused r q pairedEnds

/-- The round of a repetition of values with a separator after each. -/
theorem RoundPaired.endedRoundOf {p separator : Parser} (first : s.Ready) (second : t.Ready)
    (alike : Alike s t)
    (paired : Run.Corresponds (Paired claimsEnd s t) (p.run s) (p.run t))
    (ends : ∀ s t : State, s.Ready → t.Ready → Alike s t →
      Run.Corresponds (Paired claimsEnd s t) (separator.run s) (separator.run t)) :
    Run.Corresponds (RoundPaired claimsEnd s t) (Parser.endedRoundOf p separator s)
      (Parser.endedRoundOf p separator t) := by
  apply Run.corresponds_bind _ _ _ _ _ _ paired
  intro r q items
  cases items.level.outcome with
  | failed e f left right twins =>
    rw [if_pos (State.failed_of_error left), if_pos (State.failed_of_error right)]
    exact Run.corresponds_pure _ _ _ (.refused r q items)
  | succeeded left right value =>
    rw [if_neg (State.not_failed_of_clean left), if_neg (State.not_failed_of_clean right), value]
    have abreast : Abreast claimsEnd s t r q := items.abreast left right
    apply Run.corresponds_bind _ _ _ _ _ _
      (ends r q (items.left.ready first left) (items.right.ready second right)
        (alike.after first second abreast))
    intro a b separators
    refine Run.corresponds_pure _ _ _ ?_
    have onwards : Paired claimsEnd s t a b := separators.before first second abreast
    cases separators.level.outcome with
    | succeeded leftEnd rightEnd _ =>
      rw [if_neg (State.not_failed_of_clean leftEnd),
        if_neg (State.not_failed_of_clean rightEnd)]
      exact .complete _ a b (onwards.abreast leftEnd rightEnd)
    | failed e f leftEnd rightEnd _ =>
      rw [if_pos (State.failed_of_error leftEnd), if_pos (State.failed_of_error rightEnd)]
      exact .last _ r q a b abreast onwards

/-! ## All built parsers -/

/-- Level runs of a built parser also lead from their own starts. -/
theorem Built.pair {p : Parser} (built : Built claimsEnd p) (first : s.Ready) (second : t.Ready)
    (level : Run.Corresponds (Level s t) (p.run s) (p.run t)) :
    Run.Corresponds (Paired claimsEnd s t) (p.run s) (p.run t) :=
  (level.ensuring (built.leads s first) (built.leads t second)).mono
    fun _ _ both => ⟨both.1, both.2.1, both.2.2⟩

/-- Runs of a built parser on alike states are level. One case for each constructor; after equal
successes the states are alike again, so that the next part of a parser is in the same case. -/
theorem Built.level {p : Parser} (built : Built claimsEnd p) (s t : State) (first : s.Ready)
    (second : t.Ready) (alike : Alike s t) :
    Run.Corresponds (Level s t) (p.run s) (p.run t) := by
  induction built generalizing s t with
  | renamed built sameRun inductionHypothesis =>
    rw [sameRun]
    exact inductionHypothesis s t first second alike
  | succeed v => exact Run.corresponds_pure _ _ _ (Level.here v)
  | raising fault => exact Run.corresponds_raise _ fault
  | failing message kind admitted => exact Level.failing first second message kind
  | token count => exact Level.token first second alike count
  | atEnd => exact Level.atEnd first second alike
  | @bind p next built later ofFirst ofSecond =>
    apply Run.corresponds_bind _ _ _ _ _ _
      (built.pair first second (ofFirst s t first second alike))
    intro r q paired
    cases paired.level.outcome with
    | failed e f left right twins =>
      rw [if_pos (State.failed_of_error left), if_pos (State.failed_of_error right)]
      exact Run.corresponds_pure _ _ _ paired.level
    | succeeded left right value =>
      rw [if_neg (State.not_failed_of_clean left), if_neg (State.not_failed_of_clean right),
        ← value]
      have abreast : Abreast claimsEnd s t r q := paired.abreast left right
      have leftReady : r.Ready := paired.left.ready first left
      have rightReady : q.Ready := paired.right.ready second right
      have on : Run.Corresponds (Level r q) ((next r.value).run r) ((next r.value).run q) :=
        ofSecond r.value r q leftReady rightReady (alike.after first second abreast)
      exact ((later r.value).pair leftReady rightReady on).mono
        fun _ _ onwards => Level.before first second abreast onwards
  | label expected built ofParser =>
    apply Run.corresponds_bind _ _ _ _ _ _ (ofParser s t first second alike)
    intro r q level
    refine Run.corresponds_pure _ _ _ ⟨level.moved, ?_⟩
    cases level.outcome with
    | succeeded left right value =>
      exact .succeeded (by rw [left]; rfl) (by rw [right]; rfl) value
    | failed e f left right twins =>
      have relabelled : Twins s t (e.withMessages ["expected " ++ expected] .expectation)
          (f.withMessages ["expected " ++ expected] .expectation) :=
        ⟨rfl, rfl, twins.wasEof, twins.placed⟩
      exact .failed _ _ (by rw [left]; rfl) (by rw [right]; rfl) relabelled
  | lookAhead built ofParser =>
    apply Run.corresponds_bind _ _ _ _ _ _ (ofParser s t first second alike)
    intro r q level
    refine Run.corresponds_pure _ _ _ ⟨by simp [State.passed], ?_⟩
    cases level.outcome with
    | succeeded left right value => exact .succeeded left right value
    | failed e f left right twins => exact .failed e f left right twins
  | traced tag level built ofParser =>
    apply Run.corresponds_bind _ _ _ _ _ _ (ofParser s t first second alike)
    intro r q same
    exact Run.corresponds_note _ _ _ _ _ (Run.corresponds_pure _ _ _ same)
  | noted n built ofParser =>
    exact Run.corresponds_note _ _ _ _ _ (ofParser s t first second alike)
  | choice all ofAll =>
    exact Level.attempt first second alike none none .neither _ _ fun part member =>
      (all part member).pair first second (ofAll part member s t first second alike)
  | refusing built ofParser =>
    apply Run.corresponds_bind _ _ _ _ _ _ (ofParser s t first second alike)
    intro r q level
    cases level.outcome with
    | succeeded left right value =>
      rw [if_neg (State.not_failed_of_clean left), if_neg (State.not_failed_of_clean right)]
      exact Level.failing first second _ _
    | failed e f left right twins =>
      rw [if_pos (State.failed_of_error left), if_pos (State.failed_of_error right)]
      exact Run.corresponds_pure _ _ _ (Level.here _)
  | collect bounds built ofParser =>
    exact Level.repeated _ bounds (fun s t first second alike =>
      RoundPaired.roundOf s t (built.pair first second (ofParser s t first second alike)))
      first second alike
  | splitEnd bounds built ended ofParser ofSeparator =>
    exact Level.repeated _ bounds (fun s t first second alike =>
      RoundPaired.endedRoundOf first second alike
        (built.pair first second (ofParser s t first second alike))
        fun s t first second alike =>
          ended.pair first second (ofSeparator s t first second alike))
      first second alike
  | byUnread made ofMade =>
    have unread : s.unread = t.unread := alike.unread first second
    unfold Parser.byUnread
    dsimp only
    rw [← unread]
    exact ofMade s.unread s t first second alike

/-- Runs of a built parser on alike states are level and lead from their own starts. -/
theorem Built.paired {p : Parser} (built : Built claimsEnd p) (s t : State) (first : s.Ready)
    (second : t.Ready) (alike : Alike s t) :
    Run.Corresponds (Paired claimsEnd s t) (p.run s) (p.run t) :=
  built.pair first second (built.level s t first second alike)

/-! ## Equal remains, equal runs -/

/-- A place is where some of the unread items lead, or one column past the end of all of them. -/
theorem State.place_cases (s : State) (ready : s.Ready) (count : Nat) :
    (count ≤ s.unread ∧ s.place count = s.position.over (s.remaining.extract 0 count)) ∨
      (s.unread < count ∧
        s.place count = (s.position.over (s.remaining.extract 0 count)).nextColumn) := by
  rcases Nat.lt_or_ge s.unread count with beyond | inside
  · refine Or.inr ⟨beyond, ?_⟩
    rw [State.over_next_short s ready.start count beyond,
      State.place_beyond s ready.start count beyond,
      State.place_beyond s ready.start _ (Nat.lt_succ_self _)]
  · exact Or.inl ⟨inside, (State.over_next s ready count inside).symm⟩

/-- Twins lie behind the same stretch of what is unread, both of them one column further or
neither. -/
theorem Twins.behind {e f : Failure} (first : s.Ready) (second : t.Ready) (alike : Alike s t)
    (twins : Twins s t e f) :
    ∃ count,
      (e.position = s.position.over (s.remaining.extract 0 count) ∧
        f.position = t.position.over (s.remaining.extract 0 count)) ∨
      (e.position = (s.position.over (s.remaining.extract 0 count)).nextColumn ∧
        f.position = (t.position.over (s.remaining.extract 0 count)).nextColumn) := by
  obtain ⟨count, _, left, right⟩ := twins.placed
  have unread : s.unread = t.unread := alike.unread first second
  refine ⟨count, ?_⟩
  rw [left, right, alike.remaining]
  rcases State.place_cases s first count with ⟨inside, leftPlace⟩ | ⟨beyond, leftPlace⟩
  · rcases State.place_cases t second count with ⟨_, rightPlace⟩ | ⟨past, _⟩
    · rw [alike.remaining] at leftPlace
      exact Or.inl ⟨leftPlace, rightPlace⟩
    · omega
  · rcases State.place_cases t second count with ⟨within, _⟩ | ⟨_, rightPlace⟩
    · omega
    · rw [alike.remaining] at leftPlace
      exact Or.inr ⟨leftPlace, rightPlace⟩

/-- A built parser started at offsets inside two inputs, where the same items are unread and the
user state is the same, does the same. Either both runs stop with one fault; or both go equally
far, and succeed with one value or fail with one wording, one kind and one verdict about the end.
The two failures lie behind the same stretch of what is unread, counted from the position that
each run started at, and either both or neither lie one column further. -/
theorem run_sees_only_ahead {p : Parser} (built : Built claimsEnd p) (s t : State)
    (first : s.Ready) (second : t.Ready) (sameAhead : s.remaining = t.remaining)
    (sameUserState : s.userState = t.userState) :
    (∃ fault, (p.run s).result = .error fault ∧ (p.run t).result = .error fault) ∨
      ∃ r q : State, (p.run s).result = .ok r ∧ (p.run t).result = .ok q ∧
        r.offset - s.offset = q.offset - t.offset ∧
        ((r.error = none ∧ q.error = none ∧ r.value = q.value) ∨
          ∃ e f : Failure, r.error = some e ∧ q.error = some f ∧ e.messages = f.messages ∧
            e.kind = f.kind ∧ e.wasEof = f.wasEof ∧
            ∃ count,
              (e.position = s.position.over (s.remaining.extract 0 count) ∧
                f.position = t.position.over (s.remaining.extract 0 count)) ∨
              (e.position = (s.position.over (s.remaining.extract 0 count)).nextColumn ∧
                f.position = (t.position.over (s.remaining.extract 0 count)).nextColumn)) := by
  have alike : Alike s t := ⟨sameAhead, sameUserState⟩
  cases built.paired s t first second alike with
  | faulted fault left right => exact Or.inl ⟨fault, left, right⟩
  | ended r q left right paired =>
    have equallyFar : r.offset - s.offset = q.offset - t.offset := by
      have moved : (r.offset - s.offset).toNat = (q.offset - t.offset).toNat :=
        paired.level.moved
      have forwardLeft : s.offset ≤ r.offset := paired.left.forward
      have forwardRight : t.offset ≤ q.offset := paired.right.forward
      omega
    refine Or.inr ⟨r, q, left, right, equallyFar, ?_⟩
    cases paired.level.outcome with
    | succeeded leftClean rightClean value => exact Or.inl ⟨leftClean, rightClean, value⟩
    | failed e f leftFailed rightFailed twins =>
      exact Or.inr ⟨e, f, leftFailed, rightFailed, twins.messages, twins.kind, twins.wasEof,
        twins.behind first second alike⟩

/-- Two items and then the end, with three characters ahead: once at the start of the input, and
once behind a newline of another source. Both runs fail two columns further on. -/
theorem run_sees_only_ahead_behind_newline :
    ∃ e f : Failure,
      (∃ r, (((Parser.token 2).followedBy Parser.atEnd).run
        { value := .absent, input := .ofString "abc" }).result = .ok r ∧ r.error = some e) ∧
      (∃ q, (((Parser.token 2).followedBy Parser.atEnd).run
        { value := .null, input := .ofString "x\nabc", offset := 2,
          position := ⟨7, 0, some "notes"⟩ }).result = .ok q ∧ q.error = some f) ∧
      e.messages = f.messages ∧ e.position = ⟨1, 2, none⟩ ∧
      f.position = ⟨7, 2, some "notes"⟩ := by
  have built : Built False ((Parser.token 2).followedBy Parser.atEnd) :=
    Built.endedBy (Built.token 2) Built.atEnd
  have first : State.Ready { value := .absent, input := .ofString "abc" } :=
    ⟨rfl, by decide, by decide⟩
  have second : State.Ready
      { value := .null, input := .ofString "x\nabc", offset := 2,
        position := ⟨7, 0, some "notes"⟩ } := ⟨rfl, by decide, by decide⟩
  refine ⟨_, _, ⟨_, rfl, rfl⟩, ⟨_, rfl, rfl⟩, ?_, rfl, rfl⟩
  rcases run_sees_only_ahead built _ _ first second rfl rfl with
    ⟨_, faulted, _⟩ | ⟨_, _, left, right, _, outcome⟩
  · cases faulted
  · obtain rfl := Except.ok.inj left
    obtain rfl := Except.ok.inj right
    rcases outcome with ⟨clean, _⟩ | ⟨_, _, failed, otherFailed, messages, _⟩
    · cases clean
    · obtain rfl := Option.some.inj failed
      obtain rfl := Option.some.inj otherFailed
      exact messages

/-- At an offset that counts from the end, the same items may remain as at one that counts from the
start, but a run does not see them all: the last one would end at offset zero, which is the start
of the input. -/
theorem run_from_negative_offset :
    ∃ s t r q : State, s.offset = -1 ∧ s.error = none ∧ t.error = none ∧
      s.offset ≤ s.input.size ∧ t.offset ≤ t.input.size ∧ s.remaining = t.remaining ∧
      s.userState = t.userState ∧ ((Parser.token 1).run s).result = .ok r ∧
      ((Parser.token 1).run t).result = .ok q ∧ r.error ≠ none ∧ q.error = none := by
  refine ⟨{ value := .absent, input := .ofString "b", offset := -1 },
    { value := .absent, input := .ofString "b" }, _, _, rfl, rfl, rfl, by decide, by decide,
    rfl, rfl, rfl, rfl, nofun, rfl⟩

end Descent
