import Descent.Proofs.Onward
import Mathlib.Data.List.Chain

/-!
# Repetition is greedy iteration

A repetition applies its parser to the state it starts on, to the state which that leaves, and so
on. As long as the applications succeed they make a row, and the row stops for one of four reasons:
it is as long as the limit allows, or the next application fails, or there is no limit and the next
one succeeds where it started, or it faults. What the repetition leaves is said for each of them.

That there is such a row rests on what every built parser does: no success goes back or past the
end. So a success that does not stay where it started leaves less unread, and without a limit there
are no more of them than there are items.
-/

namespace Descent

variable {claimsEnd : Prop} {p : Parser} {s reached last : State} {least : Nat} {most rest : Limit}
  {states : List State} {values : List Value} {notes : List Note}

/-! ## Applications in a row -/

/-- Applications of a parser one after another, all of which succeed: the states that they leave, in
order, and their notes. -/
inductive Parser.Succeeds (p : Parser) : State → List State → List Note → Prop where
  | none {s : State} : p.Succeeds s [] []
  | more {s reached : State} {states : List State} {made notes : List Note}
      (went : p.run s = ⟨made, .ok reached⟩) (succeeded : reached.error = none)
      (later : p.Succeeds reached states notes) : p.Succeeds s (reached :: states) (made ++ notes)

/-- No application in a row ends where it started. -/
def Moving (s : State) (states : List State) : Prop :=
  (s :: states).IsChain fun before after => after.offset ≠ before.offset

/-- The state that a row from one state ends in, with all the values in it. -/
def State.holding (s : State) (states : List State) : State :=
  (states.getLastD s).succeed (.list (states.map State.value))

/-- How a row of applications stops: how often the parser is applied once more, and what the
repetition then leaves. -/
inductive Parser.Stops (p : Parser) (least : Nat) (most : Limit) (s : State) (states : List State) :
    Nat → Run State → Prop where
  | full (all : most = .finite states.length) :
      p.Stops least most s states 0 ⟨[], .ok (s.holding states)⟩
  | refused {made : List Note} {attempt : State} (room : most.exceeds states.length = true)
      (went : p.run (states.getLastD s) = ⟨made, .ok attempt⟩) (failed : attempt.failed = true) :
      p.Stops least most s states 1
        ⟨made, .ok (if states.length < least then attempt else s.holding states)⟩
  | idle {made : List Note} {reached : State} (endless : most = .unbounded)
      (went : p.run (states.getLastD s) = ⟨made, .ok reached⟩) (succeeded : reached.error = none)
      (stays : reached.offset = (states.getLastD s).offset) :
      p.Stops least most s states 1 ⟨made, .error (.contract (.stalled .collect))⟩
  | faulted {made : List Note} {fault : Fault} (room : most.exceeds states.length = true)
      (went : p.run (states.getLastD s) = ⟨made, .error fault⟩) :
      p.Stops least most s states 1 ⟨made, .error fault⟩

/-- A parser that notes each of its runs, and nothing else. -/
def Parser.counted (p : Parser) (n : Note) : Parser where
  name := p.name
  run s := ⟨[n], (p.run s).result⟩

/-- What a repetition leaves, notes included, and how often it applies its parser. -/
structure Parser.Repeats (p : Parser) (bounds : Bounds) (s : State) (times : Nat)
    (whole : Run State) : Prop where
  leaves : (p.collect bounds).run s = whole
  applies (n : Note) :
    ((p.counted n).collect bounds).run s = ⟨List.replicate times n, whole.result⟩

/-! ## Rounds that are applications -/

/-- How a round of a plain repetition goes, by the application that it is. -/
inductive Parser.PlainRound (p : Parser) (s : State) : Run Round → Prop where
  | refused {made : List Note} {attempt : State} (went : p.run s = ⟨made, .ok attempt⟩)
      (failed : attempt.failed = true) : p.PlainRound s ⟨made, .ok (.refused attempt)⟩
  | complete {made : List Note} {reached : State} (went : p.run s = ⟨made, .ok reached⟩)
      (succeeded : reached.error = none) :
      p.PlainRound s ⟨made, .ok (.complete reached.value reached)⟩
  | faulted {made : List Note} {fault : Fault} (went : p.run s = ⟨made, .error fault⟩) :
      p.PlainRound s ⟨made, .error fault⟩

namespace Parser

variable {made : List Note} {attempt : State} {v : Value} {fault : Fault}

/-- A round faults if the application does. -/
theorem roundOf_error (went : p.run s = ⟨made, .error fault⟩) :
    roundOf p s = ⟨made, .error fault⟩ := by
  simp only [roundOf, went, Run.bind_stopped]

/-- An application that succeeds is a complete round. -/
theorem roundOf_succeeded (went : p.run s = ⟨made, .ok reached⟩)
    (succeeded : reached.error = none) :
    roundOf p s = ⟨made, .ok (.complete reached.value reached)⟩ := by
  simp only [roundOf, went, Run.bind_done, if_neg (State.not_failed_of_clean succeeded), Run.behind,
    Run.pure_eq, List.append_nil]

/-- An application that fails is a refused round. -/
theorem roundOf_failed (went : p.run s = ⟨made, .ok attempt⟩) (failed : attempt.failed = true) :
    roundOf p s = ⟨made, .ok (.refused attempt)⟩ := by
  simp only [roundOf, went, Run.bind_done, if_pos failed, Run.behind, Run.pure_eq, List.append_nil]

/-- There are no other rounds. -/
theorem plainRound (p : Parser) (s : State) : p.PlainRound s (roundOf p s) := by
  rcases went : p.run s with ⟨made, fault | reached⟩
  · rw [roundOf_error went]
    exact .faulted went
  · by_cases failed : reached.failed = true
    · rw [roundOf_failed went failed]
      exact .refused went failed
    · have succeeded : reached.error = none := reached.error_of_not_failed failed
      rw [roundOf_succeeded went succeeded]
      exact .complete went succeeded

/-- A complete round is an application that succeeds. -/
theorem roundOf_complete (round : roundOf p s = ⟨made, .ok (.complete v reached)⟩) :
    p.run s = ⟨made, .ok reached⟩ ∧ reached.error = none ∧ v = reached.value := by
  cases round ▸ p.plainRound s with
  | complete went succeeded => exact ⟨went, succeeded, rfl⟩

/-- A refused round is an application that fails. -/
theorem roundOf_refused (round : roundOf p s = ⟨made, .ok (.refused attempt)⟩) :
    p.run s = ⟨made, .ok attempt⟩ ∧ attempt.failed = true := by
  cases round ▸ p.plainRound s with
  | refused went failed => exact ⟨went, failed⟩

/-- A round that faults is an application that does. -/
theorem roundOf_faulted (round : roundOf p s = ⟨made, .error fault⟩) :
    p.run s = ⟨made, .error fault⟩ := by
  cases round ▸ p.plainRound s with
  | faulted went => exact went

/-- Such a round has no last value. -/
theorem roundOf_ne_last : roundOf p s ≠ ⟨made, .ok (.last v reached attempt)⟩ := by
  intro round
  cases round ▸ p.plainRound s

end Parser

/-! ## Rows of applications are rows of rounds -/

/-- A row of applications that is not too long is a row of rounds, by induction on it. -/
theorem Parser.Succeeds.rounds (row : p.Succeeds s states notes)
    (onward : ∀ s, (p.run s).Ensures (Onward s))
    (fits : (Limit.finite states.length).atMost most = true)
    (moving : most = .unbounded → Moving s states) :
    Rounds (Parser.roundOf p) most s (states.map State.value) notes (most.after states.length)
      (states.getLastD s) := by
  induction row generalizing most with
  | none =>
    rw [List.length_nil, most.after_zero]
    exact .none
  | @more s reached states made notes went succeeded later inductionHypothesis =>
    have further := onward s reached (congrArg Run.result went)
    have room : most.exceeds 0 = true :=
      (most.exceeds_iff 0).mpr (Limit.atMost_of_le fits (Nat.succ_le_succ (Nat.zero_le _)))
    have admitted : most.Admits s reached := by
      cases most with
      | finite n => trivial
      | unbounded =>
        have chain := List.isChain_cons_cons.mp (moving rfl)
        exact (further.unread_lt_iff succeeded).mpr chain.1
    have others : (Limit.finite states.length).atMost most.pred = true :=
      Limit.atMost_pred _ _ fits
    rw [List.getLastD_cons, List.length_cons, ← Limit.pred_after]
    refine .more room (roundOf_succeeded went succeeded) admitted
      (inductionHypothesis others fun endless => ?_)
    cases most with
    | finite n => cases endless
    | unbounded => exact (List.isChain_cons_cons.mp (moving rfl)).2

/-- A row of rounds is one of applications. -/
theorem Rounds.succeeds (row : Rounds (Parser.roundOf p) most s values notes rest last)
    (onward : ∀ s, (p.run s).Ensures (Onward s)) :
    ∃ states, p.Succeeds s states notes ∧ states.map State.value = values ∧
      states.getLastD s = last ∧ (most = .unbounded → Moving s states) := by
  induction row with
  | none => exact ⟨[], .none, rfl, rfl, fun _ => .singleton _⟩
  | @more most rest s reached last v values made notes room went admitted later
      inductionHypothesis =>
    obtain ⟨ran, succeeded, rfl⟩ := Parser.roundOf_complete went
    have further := onward s reached (congrArg Run.result ran)
    obtain ⟨states, others, rfl, rfl, moving⟩ := inductionHypothesis
    refine ⟨reached :: states, .more ran succeeded others, rfl, List.getLastD_cons .., ?_⟩
    rintro rfl
    exact List.isChain_cons_cons.mpr
      ⟨(further.unread_lt_iff succeeded).mp admitted, moving rfl⟩

/-! ## Where a row stops -/

namespace Parser

/-- Where a row of applications stops, the row of rounds ends. -/
theorem Stops.roundsEnd {times : Nat} {ending : Run State}
    (stops : p.Stops least most s states times ending)
    (onward : ∀ s, (p.run s).Ensures (Onward s)) :
    ∃ found, RoundsEnd .collect (roundOf p) (most.after states.length) (states.getLastD s) found ∧
      (found >>= fun h =>
        pure ((h.following (states.map State.value)).settle (.finite least))) = ending := by
  cases stops with
  | full all =>
    rw [all, Limit.after_of_reached (Limit.exceeds_self _)]
    exact ⟨_, .full, by rw [Run.bind_done, Harvest.settle_held]; rfl⟩
  | @refused made attempt room went failed =>
    rw [← Limit.exceeds_after] at room
    refine ⟨_, .refused room (roundOf_failed went failed), ?_⟩
    rw [Run.bind_done, Harvest.settle_held, List.length_map, Run.pure_eq, Run.behind,
      List.append_nil]
    rfl
  | @idle made reached endless went succeeded stays =>
    subst endless
    have further := onward _ reached (congrArg Run.result went)
    have still : ¬ reached.unread < (states.getLastD s).unread := fun less =>
      (further.unread_lt_iff succeeded).mp less stays
    exact ⟨_, .stalled (roundOf_succeeded went succeeded) still, rfl⟩
  | faulted room went =>
    rw [← Limit.exceeds_after] at room
    exact ⟨_, .faulted room (roundOf_error went), rfl⟩

/-- Where a row of rounds ends, the applications stop. -/
theorem exists_stops {found : Run Harvest}
    (ends : RoundsEnd .collect (roundOf p) rest (states.getLastD s) found)
    (left : rest = most.after states.length)
    (fits : (Limit.finite states.length).atMost most = true)
    (onward : ∀ s, (p.run s).Ensures (Onward s)) (least : Nat) :
    ∃ times ending, times ≤ 1 ∧ p.Stops least most s states times ending := by
  subst left
  generalize limit : most.after states.length = rest at ends
  generalize from_here : states.getLastD s = last at ends
  cases ends with
  | full => exact ⟨0, _, Nat.zero_le _, .full (Limit.eq_of_after fits limit)⟩
  | refused room went =>
    subst limit from_here
    rw [Limit.exceeds_after] at room
    obtain ⟨ran, failed⟩ := roundOf_refused went
    exact ⟨1, _, Nat.le_refl _, .refused room ran failed⟩
  | final room went => exact absurd went roundOf_ne_last
  | stalled went idle =>
    subst from_here
    obtain ⟨ran, succeeded, rfl⟩ := roundOf_complete went
    have further := onward _ _ (congrArg Run.result ran)
    have stays := not_ne_iff.mp fun moved => idle ((further.unread_lt_iff succeeded).mpr moved)
    cases most with
    | finite n => cases limit
    | unbounded => exact ⟨1, _, Nat.le_refl _, .idle rfl ran succeeded stays⟩
  | faulted room went =>
    subst limit from_here
    rw [Limit.exceeds_after] at room
    exact ⟨1, _, Nat.le_refl _, .faulted room (roundOf_faulted went)⟩

/-- A row and where it stops are the repetition. -/
theorem Succeeds.collect {times : Nat} {ending : Run State} (row : p.Succeeds s states notes)
    (stops : p.Stops least most s states times ending)
    (onward : ∀ s, (p.run s).Ensures (Onward s))
    (ordered : (Limit.finite least).atMost most = true)
    (fits : (Limit.finite states.length).atMost most = true)
    (moving : most = .unbounded → Moving s states) :
    (p.collect ⟨.finite least, most, ordered⟩).run s = ending.behind notes := by
  obtain ⟨found, ends, rfl⟩ := stops.roundsEnd onward
  exact Rounds.repeated ⟨.finite least, most, ordered⟩ (row.rounds onward fits moving) ends

/-- So many of a parser in order gather the values of a row, after those gathered before, which are
given in reverse. -/
theorem Succeeds.gathers (row : p.Succeeds s states notes) (values : List Value) :
    gatherAfter values (List.replicate states.length p) s =
      ⟨notes, .ok ((states.getLastD s).succeed
        (.list (values.reverse ++ states.map State.value)))⟩ := by
  induction row generalizing values with
  | none =>
    rw [List.map_nil, List.append_nil]
    rfl
  | @more s reached states made notes went succeeded later inductionHypothesis =>
    rw [List.length_cons, List.replicate_succ, gatherAfter, went, Run.bind_done,
      if_neg (State.not_failed_of_clean succeeded), inductionHypothesis, List.reverse_cons,
      List.append_assoc, List.getLastD_cons]
    rfl

/-- A repetition of any parser a given number of times, where the parser succeeds so often. -/
theorem Succeeds.exactly (row : p.Succeeds s states notes) :
    (p.collect (.exactly states.length)).run s = ⟨notes, .ok (s.holding states)⟩ := by
  rw [run_collect_exactly]
  exact row.gathers []

/-- A repetition that asks for one value leaves less unread where it succeeds, whatever the parser
is: without a limit every round does. -/
theorem collect_shortens
    (ran : ((p.collect (.atLeast 1)).run s).result = .ok reached)
    (succeeded : reached.error = none) : reached.unread < s.unread := by
  obtain ⟨values, notes, rest, last, found, rounds, ends⟩ :=
    exists_rounds .collect (roundOf p) .unbounded s
  have whole : (p.collect (.atLeast 1)).run s =
      (found >>= fun h => pure ((h.following values).settle (.finite 1))).behind notes :=
    rounds.repeated (.atLeast 1) ends
  rw [whole] at ran
  have fewer := rounds.length_add_unread
  cases ends with
  | full => cases rounds.limit.1
  | refused room went =>
    rw [Run.bind_done, Harvest.settle_held] at ran
    have settled := Except.ok.inj ran
    by_cases short : values.length < 1
    · obtain rfl := (if_pos short).symm.trans settled
      exact absurd (roundOf_refused went).2 (State.not_failed_of_clean succeeded)
    · obtain rfl := (if_neg short).symm.trans settled
      have same : (last.succeed (.list values)).unread = last.unread := rfl
      omega
  | final room went => exact absurd went roundOf_ne_last
  | stalled went idle => cases ran
  | faulted room went => cases ran

/-! ## How often a parser is applied -/

theorem run_counted {made : List Note} {result : Except Fault State}
    (went : p.run s = ⟨made, result⟩) (n : Note) : (p.counted n).run s = ⟨[n], result⟩ := by
  simp only [counted, went]

/-- The same row, with one note for each application. -/
theorem Succeeds.counted (row : p.Succeeds s states notes) (n : Note) :
    (p.counted n).Succeeds s states (List.replicate states.length n) := by
  induction row with
  | none => exact .none
  | more went succeeded later inductionHypothesis =>
    exact .more (run_counted went n) succeeded inductionHypothesis

/-- The same stop, with one note for each application. -/
theorem Stops.counted {times : Nat} {ending : Run State}
    (stops : p.Stops least most s states times ending) (n : Note) :
    (p.counted n).Stops least most s states times ⟨List.replicate times n, ending.result⟩ := by
  cases stops with
  | full all => exact .full all
  | refused room went failed => exact .refused room (run_counted went n) failed
  | idle endless went succeeded stays => exact .idle endless (run_counted went n) succeeded stays
  | faulted room went => exact .faulted room (run_counted went n)

/-- A repetition applies its parser once for each success and as often as it stops with. -/
theorem Succeeds.repeats {times : Nat} {ending : Run State} (row : p.Succeeds s states notes)
    (stops : p.Stops least most s states times ending)
    (onward : ∀ s, (p.run s).Ensures (Onward s))
    (ordered : (Limit.finite least).atMost most = true)
    (fits : (Limit.finite states.length).atMost most = true)
    (moving : most = .unbounded → Moving s states) :
    p.Repeats ⟨.finite least, most, ordered⟩ s (states.length + times) (ending.behind notes) where
  leaves := row.collect stops onward ordered fits moving
  applies n := by
    rw [(row.counted n).collect (stops.counted n) onward ordered fits moving, Run.behind,
      ← List.replicate_add]
    rfl

/-! ## What a repetition leaves -/

/-- In a row that does not move on throughout there is a first application that stays. -/
theorem Succeeds.exists_idle (row : p.Succeeds s states notes) (still : ¬ Moving s states) :
    ∃ before others made idle, p.Succeeds s before others ∧ Moving s before ∧
      before.length < states.length ∧ p.run (before.getLastD s) = ⟨made, .ok idle⟩ ∧
      idle.error = Option.none ∧ idle.offset = (before.getLastD s).offset := by
  induction row with
  | none => exact absurd (.singleton _) still
  | @more s reached states made notes went succeeded later inductionHypothesis =>
    -- The one that stays is this one, or else the first among those behind it.
    by_cases stays : reached.offset = s.offset
    · exact ⟨[], [], made, reached, .none, .singleton _, Nat.succ_pos _, went, succeeded, stays⟩
    · have later_still : ¬ Moving reached states := fun moving =>
        still (List.isChain_cons_cons.mpr ⟨stays, moving⟩)
      obtain ⟨before, others, last, idle, row, moving, fewer, ran, clean, same⟩ :=
        inductionHypothesis later_still
      refine ⟨reached :: before, _, last, idle, .more went succeeded row,
        List.isChain_cons_cons.mpr ⟨stays, moving⟩, Nat.succ_lt_succ fewer, ?_, clean, ?_⟩
      · rw [List.getLastD_cons, ran]
      · rw [List.getLastD_cons, same]

/-- Every repetition is a row of applications that stops. Without a limit there are at most as many
of them as there are items left, and one more. -/
theorem exists_row (least : Nat) (most : Limit) (s : State)
    (onward : ∀ s, (p.run s).Ensures (Onward s)) :
    ∃ states notes times ending, p.Succeeds s states notes ∧
      p.Stops least most s states times ending ∧ times ≤ 1 ∧
      (Limit.finite states.length).atMost most = true ∧
      (most = .unbounded → Moving s states ∧ states.length ≤ s.unread) := by
  obtain ⟨values, notes, rest, last, found, rounds, ends⟩ :=
    exists_rounds .collect (roundOf p) most s
  obtain ⟨states, row, rfl, rfl, moving⟩ := rounds.succeeds onward
  have left := rounds.limit
  rw [List.length_map] at left
  obtain ⟨times, ending, once, stops⟩ :=
    exists_stops ends left.1 left.2 onward least
  refine ⟨states, notes, times, ending, row, stops, once, left.2, ?_⟩
  rintro rfl
  have fewer := rounds.length_add_unread
  rw [List.length_map] at fewer
  exact ⟨moving rfl, Nat.le_of_add_right_le fewer⟩

end Parser

/-- A repetition of a built parser is greedy iteration. Let the applications to a state and to what
they leave make a row of successes. Without a limit, if one of them ends where it started then the
repetition is a fault. Otherwise, where the row is as long as the limit allows, the repetition
leaves its last state with all the values; where the next application fails, it leaves that as well
if there are enough values, and the failed state as it is if there are too few. No application is
made beyond those, and the notes are theirs in order. There always is a row that stops, and without
a limit it takes at most one application more than there are items left. -/
theorem collect_iterates (built : Built claimsEnd p) (least : Nat) (most : Limit)
    (ordered : (Limit.finite least).atMost most = true) (s : State) :
    let bounds : Bounds := ⟨.finite least, most, ordered⟩
    Checked.collect (.parser p) (.int least) most.asked = .ok (p.collect bounds) ∧
    (∀ states notes, p.Succeeds s states notes → most = .unbounded → ¬ Moving s states →
      ∃ times ≤ states.length, ∃ made,
        p.Repeats bounds s times ⟨made, .error (.contract (.stalled .collect))⟩) ∧
    (∀ states notes, p.Succeeds s states notes → (most = .unbounded → Moving s states) →
      (most = .finite states.length →
        p.Repeats bounds s states.length ⟨notes, .ok (s.holding states)⟩) ∧
      ∀ made attempt, most.exceeds states.length = true →
        p.run (states.getLastD s) = ⟨made, .ok attempt⟩ → attempt.failed = true →
          p.Repeats bounds s (states.length + 1)
            ⟨notes ++ made, .ok (if states.length < least then attempt else s.holding states)⟩) ∧
    ∃ states notes times ending, p.Succeeds s states notes ∧
      p.Stops least most s states times ending ∧ times ≤ 1 ∧
      p.Repeats bounds s (states.length + times) (ending.behind notes) ∧
      (most = .unbounded → Moving s states ∧
        (s.offset ≤ s.input.size →
          (states.length + times : Int) ≤ s.input.size - s.offset + 1)) := by
  intro bounds
  have onward : ∀ s, (p.run s).Ensures (Onward s) := built.onward
  refine ⟨Checked.collect_asked p ordered, ?_, ?_, ?_⟩
  · rintro states notes row rfl still
    obtain ⟨before, others, made, idle, first, moving, fewer, went, succeeded, stays⟩ :=
      row.exists_idle still
    exact ⟨before.length + 1, fewer, _,
      first.repeats (.idle rfl went succeeded stays) onward ordered rfl fun _ => moving⟩
  · intro states notes row moving
    constructor
    · intro all
      have whole := row.repeats (.full all) onward ordered (all ▸ Limit.atMost_self _) moving
      rwa [Run.behind, List.append_nil] at whole
    · intro made attempt room went failed
      have fits : (Limit.finite states.length).atMost most = true :=
        Limit.atMost_of_le ((most.exceeds_iff _).mp room) (Nat.le_succ _)
      exact row.repeats (.refused room went failed) onward ordered fits moving
  · obtain ⟨states, notes, times, ending, row, stops, once, fits, moving⟩ :=
      Parser.exists_row least most s onward
    refine ⟨states, notes, times, ending, row, stops, once,
      row.repeats stops onward ordered fits fun endless => (moving endless).1,
      fun endless => ⟨(moving endless).1, fun inside => ?_⟩⟩
    have few := (moving endless).2
    unfold State.unread at few
    omega

/-- Two items where at least one was asked for: the third application fails, and they are a list. -/
theorem collect_iterates_items :
    let s : State := { value := .absent, input := .ofString "ab" }
    ∃ final : State,
      ((Parser.token 1).collect ⟨.finite 1, .unbounded, rfl⟩).run s = ⟨[], .ok final⟩ ∧
        final.value = .list [.text "a", .text "b"] ∧ final.offset = 2 := by
  intro s
  let first : State := { s with value := .text "a", offset := 1, position := ⟨1, 1, none⟩ }
  let second : State := { s with value := .text "b", offset := 2, position := ⟨1, 2, none⟩ }
  have took : (Parser.token 1).run s = ⟨[], .ok first⟩ := rfl
  have again : (Parser.token 1).run first = ⟨[], .ok second⟩ := rfl
  have moving : Moving s [first, second] := by simp [Moving, s, first, second]
  have built : Built False (Parser.token 1) := .token 1
  have whole := ((collect_iterates built 1 .unbounded rfl s).2.2.1
    _ _ (.more took rfl (.more again rfl .none)) fun _ => moving).2 [] _ rfl rfl rfl
  exact ⟨_, whole.leaves, rfl, rfl⟩

end Descent
