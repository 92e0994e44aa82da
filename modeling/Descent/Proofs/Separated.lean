import Descent.Proofs.Iteration

/-!
# Values with a separator between them

A list of values with a separator between them is made of other constructors. A choice is between
some values and none, a script is for the first one, and a repetition is for a separator and a value
with one taken from both numbers. What it does is a plain loop: a value, and then a separator and a
value as long as there may be more of them, up to the first attempt at either that fails.

The loop is a relation between what is held, the state where the last value ends, and what the loop
leaves, faults and notes included. It is what the constructors do on every state: each repetition of
the separator and a value is the loop with the values held so far in front.
-/

namespace Descent

variable {claimsEnd : Prop} {p separator : Parser} {least : Nat} {most rest : Limit}
  {s reached last : State} {values : List Value} {notes : List Note}

/-! ## The loop -/

/-- A separator and a value after it. -/
def Parser.further (p separator : Parser) (s : State) : Run State := do
  let between ← separator.run s
  if between.failed then pure between else p.run between

/-- The loop with some values held, at the state where the last of them ends. It stops where there
may not be more of them, and at the first attempt at a separator and a value that fails. Then the
failure is what it leaves if there are too few values, and otherwise they are, where the last one
ends. Without a limit an attempt that succeeds where it started is a fault. -/
inductive Parser.SplitLoop (p separator : Parser) (least : Nat) (most : Limit) :
    List Value → State → Run State → Prop where
  | full {values : List Value} {s : State} (all : most.exceeds values.length = false) :
      p.SplitLoop separator least most values s ⟨[], .ok (s.succeed (.list values))⟩
  | stopped {values : List Value} {s attempt : State} {made : List Note}
      (room : most.exceeds values.length = true)
      (went : p.further separator s = ⟨made, .ok attempt⟩) (failed : attempt.failed = true) :
      p.SplitLoop separator least most values s
        ⟨made, .ok (if values.length < least then attempt else s.succeed (.list values))⟩
  | goesOn {values : List Value} {s reached : State} {made : List Note} {whole : Run State}
      (room : most.exceeds values.length = true)
      (went : p.further separator s = ⟨made, .ok reached⟩) (succeeded : reached.error = none)
      (moved : most = .unbounded → reached.offset ≠ s.offset)
      (later : p.SplitLoop separator least most (values ++ [reached.value]) reached whole) :
      p.SplitLoop separator least most values s (whole.behind made)
  | idle {values : List Value} {s reached : State} {made : List Note} (endless : most = .unbounded)
      (went : p.further separator s = ⟨made, .ok reached⟩) (succeeded : reached.error = none)
      (stays : reached.offset = s.offset) :
      p.SplitLoop separator least most values s ⟨made, .error (.contract (.stalled .collect))⟩
  | faulted {values : List Value} {s : State} {made : List Note} {fault : Fault}
      (room : most.exceeds values.length = true)
      (went : p.further separator s = ⟨made, .error fault⟩) :
      p.SplitLoop separator least most values s ⟨made, .error fault⟩

/-- A list of values with a separator between them. Where no value is allowed nothing is run.
Without a first value the list is empty if none was asked for, and fails otherwise. After the first
value the loop begins. -/
inductive Parser.SplitRuns (p separator : Parser) (least : Nat) (most : Limit) (s : State) :
    Run State → Prop where
  | nothing (none : most = .finite 0) :
      p.SplitRuns separator least most s ⟨[], .ok (s.succeed (.list []))⟩
  | refused {attempt : State} {made : List Note} (room : most ≠ .finite 0)
      (went : p.run s = ⟨made, .ok attempt⟩) (failed : attempt.failed = true) :
      p.SplitRuns separator least most s
        ⟨made, .ok (if least = 0 then s.succeed (.list []) else attempt)⟩
  | found {first : State} {made : List Note} {whole : Run State} (room : most ≠ .finite 0)
      (went : p.run s = ⟨made, .ok first⟩) (succeeded : first.error = none)
      (loop : p.SplitLoop separator least most [first.value] first whole) :
      p.SplitRuns separator least most s (whole.behind made)
  | faulted {made : List Note} {fault : Fault} (room : most ≠ .finite 0)
      (went : p.run s = ⟨made, .error fault⟩) :
      p.SplitRuns separator least most s ⟨made, .error fault⟩

/-! ## The loop is a repetition -/

namespace Limit

/-- Where there is no limit a round has to move on to be followed by another one. -/
theorem admits_after {count : Nat} (onward : Onward s reached) (succeeded : reached.error = none)
    (moved : most = .unbounded → reached.offset ≠ s.offset) :
    (most.after count).Admits s reached := by
  cases most with
  | finite n => trivial
  | unbounded => exact (onward.unread_lt_iff succeeded).mpr (moved rfl)

end Limit

namespace Parser

/-- The two parsers of an attempt, as one. -/
theorem run_chain_pair (p separator : Parser) (s : State) :
    (chain separator [p]).run s = p.further separator s := by
  have alone : runAll [p] = p.run := funext (run_chain_nil p)
  have opened : (chain separator [p]).run s = separator.run s >>= fun between =>
      if between.failed then pure between else runAll [p] between := rfl
  rw [opened, alone]
  rfl

/-- What a repetition of the separator and a value leaves, with the values held so far in front. -/
def continued (p separator : Parser) (least : Nat) (most : Limit) (values : List Value)
    (s : State) : Run State :=
  harvest .collect (roundOf (chain separator [p])) (most.after values.length) s >>= fun h =>
    pure ((h.following values).settle (.finite least))

variable (onward : ∀ s, ((chain separator [p]).run s).Ensures (Onward s))

include onward in
/-- What the loop leaves is what the repetition does, by induction on the loop. -/
theorem SplitLoop.continued {whole : Run State}
    (loop : p.SplitLoop separator least most values s whole) :
    p.continued separator least most values s = whole := by
  induction loop with
  | @full values s all =>
    rw [Parser.continued, Limit.after_of_reached all, RoundsEnd.full.harvest, Run.bind_done,
      Harvest.settle_held]
    rfl
  | @stopped values s attempt made room went failed =>
    rw [← run_chain_pair] at went
    rw [← Limit.exceeds_after] at room
    rw [Parser.continued, (RoundsEnd.refused room (roundOf_failed went failed)).harvest,
      Run.bind_done, Harvest.settle_held, Run.pure_eq, Run.behind, List.append_nil]
  | @goesOn values s reached made whole room went succeeded moved later inductionHypothesis =>
    rw [← run_chain_pair] at went
    rw [← Limit.exceeds_after] at room
    have admitted : (most.after values.length).Admits s reached :=
      Limit.admits_after (onward s reached (congrArg Run.result went)) succeeded moved
    have moved : ∀ h : Harvest, (h.cons reached.value).following values =
        h.following (values ++ [reached.value]) := by
      intro h
      simp [Harvest.cons, Harvest.following]
    rw [Parser.continued, List.length_append, List.length_singleton] at inductionHypothesis
    rw [Parser.continued, harvest_room room, roundOf_succeeded went succeeded, Run.bind_done,
      Round.proceed, onward_admitted admitted, Limit.after_pred, Run.behind_bind, bind_assoc,
      ← inductionHypothesis]
    simp only [pure_bind, moved]
  | @idle values s reached made endless went succeeded stays =>
    rw [← run_chain_pair] at went
    subst endless
    have further := onward s reached (congrArg Run.result went)
    have still : ¬ reached.unread < s.unread := fun less =>
      (further.unread_lt_iff succeeded).mp less stays
    rw [Parser.continued, Limit.after,
      (RoundsEnd.stalled (roundOf_succeeded went succeeded) still).harvest, Run.bind_stopped]
  | @faulted values s made fault room went =>
    rw [← run_chain_pair] at went
    rw [← Limit.exceeds_after] at room
    rw [Parser.continued, (RoundsEnd.faulted room (roundOf_error went)).harvest, Run.bind_stopped]

/-- A row of rounds and its end are a loop, by induction on the rounds. -/
theorem SplitLoop.of_rounds {limit : Limit} {later : List Value} {found : Run Harvest}
    (rounds : Rounds (roundOf (chain separator [p])) limit s later notes rest last)
    (ends : RoundsEnd .collect (roundOf (chain separator [p])) rest last found)
    (onward : ∀ s, ((chain separator [p]).run s).Ensures (Onward s)) (least : Nat)
    (values : List Value) (left : limit = most.after values.length) :
    p.SplitLoop separator least most values s
      ((found >>= fun h => pure ((h.following (values ++ later)).settle (.finite least))).behind
        notes) := by
  induction rounds generalizing values with
  | @none limit s =>
    rw [Run.behind_nil, List.append_nil]
    cases ends with
    | full =>
      rw [Run.bind_done, Harvest.settle_held]
      refine .full ?_
      rw [← Limit.exceeds_after, ← left]
      rfl
    | @refused limit s attempt made room went =>
      rw [left, Limit.exceeds_after] at room
      obtain ⟨ran, failed⟩ := roundOf_refused went
      rw [run_chain_pair] at ran
      rw [Run.bind_done, Harvest.settle_held, Run.pure_eq, Run.behind, List.append_nil]
      exact .stopped room ran failed
    | final room went => exact absurd went roundOf_ne_last
    | @stalled s reached v made went idle =>
      obtain ⟨ran, succeeded, rfl⟩ := roundOf_complete went
      have further := onward s reached (congrArg Run.result ran)
      have stays := not_ne_iff.mp fun moved => idle ((further.unread_lt_iff succeeded).mpr moved)
      rw [run_chain_pair] at ran
      rw [Run.bind_stopped]
      cases most with
      | finite n => cases left
      | unbounded => exact .idle rfl ran succeeded stays
    | @faulted limit s made fault room went =>
      rw [left, Limit.exceeds_after] at room
      have ran := roundOf_faulted went
      rw [run_chain_pair] at ran
      rw [Run.bind_stopped]
      exact .faulted room ran
  | @more limit rest s reached last v later made notes room went admitted others
      inductionHypothesis =>
    obtain ⟨ran, succeeded, rfl⟩ := roundOf_complete went
    have further := onward s reached (congrArg Run.result ran)
    rw [run_chain_pair] at ran
    rw [left, Limit.exceeds_after] at room
    have moved : most = .unbounded → reached.offset ≠ s.offset := by
      rintro rfl
      subst left
      exact (further.unread_lt_iff succeeded).mp admitted
    have fewer : limit.pred = most.after (values ++ [reached.value]).length := by
      rw [left, Limit.after_pred, List.length_append, List.length_singleton]
    have loop := inductionHypothesis ends (values ++ [reached.value]) fewer
    rw [List.append_assoc] at loop
    rw [← Run.behind_behind]
    exact .goesOn room ran succeeded moved loop

/-- The loop ends, and leaves what the repetition does. -/
theorem splitLoop_iff (onward : ∀ s, ((chain separator [p]).run s).Ensures (Onward s))
    (least : Nat) (most : Limit) (values : List Value) (s : State) (whole : Run State) :
    p.SplitLoop separator least most values s whole ↔
      p.continued separator least most values s = whole := by
  constructor
  · exact SplitLoop.continued onward
  · rintro rfl
    obtain ⟨later, notes, rest, last, found, rounds, ends⟩ :=
      exists_rounds .collect (roundOf (chain separator [p])) (most.after values.length) s
    have loop := SplitLoop.of_rounds rounds ends onward least values rfl
    have moved : ∀ h : Harvest,
        (h.following later).following values = h.following (values ++ later) := by
      intro h
      simp [Harvest.following]
    rw [continued, rounds.harvest ends, Run.behind_bind, bind_assoc]
    simp only [pure_bind, moved]
    exact loop

/-! ## Some values -/

/-- A repetition gives up only because of an attempt that has failed. -/
theorem harvest_refusal (q : Parser) (most : Limit) (s : State) :
    (harvest .collect (roundOf q) most s).Ensures fun h =>
      ∀ attempt, h.refusal = some attempt → attempt.failed = true := by
  obtain ⟨values, notes, rest, last, found, rounds, ends⟩ :=
    exists_rounds .collect (roundOf q) most s
  intro h given
  rw [rounds.harvest ends] at given
  cases ends with
  | full =>
    cases given
    intro attempt impossible
    cases impossible
  | refused room went =>
    cases given
    intro attempt same
    cases same
    exact (roundOf_refused went).2
  | final room went => exact absurd went roundOf_ne_last
  | stalled went idle => cases given
  | faulted room went => cases given

/-- A harvest with one more value in front is settled on as it is without it for one value fewer: in
the same failure, or in the state that holds that value as well. -/
theorem settle_behind (v : Value) (least : Nat) (h : Harvest)
    (refusals : ∀ attempt, h.refusal = some attempt → attempt.failed = true) :
    ((h.settle (Limit.finite least).pred).failed = true ∧
        (h.following [v]).settle (.finite least) = h.settle (Limit.finite least).pred) ∨
      (h.settle (Limit.finite least).pred = h.reached.succeed (.list h.values) ∧
        (h.following [v]).settle (.finite least) =
          h.reached.succeed (.list (v :: h.values))) := by
  have longer : (h.following [v]).values = v :: h.values := rfl
  have same : (h.following [v]).refusal = h.refusal := rfl
  unfold Harvest.settle
  rw [longer, same]
  cases found : h.refusal with
  | none => exact .inr ⟨rfl, rfl⟩
  | some attempt =>
    by_cases few : h.values.length + 1 < least
    · have fewer : h.values.length < least - 1 := by omega
      left
      simp [Limit.exceeds, Limit.pred, few, fewer, refusals attempt found]
    · have enough : ¬ h.values.length < least - 1 := by omega
      right
      simp [Limit.exceeds, Limit.pred, few, enough, Harvest.following]

/-- The script for a first value and others, step by step. What it makes of the value of the others
is left open but for a list, which is all that they give. -/
theorem exists_run_splitSome (p separator : Parser) (bounds : Bounds) (s : State) :
    ∃ itemsOf : Value → Script (List Value), (∀ xs, itemsOf (.list xs) = .done xs) ∧
      (splitSome p separator bounds).run s = p.run s >>= fun first =>
        if first.failed then pure first
        else ((chain separator [p]).collect bounds.pred).run first >>= fun last =>
          if last.failed then pure last
          else ((itemsOf last.value).andThen fun xs =>
            .done (succeed (.list (first.value :: xs)))).runFrom last := by
  let others : Parser := (chain separator [p]).collect bounds.pred
  obtain ⟨itemsOf, items, ofList⟩ : ∃ itemsOf : Value → Script (List Value),
      Script.items others = .step others itemsOf ∧ ∀ xs, itemsOf (.list xs) = .done xs :=
    ⟨_, rfl, fun _ => rfl⟩
  have taken : (splitSome p separator bounds).run =
      (Script.parse p >>= fun first => Script.items others >>= fun xs =>
        return succeed (.list (first :: xs))).runFrom := rfl
  refine ⟨itemsOf, ofList, ?_⟩
  rw [taken, items]
  rfl

/-- With a repetition of one value fewer than were asked for, the script goes on behind the first
value as a repetition that holds it already. -/
theorem run_splitSome (p separator : Parser) (least : Nat) (most : Limit)
    (ordered : (Limit.finite least).atMost most = true) (s : State) :
    (splitSome p separator ⟨.finite least, most, ordered⟩).run s = p.run s >>= fun first =>
      if first.failed then pure first
      else p.continued separator least most [first.value] first := by
  obtain ⟨itemsOf, ofList, opened⟩ :=
    exists_run_splitSome p separator ⟨.finite least, most, ordered⟩ s
  rw [opened]
  congr 1
  funext first
  by_cases failed : first.failed = true
  · rw [if_pos failed, if_pos failed]
  · rw [if_neg failed, if_neg failed]
    have taken : ((chain separator [p]).collect (.pred ⟨.finite least, most, ordered⟩)).run first =
        harvest .collect (roundOf (chain separator [p])) (most.after 1) first >>= fun h =>
          pure (h.settle (Limit.finite least).pred) := by
      rw [← Limit.after_pred, Limit.after_zero]
      exact repeated_eq .collect _ _ first
    rw [taken, continued, bind_assoc]
    refine Run.bind_congr_ensures (harvest_refusal _ _ first) fun h refusals => ?_
    rw [pure_bind]
    obtain ⟨stopped, same⟩ | ⟨listed_fewer, same⟩ := settle_behind first.value least h refusals
    · rw [if_pos stopped, ← same]
    · have holds : ¬ (h.reached.succeed (.list h.values)).failed = true := Bool.false_ne_true
      rw [listed_fewer, if_neg holds, same, State.succeed, ofList]
      rfl

/-! ## Some values or none -/

/-- Where nothing is too little, a repetition is settled on as a success. -/
theorem settle_zero (h : Harvest) :
    h.settle (.finite 0) = h.reached.succeed (.list h.values) := by
  unfold Harvest.settle
  cases h.refusal <;> rfl

/-- Where there may be values, the list begins with a first one. Without one it is empty if none was
asked for, and once there is one the choice between some values and none is made. -/
theorem run_split (p separator : Parser) (least : Nat) (most : Limit)
    (ordered : (Limit.finite least).atMost most = true) (room : most ≠ .finite 0) (s : State) :
    (split p separator ⟨.finite least, most, ordered⟩).run s = p.run s >>= fun first =>
      if first.failed then pure (if least = 0 then s.succeed (.list []) else first)
      else p.continued separator least most [first.value] first := by
  unfold split
  rw [if_neg room]
  by_cases free : least = 0
  · subst free
    let rest (reached : State) : Run State :=
      if reached.failed then attempt s (Failure.merge? none reached.error) (succeed (.list [])) []
      else pure reached
    have none_found (earlier : Option Failure) :
        attempt s earlier (succeed (.list [])) [] = pure (s.succeed (.list [])) := rfl
    -- Behind a first value nothing is too little, so that the choice has no reason to go back.
    have some_found (first : State) :
        p.continued separator 0 most [first.value] first >>= rest =
          p.continued separator 0 most [first.value] first := by
      unfold continued
      rw [bind_assoc]
      congr 1
      funext h
      rw [pure_bind, settle_zero]
      exact if_neg Bool.false_ne_true
    have tried : (choice (splitSome p separator ⟨.finite 0, most, ordered⟩)
        [succeed (.list [])]).run s =
          (splitSome p separator ⟨.finite 0, most, ordered⟩).run s >>= rest := rfl
    rw [if_pos rfl, tried, run_splitSome, bind_assoc]
    congr 1
    funext first
    by_cases failed : first.failed = true
    · rw [if_pos failed, if_pos failed, pure_bind, if_pos rfl]
      exact (if_pos failed).trans (none_found _)
    · rw [if_neg failed, if_neg failed, some_found]
  · have asked : Limit.finite least ≠ .finite 0 := fun zero => free (Limit.finite.inj zero)
    rw [if_neg asked, run_splitSome]
    simp only [if_neg free]

/-- The list of values with a separator between them is the loop. -/
theorem splitRuns_iff (onward : ∀ s, ((chain separator [p]).run s).Ensures (Onward s))
    (ordered : (Limit.finite least).atMost most = true) (s : State) (whole : Run State) :
    p.SplitRuns separator least most s whole ↔
      (split p separator ⟨.finite least, most, ordered⟩).run s = whole := by
  by_cases room : most = .finite 0
  · subst room
    have plain : (split p separator ⟨.finite least, .finite 0, ordered⟩).run s =
        ⟨[], .ok (s.succeed (.list []))⟩ := congrArg (Parser.run · s) (if_pos rfl)
    rw [plain]
    constructor
    · rintro (_ | impossible | impossible | impossible)
      · rfl
      all_goals exact absurd rfl impossible
    · rintro rfl
      exact .nothing rfl
  · rw [run_split p separator least most ordered room]
    constructor
    · rintro (none | ⟨_, went, failed⟩ | ⟨_, went, succeeded, loop⟩ | ⟨_, went⟩)
      · exact absurd none room
      · rw [went, Run.bind_done, if_pos failed, Run.pure_eq, Run.behind, List.append_nil]
      · rw [went, Run.bind_done, if_neg (State.not_failed_of_clean succeeded),
          loop.continued onward]
      · rw [went, Run.bind_stopped]
    · rintro rfl
      rcases went : p.run s with ⟨made, fault | first⟩
      · exact .faulted room went
      · by_cases failed : first.failed = true
        · rw [Run.bind_done, if_pos failed, Run.pure_eq, Run.behind, List.append_nil]
          exact .refused room went failed
        · rw [Run.bind_done, if_neg failed]
          exact .found room went (first.error_of_not_failed failed)
            ((splitLoop_iff onward least most _ first _).mpr rfl)

/-! ## What a list holds -/

/-- A state is what a parser leaves when it succeeds somewhere. -/
def Leaves (p : Parser) (t : State) : Prop :=
  t.error = none ∧ ∃ before made, p.run before = ⟨made, .ok t⟩

/-- An attempt at a separator and a value that succeeds ends with a value. -/
theorem leaves_of_further {made : List Note} (went : p.further separator s = ⟨made, .ok reached⟩)
    (succeeded : reached.error = none) : p.Leaves reached := by
  refine ⟨succeeded, ?_⟩
  unfold further at went
  rcases between : separator.run s with ⟨notes, fault | b⟩
  · rw [between] at went
    cases went
  · rw [between, Run.bind_done] at went
    by_cases failed : b.failed = true
    · rw [if_pos failed] at went
      cases went
      exact absurd failed (State.not_failed_of_clean succeeded)
    · rw [if_neg failed] at went
      obtain ⟨later, ran, _⟩ := Run.behind_inv _ _ _ _ went
      exact ⟨b, later, ran⟩

/-- What a loop that succeeds holds: from values of which the last ends where it begins, values of
which the last ends where it stops, as many as were asked for. By induction on the loop. -/
theorem SplitLoop.holds {whole : Run State} {made : List Note} {r : State}
    (loop : p.SplitLoop separator least most values s whole) (given : whole = ⟨made, .ok r⟩)
    (succeeded : r.error = none) (ordered : (Limit.finite least).atMost most = true)
    (fits : (Limit.finite values.length).atMost most = true) (left : p.Leaves s)
    (ends : values.getLast? = some s.value) :
    ∃ held t, r = t.succeed (.list held) ∧ least ≤ held.length ∧
      (Limit.finite held.length).atMost most = true ∧ p.Leaves t ∧
      held.getLast? = some t.value := by
  induction loop generalizing made with
  | @full values s all =>
    cases given
    refine ⟨values, s, rfl, ?_, fits, left, ends⟩
    cases most with
    | finite n =>
      have reached : n ≤ values.length := by simpa [Limit.exceeds] using all
      have enough : least ≤ n := by simpa [Limit.atMost] using ordered
      omega
    | unbounded => cases all
  | @stopped values s attempt notes room went failed =>
    cases given
    by_cases few : values.length < least
    · rw [if_pos few] at succeeded
      exact absurd failed (State.not_failed_of_clean succeeded)
    · exact ⟨values, s, if_neg few, Nat.le_of_not_lt few, fits, left, ends⟩
  | @goesOn values s reached notes whole room went clean moved later inductionHypothesis =>
    obtain ⟨others, rfl, -⟩ := Run.behind_inv _ _ _ _ given
    refine inductionHypothesis rfl ?_ (leaves_of_further went clean) List.getLast?_concat
    rw [List.length_append, List.length_singleton]
    exact (most.exceeds_iff _).mp room
  | idle endless went clean stays => cases given
  | faulted room went => cases given

/-- A list that succeeds holds as many values as were asked for. It ends where the last of them
does, or is empty and has not moved. -/
theorem SplitRuns.holds {made : List Note} {r : State}
    (runs : p.SplitRuns separator least most s ⟨made, .ok r⟩) (succeeded : r.error = none)
    (ordered : (Limit.finite least).atMost most = true) :
    ∃ held t, r = t.succeed (.list held) ∧ least ≤ held.length ∧
      (Limit.finite held.length).atMost most = true ∧
      (held = [] ∧ t = s ∨ p.Leaves t ∧ held.getLast? = some t.value) := by
  generalize given : (⟨made, .ok r⟩ : Run State) = whole at runs
  cases runs with
  | nothing none =>
    cases given
    subst none
    exact ⟨[], s, rfl, of_decide_eq_true ordered, rfl, .inl ⟨rfl, rfl⟩⟩
  | @refused attempt notes room went failed =>
    cases given
    by_cases free : least = 0
    · exact ⟨[], s, if_pos free, Nat.le_of_eq free, most.zero_atMost, .inl ⟨rfl, rfl⟩⟩
    · rw [if_neg free] at succeeded
      exact absurd failed (State.not_failed_of_clean succeeded)
  | @found first notes whole room went clean loop =>
    obtain ⟨others, same, -⟩ := Run.behind_inv _ _ _ _ given.symm
    have fits : (Limit.finite [first.value].length).atMost most = true :=
      (most.exceeds_iff 0).mp (Limit.exceeds_zero room)
    obtain ⟨held, t, ends, enough, few, left⟩ :=
      loop.holds same succeeded ordered fits ⟨clean, s, notes, went⟩ rfl
    exact ⟨held, t, ends, enough, few, .inr left⟩
  | faulted room went => cases given

end Parser

/-- A list of values with a separator between them is the plain loop, whatever parsers are built for
the values and the separator: the loop always ends, in a state or in a fault, and leaves what the
list does, notes included. A list that succeeds holds at least as many values as were asked for and
no more than there may be. It ends where its last value does, so that no separator is consumed
without a value after it, and without any value it has not moved. -/
theorem split_loops (built : Built claimsEnd p) (between : Built claimsEnd separator) (least : Nat)
    (most : Limit) (ordered : (Limit.finite least).atMost most = true) (s : State) :
    let listed := p.split separator ⟨.finite least, most, ordered⟩
    Checked.split (.parser p) (.parser separator) (.int least) most.asked = .ok listed ∧
    (∀ whole, p.SplitRuns separator least most s whole ↔ listed.run s = whole) ∧
    ∀ made r, listed.run s = ⟨made, .ok r⟩ → r.error = none →
      ∃ held t, r = t.succeed (.list held) ∧ least ≤ held.length ∧
        (Limit.finite held.length).atMost most = true ∧
        (held = [] ∧ t = s ∨ p.Leaves t ∧ held.getLast? = some t.value) := by
  intro listed
  have onward : ∀ s, ((Parser.chain separator [p]).run s).Ensures (Onward s) :=
    (between.chain (List.forall_mem_singleton.mpr built)).onward
  have loops := Parser.splitRuns_iff onward ordered s
  refine ⟨Checked.split_asked p separator ordered, loops, fun made r given succeeded => ?_⟩
  exact ((loops _).mpr given).holds succeeded ordered

/-- Two letters with a comma after each: at least two were asked for, and the second comma is left
where it is. -/
theorem split_loops_letters :
    let letter := Parser.satisfying fun v => .ok (v.text? = some "a")
    let comma := Parser.satisfying fun v => .ok (v.text? = some ",")
    ∃ final : State,
      (letter.split comma ⟨.finite 2, .unbounded, rfl⟩).run
        { value := .absent, input := .ofString "a,a," } = ⟨[], .ok final⟩ ∧
      final.value = .list [.text "a", .text "a"] ∧ final.offset = 3 := by
  intro letter comma
  have built : Built False letter := .satisfying _ (.token 1)
  have between : Built False comma := .satisfying _ (.token 1)
  let s : State := { value := .absent, input := .ofString "a,a," }
  let first : State := { s with value := .text "a", offset := 1, position := ⟨1, 1, none⟩ }
  let second : State := { s with value := .text "a", offset := 3, position := ⟨1, 3, none⟩ }
  have took : letter.run s = ⟨[], .ok first⟩ := rfl
  have further : letter.further comma first = ⟨[], .ok second⟩ := rfl
  have whole := ((split_loops built between 2 .unbounded rfl s).2.1 _).mp
    (.found (by decide) took rfl
      (.goesOn rfl further rfl (fun _ => by decide) (.stopped rfl rfl rfl)))
  exact ⟨_, whole, rfl, rfl⟩

end Descent
