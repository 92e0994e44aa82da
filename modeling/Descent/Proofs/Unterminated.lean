import Descent.Proofs.Binding
import Descent.Proofs.Iteration

/-!
# Values of which the last may lack its separator

Values with a separator after each, the last of which may lack it, are read in a single pass. It
comes to the same as two phases: first as many values with their separators as there are, and then
one more value, if there may be one. The second phase begins where the first one gave up, so that it
reads the value for a second time when its separator is missing.

The two differ in the value of the state from which they go on. Within the single pass that is what
the separator left, and a repetition of both parsers puts the value in front of it there. Nothing
depends on it: both make the same rounds, each for the same values and in states that are equal but
for theirs.
-/

namespace Descent

variable {claimsEnd : Prop} {p separator : Parser} {least : Nat} {most rest : Limit}
  {s last : State} {values : List Value} {notes : List Note}

/-- The second phase, on the values of the first one and the state where the last of them ends: one
more value, if there may be one. Too few values are a failure, which is that of the value or else
that of its separator. -/
def Parser.oneMore (p separator : Parser) (least : Nat) (most : Limit) (values : List Value)
    (t : State) : Except Fault State :=
  if most = .finite values.length then .ok t
  else do
    let u ← (p.run t).result
    if u.failed then .ok (if least ≤ values.length then t else u)
    else if least ≤ values.length + 1 then .ok (u.succeed (.list (values ++ [u.value])))
    else (separator.run u).result

/-- No value with a separator after it begins at a state: after any value there the separator
fails. -/
def Parser.Unended (p separator : Parser) (t : State) : Prop :=
  ∀ u, (p.run t).result = .ok u → u.error = none →
    ∃ attempt, (separator.run u).result = .ok attempt ∧ attempt.failed = true

/-! ## Rounds of one kind and of the other -/

/-- How a round of a value and its separator goes, whatever is noted. -/
inductive Parser.EndedRound (p separator : Parser) (s : State) : Except Fault Round → Prop where
  | refused {attempt : State} (went : (p.run s).result = .ok attempt)
      (failed : attempt.failed = true) : p.EndedRound separator s (.ok (.refused attempt))
  | last {item attempt : State} (went : (p.run s).result = .ok item) (succeeded : item.error = none)
      (ended : (separator.run item).result = .ok attempt) (failed : attempt.failed = true) :
      p.EndedRound separator s (.ok (.last item.value item attempt))
  | complete {item reached : State} (went : (p.run s).result = .ok item)
      (succeeded : item.error = none) (ended : (separator.run item).result = .ok reached)
      (both : reached.error = none) :
      p.EndedRound separator s (.ok (.complete item.value reached))
  | faulted {fault : Fault} (went : (p.run s).result = .error fault) :
      p.EndedRound separator s (.error fault)
  | endFaulted {item : State} {fault : Fault} (went : (p.run s).result = .ok item)
      (succeeded : item.error = none) (ended : (separator.run item).result = .error fault) :
      p.EndedRound separator s (.error fault)

/-- A round of a value and its separator, and one of the two as a single parser: the same, but that
the second one is refused where the separator is missing, and leaves the value in its state. -/
inductive MatchingRounds : Except Fault Round → Except Fault Round → Prop where
  | refused {a b : State} (alike : SameButValue a b) :
      MatchingRounds (.ok (.refused a)) (.ok (.refused b))
  | last (v : Value) (item attempt : State) :
      MatchingRounds (.ok (.last v item attempt)) (.ok (.refused attempt))
  | complete (v : Value) (reached : State) (succeeded : reached.error = none) :
      MatchingRounds (.ok (.complete v reached)) (.ok (.complete v (reached.succeed v)))
  | faulted (fault : Fault) : MatchingRounds (.error fault) (.error fault)

namespace Parser

/-- Every round goes in one of these ways. -/
theorem endedRound (p separator : Parser) (s : State) :
    p.EndedRound separator s (endedRoundOf p separator s).result := by
  unfold endedRoundOf
  rcases went : (p.run s).result with fault | item
  · rw [Run.result_bind_error _ _ fault went]
    exact .faulted went
  · rw [Run.result_bind_ok _ _ item went]
    by_cases failed : item.failed = true
    · rw [if_pos failed]
      exact .refused went failed
    · rw [if_neg failed]
      have succeeded := item.error_of_not_failed failed
      rcases ended : (separator.run item).result with fault | reached
      · rw [Run.result_bind_error _ _ fault ended]
        exact .endFaulted went succeeded ended
      · rw [Run.result_bind_ok _ _ reached ended]
        by_cases missing : reached.failed = true
        · rw [if_pos missing]
          exact .last went succeeded ended missing
        · rw [if_neg missing]
          exact .complete went succeeded ended (reached.error_of_not_failed missing)

/-- The two parsers of such a round as a single one. -/
theorem run_followedBy (p separator : Parser) (s : State) :
    (p.followedBy separator).run s = p.run s >>= fun item =>
      if item.failed then pure item
      else separator.run item >>= fun ended =>
        if ended.failed then pure ended else pure (ended.succeed item.value) := by
  have alone : (chain separator []).run = separator.run := funext (run_chain_nil separator)
  have opened : (p.followedBy separator).run s = p.run s >>= fun item =>
      if item.failed then pure item
      else (chain separator []).run item >>= fun ended =>
        if ended.failed then pure ended else pure (ended.succeed item.value) := rfl
  rw [opened, alone]

/-- The rounds of the single parser, at a state that holds another value. -/
theorem matchingRounds (ignores : p.IgnoresValue) (separator : Parser) (s : State) (w : Value) :
    MatchingRounds (endedRoundOf p separator s).result
      (roundOf (p.followedBy separator) { s with value := w }).result := by
  have kind := p.endedRound separator s
  generalize (endedRoundOf p separator s).result = round at kind ⊢
  rw [roundOf, run_followedBy, bind_assoc]
  cases kind with
  | @refused attempt went failed =>
    obtain ⟨other, ran, gaveUp, alike⟩ := ignores.fails w went failed
    rw [Run.result_bind_ok _ _ other ran, if_pos gaveUp, pure_bind, if_pos gaveUp]
    exact .refused alike
  | @last item attempt went succeeded ended failed =>
    have ran := ignores.succeeds w went succeeded
    rw [Run.result_bind_ok _ _ item ran, if_neg (State.not_failed_of_clean succeeded), bind_assoc,
      Run.result_bind_ok _ _ attempt ended, if_pos failed, pure_bind, if_pos failed]
    exact .last item.value item attempt
  | @complete item reached went succeeded ended both =>
    have ran := ignores.succeeds w went succeeded
    rw [Run.result_bind_ok _ _ item ran, if_neg (State.not_failed_of_clean succeeded), bind_assoc,
      Run.result_bind_ok _ _ reached ended, if_neg (State.not_failed_of_clean both), pure_bind,
      if_neg (State.not_failed_of_clean rfl)]
    exact .complete item.value reached both
  | @faulted fault went =>
    rw [Run.result_bind_error _ _ fault (ignores.faults w went)]
    exact .faulted fault
  | @endFaulted item fault went succeeded ended =>
    have ran := ignores.succeeds w went succeeded
    rw [Run.result_bind_ok _ _ item ran, if_neg (State.not_failed_of_clean succeeded), bind_assoc,
      Run.result_bind_error _ _ fault ended]
    exact .faulted fault

end Parser

/-! ## Rows of rounds -/

/-- Both go through the same rounds, and end in states that are equal but for the value. By
induction on the rounds. -/
theorem exists_matching_rounds
    (rounds : Rounds (Parser.endedRoundOf p separator) most s values notes rest last)
    (ignores : p.IgnoresValue) (clean : s.error = none) (w : Value) :
    last.error = none ∧ ∃ others v, Rounds (Parser.roundOf (p.followedBy separator)) most
      (s.succeed w) values others rest (last.succeed v) := by
  induction rounds generalizing w with
  | none => exact ⟨clean, [], w, .none⟩
  | @more most rest s reached last v values made notes room went admitted later
      inductionHypothesis =>
    have alike := Parser.matchingRounds ignores separator s w
    rw [← State.succeed_of_clean _ clean] at alike
    generalize again :
      (Parser.roundOf (p.followedBy separator) (s.succeed w)).result = result at alike
    rw [went] at alike
    cases alike with
    | complete v reached succeeded =>
      obtain ⟨ends, others, u, rounds⟩ := inductionHypothesis succeeded v
      refine ⟨ends, _, u, .more room (Run.eq_of_result again) ?_ rounds⟩
      cases most with
      | finite n => trivial
      | unbounded => exact admitted

/-! ## The two phases -/

namespace Parser

variable {t u attempt : State}

/-- The second phase finds no further value. -/
theorem oneMore_refused (room : most ≠ .finite values.length) (went : (p.run t).result = .ok u)
    (failed : u.failed = true) :
    p.oneMore separator least most values t = .ok (if least ≤ values.length then t else u) := by
  rw [oneMore, if_neg room, went]
  exact if_pos failed

/-- The second phase finds a value, after which there is no separator. -/
theorem oneMore_last (room : most ≠ .finite values.length) (went : (p.run t).result = .ok u)
    (succeeded : u.error = none) (ended : (separator.run u).result = .ok attempt) :
    p.oneMore separator least most values t =
      .ok (if least ≤ values.length + 1 then u.succeed (.list (values ++ [u.value]))
        else attempt) := by
  rw [oneMore, if_neg room, went]
  refine (if_neg (State.not_failed_of_clean succeeded)).trans ?_
  rw [ended]
  split <;> rfl

end Parser

/-- Where the rounds have ended: what the single pass has found settles on what the second phase
makes of the values and of the state that the first one leaves. -/
structure BothPhases (p separator : Parser) (least : Nat) (most : Limit) (values : List Value)
    (last : State) (h k : Harvest) (r : State) : Prop where
  first : (k.following values).settle (.finite 0) = last.succeed (.list values)
  unended : most = .finite values.length ∨ p.Unended separator (last.succeed (.list values))
  second : p.oneMore separator least most values (last.succeed (.list values)) = .ok r
  alike : SameButValue ((h.following values).settle (.finite least)) r

namespace BothPhases

variable {v : Value} {item attempt other : State}

/-- Both have as many values as there may be. -/
theorem full (all : most = .finite values.length) :
    BothPhases p separator least most values last (.empty last none)
      (.empty (last.succeed v) none) (last.succeed (.list values)) where
  first := Harvest.settle_held ..
  unended := .inl all
  second := if_pos all
  alike := by
    rw [Harvest.settle_held]
    exact .same

/-- There is no further value. The second phase fails to find one as the single pass did. -/
theorem refused (ignores : p.IgnoresValue) (clean : last.error = none)
    (room : most ≠ .finite values.length) (went : (p.run last).result = .ok attempt)
    (failed : attempt.failed = true) :
    ∃ r, BothPhases p separator least most values last (.empty last (some attempt))
      (.empty (last.succeed v) (some other)) r := by
  obtain ⟨u, tried, gaveUp, differs⟩ := ignores.fails (.list values) went failed
  rw [← last.succeed_of_clean clean] at tried
  refine ⟨_, ?_, .inr fun found same succeeded => ?_,
    Parser.oneMore_refused room tried gaveUp, ?_⟩
  · exact (Harvest.settle_held ..).trans (if_neg (Nat.not_lt_zero _))
  · obtain rfl := Except.ok.inj (tried.symm.trans same)
    exact absurd gaveUp (State.not_failed_of_clean succeeded)
  · rw [Harvest.settle_held]
    simp only [← Nat.not_le, ite_not]
    split
    · exact .same
    · exact differs

/-- There is a further value, but not its separator. The second phase finds that value again. -/
theorem final (ignores : p.IgnoresValue) (clean : last.error = none)
    (room : most ≠ .finite values.length) (went : (p.run last).result = .ok item)
    (succeeded : item.error = none) (ended : (separator.run item).result = .ok attempt)
    (failed : attempt.failed = true) :
    ∃ r, BothPhases p separator least most values last
      (.cons item.value (.empty item (some attempt)))
      (.empty (last.succeed v) (some attempt)) r := by
  have tried := ignores.succeeds (.list values) went succeeded
  rw [← last.succeed_of_clean clean] at tried
  have longer : ((Harvest.empty item (some attempt)).cons item.value).following values =
      (Harvest.empty item (some attempt)).following (values ++ [item.value]) := by
    simp [Harvest.cons, Harvest.following, Harvest.empty]
  refine ⟨_, ?_, .inr fun found same _ => ?_, Parser.oneMore_last room tried succeeded ended, ?_⟩
  · exact (Harvest.settle_held ..).trans (if_neg (Nat.not_lt_zero _))
  · obtain rfl := Except.ok.inj (tried.symm.trans same)
    exact ⟨attempt, ended, failed⟩
  · rw [longer, Harvest.settle_held, List.length_append, List.length_singleton]
    simp only [← Nat.not_le, ite_not]
    exact .same

end BothPhases

/-- How the single pass ends, and the first phase after as many rounds: both in a fault, or both so
that the second phase makes of the first one what the single pass has. -/
theorem exists_matching_end {found : Run Harvest} (ignores : p.IgnoresValue) (v : Value)
    (clean : last.error = none) (left : rest = most.after values.length)
    (fits : (Limit.finite values.length).atMost most = true)
    (ends : RoundsEnd .splitEnd (Parser.endedRoundOf p separator) rest last found) (least : Nat) :
    ∃ other, RoundsEnd .collect (Parser.roundOf (p.followedBy separator)) rest (last.succeed v)
        other ∧
      ((∃ fault, found.result = .error fault) ∧ (∃ fault, other.result = .error fault) ∨
        ∃ h k r, found.result = .ok h ∧ other.result = .ok k ∧
          BothPhases p separator least most values last h k r) := by
  have room : rest.exceeds 0 = true → most ≠ .finite values.length := by
    rintro more rfl
    rw [left, Limit.exceeds_after, Limit.exceeds_self] at more
    cases more
  have alike := Parser.matchingRounds ignores separator last v
  rw [← last.succeed_of_clean clean] at alike
  generalize again :
    (Parser.roundOf (p.followedBy separator) (last.succeed v)).result = result at alike
  have kind := p.endedRound separator last
  cases ends with
  | full =>
    have all : most = .finite values.length := Limit.eq_of_after fits left.symm
    exact ⟨_, .full, .inr ⟨_, _, _, rfl, rfl, .full all⟩⟩
  | @refused rest last attempt made more went =>
    rw [went] at alike kind
    cases alike
    cases kind with
    | refused ran failed =>
      obtain ⟨r, phases⟩ := BothPhases.refused ignores clean (room more) ran failed
      exact ⟨_, .refused more (Run.eq_of_result again), .inr ⟨_, _, r, rfl, rfl, phases⟩⟩
  | @final rest last item attempt w made more went =>
    rw [went] at alike kind
    cases alike
    cases kind with
    | last ran succeeded ended failed =>
      obtain ⟨r, phases⟩ :=
        BothPhases.final ignores clean (room more) ran succeeded ended failed
      exact ⟨_, .refused more (Run.eq_of_result again), .inr ⟨_, _, r, rfl, rfl, phases⟩⟩
  | @stalled last reached w made went idle =>
    rw [went] at alike
    cases alike
    exact ⟨_, .stalled (Run.eq_of_result again) idle, .inl ⟨⟨_, rfl⟩, _, rfl⟩⟩
  | @faulted rest last made fault more went =>
    rw [went] at alike
    cases alike
    exact ⟨_, .faulted more (Run.eq_of_result again), .inl ⟨⟨_, rfl⟩, _, rfl⟩⟩

/-- Values with a separator after each, of which the last may lack it, are read in a single pass as
they are in two phases. If the first phase is a fault then so is the single pass. Otherwise both
give a state, and it is the same one but that a failed state may hold another value. Where the first
phase ends no value with a separator after it begins, unless there are as many as there may be. -/
theorem splitEnd_two_phases (built : Built claimsEnd p) (separator : Parser) (least : Nat)
    (most : Limit) (ordered : (Limit.finite least).atMost most = true) (s : State)
    (clean : s.error = none) :
    let single := p.splitEnd separator ⟨.finite least, most, ordered⟩
    let first := (p.followedBy separator).collect ⟨.finite 0, most, most.zero_atMost⟩
    Checked.splitEnd (.parser p) (.parser separator) (.int least) most.asked = .ok single ∧
    Checked.followedBy (.parser p) [.parser separator] = .ok (p.followedBy separator) ∧
    Checked.collect (.parser (p.followedBy separator)) (.int 0) most.asked = .ok first ∧
    (∀ fault, (first.run s).result = .error fault →
      ∃ other, (single.run s).result = .error other) ∧
    ∀ t, (first.run s).result = .ok t → ∃ values r q, t.value = .list values ∧
      (most = .finite values.length ∨ p.Unended separator t) ∧
      p.oneMore separator least most values t = .ok r ∧ (single.run s).result = .ok q ∧
      SameButValue q r := by
  intro single first
  refine ⟨Checked.splitEnd_asked p separator ordered, rfl,
    Checked.collect_asked (p.followedBy separator) most.zero_atMost, ?_⟩
  have ignores := built.ignoresValue
  obtain ⟨values, notes, rest, last, found, rounds, ends⟩ :=
    exists_rounds .splitEnd (Parser.endedRoundOf p separator) most s
  obtain ⟨ended, others, v, again⟩ := exists_matching_rounds rounds ignores clean s.value
  have start : s.succeed s.value = s := State.succeed_of_clean _ clean s.value
  rw [start] at again
  obtain ⟨left, fits⟩ := rounds.limit
  obtain ⟨other, stops, outcome⟩ :=
    exists_matching_end ignores v ended left fits ends least
  have both : (single.run s).result =
      (found >>= fun h => pure ((h.following values).settle (.finite least))).result := by
    have whole : single.run s = _ :=
      Rounds.repeated ⟨.finite least, most, ordered⟩ rounds ends
    rw [whole]
    rfl
  have before : (first.run s).result =
      (other >>= fun k => pure ((k.following values).settle (.finite 0))).result := by
    have whole : first.run s = _ :=
      Rounds.repeated ⟨.finite 0, most, most.zero_atMost⟩ again stops
    rw [whole]
    rfl
  obtain ⟨⟨fault, stopped⟩, another, stoppedFirst⟩ | ⟨h, k, r, held, listed, phases⟩ := outcome
  · rw [Run.result_bind_error _ _ fault stopped] at both
    rw [Run.result_bind_error _ _ another stoppedFirst] at before
    exact ⟨fun _ _ => ⟨fault, both⟩, fun t given => nomatch before.symm.trans given⟩
  · rw [Run.result_bind_ok _ _ h held] at both
    rw [Run.result_bind_ok _ _ k listed, phases.first] at before
    refine ⟨fun fault given => (nomatch before.symm.trans given), fun t given => ?_⟩
    obtain rfl := Except.ok.inj (before.symm.trans given)
    exact ⟨values, r, _, rfl, phases.unended, phases.second, both, phases.alike⟩

/-- Two letters, of which only the first one has a comma after it. The first phase has one value,
and the second one adds the other. -/
theorem splitEnd_two_phases_letters :
    let letter := Parser.satisfying fun v => .ok (v.text? = some "a")
    let comma := Parser.satisfying fun v => .ok (v.text? = some ",")
    ∃ final : State,
      ((letter.splitEnd comma ⟨.finite 2, .finite 3, rfl⟩).run
        { value := .absent, input := .ofString "a,a" }).result = .ok final ∧
      final.value = .list [.text "a", .text "a"] ∧ final.offset = 3 ∧ final.error = none := by
  intro letter comma
  have built : Built False letter := .satisfying _ (.token 1)
  let s : State := { value := .absent, input := .ofString "a,a" }
  let t : State := { s with value := .list [.text "a"], offset := 2, position := ⟨1, 2, none⟩ }
  let u : State :=
    { s with value := .list [.text "a", .text "a"], offset := 3, position := ⟨1, 3, none⟩ }
  have second : letter.oneMore comma 2 (.finite 3) [.text "a"] t = .ok u := rfl
  obtain ⟨values, r, q, listed, _, more, single, alike⟩ :=
    (splitEnd_two_phases built comma 2 (.finite 3) rfl s rfl).2.2.2.2 t rfl
  obtain rfl : [.text "a"] = values := Value.list.inj listed
  obtain rfl := Except.ok.inj (second.symm.trans more)
  have same : u = q := alike.eq_of_clean (alike.error.symm.trans rfl)
  exact ⟨q, single, same ▸ ⟨rfl, rfl, rfl⟩⟩

end Descent
