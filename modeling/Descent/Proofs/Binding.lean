import Descent.Proofs.Locality

/-!
# The laws of binding

Binding is a monad on runs of parsers, with one reservation: a parser that is run behind a value
starts from a state that holds this value, and if it fails then it may leave it there. Nothing else
depends on it. This is not a matter of binding but of all constructors: none of them hands the
value of its first state to anything. Once a part has succeeded, the state it leaves is the same
whatever the value was, so that only the first part of a parser, the alternatives of a choice and
the first round of a repetition have to be looked at.

All this is so on any state, wherever its offset lies.
-/

namespace Descent

variable {claimsEnd : Prop} {s : State} {p : Parser} {v : Value}

/-- A run and itself correspond. -/
theorem Run.corresponds_self {α : Type} {related : α → α → Prop} (same : ∀ a, related a a)
    (run : Run α) : Run.Corresponds related run run := by
  cases ended : run.result with
  | error fault => exact .faulted fault ended ended
  | ok a => exact .ended a a ended ended (same a)

/-- Two states are the same, or they have failed and hold different values at most. -/
inductive SameButValue (r : State) : State → Prop where
  | same : SameButValue r r
  | failed (e : Failure) (v : Value) (found : r.error = some e) :
      SameButValue r { r with value := v }

/-- A parser does not depend on the value of the state it is run on. -/
def Parser.IgnoresValue (p : Parser) : Prop :=
  ∀ (s : State) (v : Value),
    Run.Corresponds SameButValue (p.run s) (p.run { s with value := v })

/-! ## Primitive parsers -/

namespace Parser

theorem ignoresValue_failing (message : String) (kind : FailureKind) :
    (failing message kind).IgnoresValue := by
  intro s v
  obtain ⟨e, merged⟩ := Failure.exists_merge?_some s.error
    ⟨s.position, [message], kind, kind == .eof⟩
  exact Run.corresponds_pure _ _ _ (.failed e v merged)

/-- The items that are consumed take the place of the value. -/
theorem ignoresValue_token (count : Nat) : (token count).IgnoresValue := by
  intro s v
  unfold token
  dsimp only
  split
  · exact ignoresValue_failing "unexpected eof" .eof _ v
  · exact Run.corresponds_pure _ _ _ .same

theorem ignoresValue_atEnd : atEnd.IgnoresValue := by
  intro s v
  unfold atEnd
  dsimp only
  split
  · exact Run.corresponds_pure _ _ _ .same
  · exact ignoresValue_failing "expected end of input" .expectation s v

end Parser

/-! ## First parts -/

namespace SameButValue

variable {r q : State}

theorem error (together : SameButValue r q) : q.error = r.error := by
  cases together <;> rfl

/-- Where there is no failure they are the same. -/
theorem eq_of_clean (together : SameButValue r q) (clean : r.error = none) : q = r := by
  cases together with
  | same => rfl
  | failed e v found => cases found.symm.trans clean

/-- Other failures in the places of both leave the states as alike as they were. -/
theorem withError (together : SameButValue r q) (e : Failure) :
    SameButValue { r with error := some e } { q with error := some e } := by
  cases together with
  | same => exact .same
  | failed f v found => exact .failed e v rfl

/-- What goes on after a success goes on from one state, and after a failure both runs stop. -/
theorem corresponds {α : Type} {related : α → α → Prop} (together : SameButValue r q)
    (stop other go : State → Run α) (same : ∀ a, related a a)
    (stopped : ∀ e, r.error = some e → q.error = some e →
      Run.Corresponds related (stop r) (other q)) :
    Run.Corresponds related (if r.failed then stop r else go r)
      (if q.failed then other q else go q) := by
  by_cases failed : r.failed = true
  · obtain ⟨e, found⟩ := r.error_of_failed failed
    have otherFound : q.error = some e := together.error.trans found
    rw [if_pos failed, if_pos (State.failed_of_error otherFound)]
    exact stopped e found otherFound
  · cases together with
    | same =>
      rw [if_neg failed, if_neg failed]
      exact Run.corresponds_self same _
    | failed e v found => exact absurd (State.failed_of_error found) failed

end SameButValue

namespace Parser.IgnoresValue

/-- A parser that ignores the value gives the same success behind any value. -/
theorem succeeds {item : State} (ignores : p.IgnoresValue) (w : Value)
    (went : (p.run s).result = .ok item) (succeeded : item.error = none) :
    (p.run { s with value := w }).result = .ok item := by
  cases ignores s w with
  | faulted fault left right => cases left.symm.trans went
  | ended a b left right together =>
    obtain rfl := Except.ok.inj (left.symm.trans went)
    exact right.trans (congrArg Except.ok (together.eq_of_clean succeeded))

/-- It fails in the same way but for the value of the failed state. -/
theorem fails {attempt : State} (ignores : p.IgnoresValue) (w : Value)
    (went : (p.run s).result = .ok attempt) (failed : attempt.failed = true) :
    ∃ other, (p.run { s with value := w }).result = .ok other ∧ other.failed = true ∧
      SameButValue attempt other := by
  cases ignores s w with
  | faulted fault left right => cases left.symm.trans went
  | ended a b left right together =>
    obtain rfl := Except.ok.inj (left.symm.trans went)
    exact ⟨b, right, (congrArg Option.isSome together.error).trans failed, together⟩

/-- It stops with the same fault. -/
theorem faults {fault : Fault} (ignores : p.IgnoresValue) (w : Value)
    (went : (p.run s).result = .error fault) :
    (p.run { s with value := w }).result = .error fault := by
  cases ignores s w with
  | faulted other left right => exact right.trans (left.symm.trans went)
  | ended a b left right together => cases left.symm.trans went

/-- Only the first of two parsers sees the value, and if it succeeds then it has put another one
in its place. -/
theorem bind {next : Value → Parser} (first : p.IgnoresValue) : (p.bind next).IgnoresValue := by
  intro s v
  apply Run.corresponds_bind _ _ _ _ _ _ (first s v)
  intro r q together
  exact together.corresponds pure pure (fun reached => (next reached.value).run reached)
    (fun _ => .same) fun _ _ _ => Run.corresponds_pure _ _ _ together

/-- Every alternative starts from the same state. -/
theorem attempt (s : State) (v : Value) (earlier : Option Failure) (p : Parser)
    (more : List Parser) (all : ∀ q ∈ p :: more, q.IgnoresValue) :
    Run.Corresponds SameButValue (Parser.attempt s earlier p more)
      (Parser.attempt { s with value := v } earlier p more) := by
  induction more generalizing earlier p with
  | nil =>
    let merged (reached : State) : Run State :=
      pure { reached with error := Failure.merge? earlier reached.error }
    rw [attempt_nil, attempt_nil]
    apply Run.corresponds_bind _ _ _ _ _ _ (all p List.mem_cons_self s v)
    intro r q together
    refine together.corresponds merged merged pure (fun _ => .same) fun e found otherFound => ?_
    obtain ⟨f, standing⟩ := Failure.exists_merge?_some earlier e
    simp only [merged, found, otherFound, standing]
    exact Run.corresponds_pure _ _ _ (together.withError f)
  | cons next later inductionHypothesis =>
    let rest (s reached : State) : Run State :=
      Parser.attempt s (Failure.merge? earlier reached.error) next later
    rw [attempt_cons, attempt_cons]
    apply Run.corresponds_bind _ _ _ _ _ _ (all p List.mem_cons_self s v)
    intro r q together
    refine together.corresponds (rest s) (rest { s with value := v }) pure (fun _ => .same)
      fun e found otherFound => ?_
    simp only [rest, found, otherFound]
    exact inductionHypothesis _ next fun part member => all part (List.mem_cons_of_mem p member)

end Parser.IgnoresValue

/-! ## Repetition -/

/-- Two rounds that went the same way, except that a failed attempt may hold another value. -/
inductive SameRound : Round → Round → Prop where
  | same (went : Round) : SameRound went went
  | refused (a b : State) (fails : SameButValue a b) : SameRound (.refused a) (.refused b)

/-- Two rows of rounds settle alike, whatever the least number of values. -/
def SameHarvest (h k : Harvest) : Prop :=
  ∀ least, SameButValue (h.settle least) (k.settle least)

/-- A row without rounds gives up its own state for a list, or ends in the failed attempt. -/
theorem SameHarvest.empty (s : State) (v : Value) {a b : State} (fails : SameButValue a b) :
    SameHarvest (.empty s (some a)) (.empty { s with value := v } (some b)) := by
  intro least
  unfold Harvest.settle Harvest.empty
  dsimp only
  split
  · exact fails
  · exact .same

theorem SameHarvest.refl (h : Harvest) : SameHarvest h h := fun _ => .same

/-- After the first round all rounds start from the same states. -/
theorem SameRound.proceed {went other : Round} (together : SameRound went other) (s : State)
    (v : Value) (go : Value → State → Run Harvest) :
    Run.Corresponds SameHarvest (went.proceed s go)
      (other.proceed { s with value := v } go) := by
  cases together with
  | same =>
    cases went with
    | refused attempt => exact Run.corresponds_pure _ _ _ (.empty s v .same)
    | last w reached attempt => exact Run.corresponds_pure _ _ _ (.refl _)
    | complete w reached => exact Run.corresponds_self .refl _
  | refused a b fails => exact Run.corresponds_pure _ _ _ (.empty s v fails)

namespace Parser.IgnoresValue

variable {round : State → Run Round} {separator : Parser}

/-- A repetition, if its rounds do not depend on the value. -/
theorem repeated (site : Site) (bounds : Bounds) (s : State) (v : Value)
    (rounds : Run.Corresponds SameRound (round s) (round { s with value := v })) :
    Run.Corresponds SameButValue (Parser.repeated site round bounds s)
      (Parser.repeated site round bounds { s with value := v }) := by
  have harvested : Run.Corresponds SameHarvest (harvest site round bounds.most s)
      (harvest site round bounds.most { s with value := v }) := by
    cases bounds.most with
    | finite most =>
      cases most with
      | zero => exact Run.corresponds_pure _ _ _ fun _ => .same
      | succ most =>
        simp only [harvest, roundsUpTo_succ]
        apply Run.corresponds_bind _ _ _ _ _ _ rounds
        intro went other together
        exact together.proceed s v _
    | unbounded =>
      simp only [harvest]
      rw [roundsOn_eq, roundsOn_eq]
      apply Run.corresponds_bind _ _ _ _ _ _ rounds
      intro went other together
      exact together.proceed s v _
  rw [repeated_eq, repeated_eq]
  apply Run.corresponds_bind _ _ _ _ _ _ harvested
  intro h k together
  exact Run.corresponds_pure _ _ _ (together _)

theorem collect (bounds : Bounds) (first : p.IgnoresValue) :
    (p.collect bounds).IgnoresValue := by
  intro s v
  apply repeated
  apply Run.corresponds_bind _ _ _ _ _ _ (first s v)
  intro r q together
  refine Run.corresponds_pure _ _ _ ?_
  cases together with
  | same => exact .same _
  | failed e w found =>
    have stillFailed : ({ r with value := w } : State).failed = true :=
      State.failed_of_error found
    rw [if_pos (State.failed_of_error found), if_pos stillFailed]
    exact .refused r _ (.failed e w found)

theorem splitEnd (bounds : Bounds) (first : p.IgnoresValue) :
    (p.splitEnd separator bounds).IgnoresValue := by
  intro s v
  apply repeated
  apply Run.corresponds_bind _ _ _ _ _ _ (first s v)
  intro r q together
  let refused (item : State) : Run Round := pure (.refused item)
  exact together.corresponds refused refused
    (fun item => do
      let ended ← separator.run item
      return if ended.failed then .last item.value item ended else .complete item.value ended)
    .same fun _ _ _ => Run.corresponds_pure _ _ _ (.refused r q together)

end Parser.IgnoresValue

/-! ## All built parsers -/

/-- No constructor makes a parser that depends on the value of its first state. -/
theorem Built.ignoresValue (built : Built claimsEnd p) : p.IgnoresValue := by
  induction built with
  | renamed built sameRun inductionHypothesis =>
    intro s v
    rw [sameRun]
    exact inductionHypothesis s v
  | succeed w => exact fun s v => Run.corresponds_pure _ _ _ .same
  | raising fault => exact fun s v => Run.corresponds_raise _ fault
  | failing message kind admitted => exact Parser.ignoresValue_failing message kind
  | token count => exact Parser.ignoresValue_token count
  | atEnd => exact Parser.ignoresValue_atEnd
  | bind first second ofFirst ofSecond => exact ofFirst.bind
  | label expected built ofParser =>
    intro s v
    apply Run.corresponds_bind _ _ _ _ _ _ (ofParser s v)
    intro r q together
    refine Run.corresponds_pure _ _ _ ?_
    cases together with
    | same => exact .same
    | failed e w found => exact .failed _ w (by rw [found]; rfl)
  | lookAhead built ofParser =>
    intro s v
    apply Run.corresponds_bind _ _ _ _ _ _ (ofParser s v)
    intro r q together
    refine Run.corresponds_pure _ _ _ ?_
    cases together with
    | same => exact .same
    | failed e w found => exact .failed e w found
  | traced tag level built ofParser =>
    intro s v
    apply Run.corresponds_bind _ _ _ _ _ _ (ofParser s v)
    intro r q together
    exact Run.corresponds_note _ _ _ _ _ (Run.corresponds_pure _ _ _ together)
  | noted n built ofParser =>
    exact fun s v => Run.corresponds_note _ _ _ _ _ (ofParser s v)
  | choice all ofAll => exact fun s v => Parser.IgnoresValue.attempt s v none _ _ ofAll
  | refusing built ofParser =>
    intro s v
    apply Run.corresponds_bind _ _ _ _ _ _ (ofParser s v)
    intro r q together
    have alike : q.failed = r.failed := congrArg Option.isSome together.error
    rw [alike]
    split
    · exact Run.corresponds_pure _ _ _ .same
    · exact Parser.ignoresValue_failing "expected parser to fail" .expectation s v
  | collect bounds built ofParser => exact ofParser.collect bounds
  | splitEnd bounds built ended ofParser ofSeparator => exact ofParser.splitEnd bounds
  | byUnread made ofMade => exact fun s v => ofMade s.unread s v

/-! ## The laws -/

/-- Binding is associative, whatever the parsers are. -/
theorem Parser.bind_bind (p : Parser) (next later : Value → Parser) (s : State) :
    ((p.bind next).bind later).run s = (p.bind fun v => (next v).bind later).run s :=
  Run.ifSucceeded_assoc (p.run s) (fun reached => (next reached.value).run reached) fun last =>
    (later last.value).run last

/-- To end with the value that is there changes nothing. -/
theorem Parser.bind_succeed (p : Parser) (s : State) :
    (p.bind fun v => succeed v).run s = p.run s := by
  have same : (fun reached : State =>
      if reached.failed then (pure reached : Run State)
      else (succeed reached.value).run reached) = pure := by
    funext reached
    split
    · rfl
    · have clean : reached.error = none := reached.error_of_not_failed ‹_›
      simp only [succeed, State.succeed]
      rw [← clean]
  have opened : (p.bind fun v => succeed v).run s = p.run s >>= fun reached =>
      if reached.failed then pure reached else (succeed reached.value).run reached := rfl
  rw [opened, same, bind_pure]

/-- The laws of binding on whole states. Binding is associative, and ending with the value that is
there is its identity on the right: the runs are equal, with all that is in their states. A value
in front of a built parser changes nothing either, but for the value of a failed state. -/
theorem binding_lawful (m : Parser) (f g : Value → Parser)
    (built : ∀ v, Built claimsEnd (f v)) (s : State) (clean : s.error = none) :
    ((m.bind f).bind g).run s = (m.bind fun v => (f v).bind g).run s ∧
    (m.bind fun v => .succeed v).run s = m.run s ∧
    ∀ v, Run.Corresponds SameButValue ((f v).run s) (((Parser.succeed v).bind f).run s) := by
  refine ⟨m.bind_bind f g s, m.bind_succeed s, fun v => ?_⟩
  have started : ((Parser.succeed v).bind f).run s = (f v).run { s with value := v } := by
    have bound : ((Parser.succeed v).bind f).run s = (f v).run (s.succeed v) :=
      pure_bind (s.succeed v) _
    rw [bound, State.succeed, ← clean]
  rw [started]
  exact (built v).ignoresValue s v

/-- Three items where two are left: with a value in front the failure is the same one, and the
state that it is left in still holds that value. -/
theorem binding_lawful_past_end :
    ∃ r q : State,
      ((Parser.token 3).run { value := .absent, input := .ofString "a\n" }).result = .ok r ∧
      (((Parser.succeed (.int 7)).bind fun _ => .token 3).run
        { value := .absent, input := .ofString "a\n" }).result = .ok q ∧
      q.error = r.error ∧ q.error ≠ none ∧ r.value = .absent ∧ q.value = .int 7 := by
  have laws := (binding_lawful .atEnd (fun _ => .token 3) (fun v => .succeed v)
    (fun _ => (Built.token 3 : Built False (.token 3)))
    { value := .absent, input := .ofString "a\n" }
    rfl).2.2 (.int 7)
  cases laws with
  | faulted fault left _ => cases left
  | ended r q left right together =>
    refine ⟨r, q, left, right, together.error, ?_⟩
    obtain rfl := Except.ok.inj left
    obtain rfl := Except.ok.inj right
    exact ⟨nofun, rfl, rfl⟩

end Descent
