import Descent.Proofs.Leads

/-!
# What a run of a built parser leaves

Every built parser leads from the state it is started on to the state it leaves. Each constructor
is one case. A repetition is the relation of its rounds, carried along a row of them; a rule that
refers to itself needs nothing of its own, because the class of built parsers has done its
induction already.

The two main statements read the relation off: `run_keeps_position` for offsets and positions,
and `failure_within` for the place of a failure and what it says about the end.
-/

namespace Descent

variable {claimsEnd : Prop} {s reached middle last : State}

/-! ## Repetition -/

/-- What follows a round: nothing more, or whatever goes on after a complete one. -/
def Round.proceed (s : State) (go : Value → State → Run Harvest) : Round → Run Harvest
  | .refused attempt => pure (.empty s (some attempt))
  | .last v reached attempt => pure (.cons v (.empty reached (some attempt)))
  | .complete v reached => go v reached

/-- All the rounds that a limit allows. -/
def Parser.harvest (site : Site) (round : State → Run Round) : Limit → State → Run Harvest
  | .finite most => Parser.roundsUpTo round most
  | .unbounded => Parser.roundsOn site round

/-- One round and then one fewer. -/
theorem Parser.roundsUpTo_succ (round : State → Run Round) (left : Nat) (s : State) :
    Parser.roundsUpTo round (left + 1) s =
      round s >>= Round.proceed s fun v reached =>
        return .cons v (← Parser.roundsUpTo round left reached) := by
  rw [Parser.roundsUpTo]
  congr

/-- One round and then more of them, if it consumed something. -/
theorem Parser.roundsOn_eq (site : Site) (round : State → Run Round) (s : State) :
    Parser.roundsOn site round s =
      round s >>= Round.proceed s fun v reached =>
        if reached.unread < s.unread then return .cons v (← Parser.roundsOn site round reached)
        else Run.raise (.contract (.stalled site)) := by
  rw [Parser.roundsOn]
  congr

/-- A repetition makes its rounds and then settles on a state. -/
theorem Parser.repeated_eq (site : Site) (round : State → Run Round) (bounds : Bounds)
    (s : State) :
    Parser.repeated site round bounds s =
      Parser.harvest site round bounds.most s >>= fun harvest =>
        pure (harvest.settle bounds.least) := by
  unfold Parser.repeated
  cases bounds.most <;> rfl

/-- What one round from a state may leave. -/
inductive RoundLeads (claimsEnd : Prop) (s : State) : Round → Prop where
  | refused (attempt : State) (fails : Leads claimsEnd s attempt) :
      RoundLeads claimsEnd s (.refused attempt)
  | last (v : Value) (reached attempt : State) (leads : Leads claimsEnd s reached)
      (succeeded : reached.error = none) (fails : Leads claimsEnd s attempt) :
      RoundLeads claimsEnd s (.last v reached attempt)
  | complete (v : Value) (reached : State) (leads : Leads claimsEnd s reached)
      (succeeded : reached.error = none) : RoundLeads claimsEnd s (.complete v reached)

/-- What a row of rounds from a state may find. -/
structure HarvestLeads (claimsEnd : Prop) (s : State) (harvest : Harvest) : Prop where
  leads : Leads claimsEnd s harvest.reached
  succeeded : harvest.reached.error = none
  refusal : ∀ attempt, harvest.refusal = some attempt → Leads claimsEnd s attempt

namespace HarvestLeads

variable {harvest : Harvest}

/-- No round at all. -/
theorem nothing (ready : s.Ready) : HarvestLeads claimsEnd s (Harvest.empty s none) where
  leads := Leads.refl ready
  succeeded := ready.clean
  refusal attempt found := by simp [Harvest.empty] at found

/-- A round before a row of rounds. -/
theorem cons (ready : s.Ready) (v : Value) (leads : Leads claimsEnd s middle)
    (succeeded : middle.error = none) (rest : HarvestLeads claimsEnd middle harvest) :
    HarvestLeads claimsEnd s (harvest.cons v) where
  leads := leads.trans ready succeeded rest.leads
  succeeded := rest.succeeded
  refusal attempt found := leads.trans ready succeeded (rest.refusal attempt found)

/-- A repetition ends in the last success or in the failed attempt, and both come from its start. -/
theorem settle (least : Limit) (found : HarvestLeads claimsEnd s harvest) :
    Leads claimsEnd s (harvest.settle least) := by
  have success : Leads claimsEnd s (harvest.reached.succeed (.list harvest.values)) :=
    found.leads.succeed found.succeeded _
  unfold Harvest.settle
  cases refused : harvest.refusal with
  | none => exact success
  | some attempt =>
    dsimp only
    by_cases few : least.exceeds harvest.values.length = true
    · rw [if_pos few]
      exact found.refusal attempt refused
    · rw [if_neg few]
      exact success

end HarvestLeads

/-- A row that ends with a round or goes on after it. -/
theorem RoundLeads.ensures (ready : s.Ready) {went : Round}
    (leadsRound : RoundLeads claimsEnd s went) (go : Value → State → Run Harvest)
    (next : ∀ v reached, Leads claimsEnd s reached → reached.error = none →
      (go v reached).Ensures (HarvestLeads claimsEnd s)) :
    (went.proceed s go).Ensures (HarvestLeads claimsEnd s) := by
  cases leadsRound with
  | refused attempt fails =>
    refine Run.ensures_pure _ _ ⟨Leads.refl ready, ready.clean, fun found same => ?_⟩
    exact Option.some.inj same ▸ fails
  | last v reached attempt leads succeeded fails =>
    refine Run.ensures_pure _ _ ⟨leads, succeeded, fun found same => ?_⟩
    exact Option.some.inj same ▸ fails
  | complete v reached leads succeeded => exact next v reached leads succeeded

variable {round : State → Run Round}

/-- At most a given number of rounds, by induction on the number. -/
theorem HarvestLeads.roundsUpTo
    (rounds : ∀ s : State, s.Ready → (round s).Ensures (RoundLeads claimsEnd s)) (most : Nat)
    (ready : s.Ready) :
    (Parser.roundsUpTo round most s).Ensures (HarvestLeads claimsEnd s) := by
  induction most generalizing s with
  | zero => exact Run.ensures_pure _ _ (HarvestLeads.nothing ready)
  | succ most inductionHypothesis =>
    rw [Parser.roundsUpTo_succ]
    refine Run.ensures_bind _ _ _ _ (rounds s ready) ?_
    intro went leadsRound
    refine leadsRound.ensures ready _ ?_
    intro v reached leads succeeded
    refine Run.ensures_bind _ _ _ _ (inductionHypothesis (leads.ready ready succeeded)) ?_
    intro harvest found
    exact Run.ensures_pure _ _ (HarvestLeads.cons ready v leads succeeded found)

/-- Any number of rounds, by induction on what is unread: every round but the last leaves less. -/
theorem HarvestLeads.roundsOn (site : Site)
    (rounds : ∀ s : State, s.Ready → (round s).Ensures (RoundLeads claimsEnd s))
    (ready : s.Ready) : (Parser.roundsOn site round s).Ensures (HarvestLeads claimsEnd s) := by
  induction size : s.unread using Nat.strongRecOn generalizing s with
  | ind unread inductionHypothesis =>
    rw [Parser.roundsOn_eq]
    refine Run.ensures_bind _ _ _ _ (rounds s ready) ?_
    intro went leadsRound
    refine leadsRound.ensures ready _ ?_
    intro v reached leads succeeded
    by_cases less : reached.unread < s.unread
    · rw [if_pos less]
      refine Run.ensures_bind _ _ _ _
        (inductionHypothesis reached.unread (size ▸ less) (leads.ready ready succeeded) rfl) ?_
      intro harvest found
      exact Run.ensures_pure _ _ (HarvestLeads.cons ready v leads succeeded found)
    · rw [if_neg less]
      exact Run.ensures_raise _ _

/-- A repetition within any bounds. -/
theorem Leads.repeated (site : Site) (bounds : Bounds)
    (rounds : ∀ s : State, s.Ready → (round s).Ensures (RoundLeads claimsEnd s))
    (ready : s.Ready) :
    (Parser.repeated site round bounds s).Ensures (Leads claimsEnd s) := by
  have harvested : (Parser.harvest site round bounds.most s).Ensures
      (HarvestLeads claimsEnd s) := by
    cases bounds.most with
    | finite most => exact HarvestLeads.roundsUpTo rounds most ready
    | unbounded => exact HarvestLeads.roundsOn site rounds ready
  rw [Parser.repeated_eq]
  refine Run.ensures_bind _ _ _ _ harvested ?_
  intro harvest found
  exact Run.ensures_pure _ _ (HarvestLeads.settle bounds.least found)

/-- The round of a plain repetition. -/
theorem RoundLeads.roundOf {p : Parser}
    (leads : ∀ s : State, s.Ready → (p.run s).Ensures (Leads claimsEnd s)) (ready : s.Ready) :
    (Parser.roundOf p s).Ensures (RoundLeads claimsEnd s) := by
  refine Run.ensures_bind _ _ _ _ (leads s ready) ?_
  intro reached leadsReached
  refine Run.ensures_pure _ _ ?_
  by_cases failed : reached.failed = true
  · rw [if_pos failed]
    exact .refused reached leadsReached
  · rw [if_neg failed]
    exact .complete reached.value reached leadsReached (reached.error_of_not_failed failed)

/-- The round of a repetition of values with a separator after each. -/
theorem RoundLeads.endedRoundOf {p separator : Parser}
    (leads : ∀ s : State, s.Ready → (p.run s).Ensures (Leads claimsEnd s))
    (ends : ∀ s : State, s.Ready → (separator.run s).Ensures (Leads claimsEnd s))
    (ready : s.Ready) :
    (Parser.endedRoundOf p separator s).Ensures (RoundLeads claimsEnd s) := by
  refine Run.ensures_bind _ _ _ _ (leads s ready) ?_
  intro item leadsItem
  by_cases failed : item.failed = true
  · rw [if_pos failed]
    exact Run.ensures_pure _ _ (.refused item leadsItem)
  · rw [if_neg failed]
    have succeeded : item.error = none := item.error_of_not_failed failed
    refine Run.ensures_bind _ _ _ _ (ends item (leadsItem.ready ready succeeded)) ?_
    intro ended leadsEnded
    have leadsOn : Leads claimsEnd s ended := leadsItem.trans ready succeeded leadsEnded
    refine Run.ensures_pure _ _ ?_
    by_cases missing : ended.failed = true
    · rw [if_pos missing]
      exact .last item.value item ended leadsItem succeeded leadsOn
    · rw [if_neg missing]
      exact .complete item.value ended leadsOn (ended.error_of_not_failed missing)

/-! ## All built parsers -/

/-- Whatever a built parser leaves, it leads there from where it was started. One case for each
constructor; the parts of a parser are always started on states that have not failed. -/
theorem Built.leads {p : Parser} (built : Built claimsEnd p) (s : State) (ready : s.Ready) :
    (p.run s).Ensures (Leads claimsEnd s) := by
  induction built generalizing s with
  | renamed built sameRun inductionHypothesis =>
    rw [sameRun]
    exact inductionHypothesis s ready
  | succeed v => exact Run.ensures_pure _ _ ((Leads.refl ready).succeed ready.clean v)
  | raising fault => exact Run.ensures_raise _ _
  | failing message kind admitted => exact Leads.failing ready message kind admitted
  | token count => exact Leads.token ready count
  | atEnd => exact Leads.atEnd ready
  | bind first second ofFirst ofSecond =>
    refine Run.ensures_bind _ _ _ _ (ofFirst s ready) ?_
    intro reached leads
    by_cases failed : reached.failed = true
    · rw [if_pos failed]
      exact Run.ensures_pure _ _ leads
    · rw [if_neg failed]
      have succeeded : reached.error = none := reached.error_of_not_failed failed
      intro last ran
      exact leads.trans ready succeeded
        (ofSecond reached.value reached (leads.ready ready succeeded) last ran)
  | label expected built ofParser =>
    refine Run.ensures_bind _ _ _ _ (ofParser s ready) ?_
    intro reached leads
    refine Run.ensures_pure _ _ { leads with inside := ?_, situated := ?_ }
    · intro succeeded
      exact leads.inside (Option.map_eq_none_iff.mp succeeded)
    · intro e relabelled
      obtain ⟨f, failed, rfl⟩ := Option.map_eq_some_iff.mp relabelled
      exact (leads.situated f failed).withMessages _ _
  | lookAhead built ofParser =>
    refine Run.ensures_bind _ _ _ _ (ofParser s ready) ?_
    intro reached leads
    have start : Leads claimsEnd s s := Leads.refl ready
    refine Run.ensures_pure _ _
      ⟨leads.input, leads.userState, start.forward, start.position, fun _ => ?_, leads.situated⟩
    rw [leads.input]
    exact ready.inside
  | traced tag level built ofParser =>
    refine Run.ensures_bind _ _ _ _ (ofParser s ready) ?_
    intro reached leads
    exact Run.ensures_note _ _ _ (Run.ensures_pure _ _ leads)
  | noted n built ofParser => exact Run.ensures_note _ _ _ (ofParser s ready)
  | choice all ofAll =>
    exact Leads.attempt ready none nofun _ _ fun q member => ofAll q member s ready
  | refusing built ofParser =>
    refine Run.ensures_bind _ _ (Leads claimsEnd s) _ (ofParser s ready) ?_
    intro reached _
    by_cases failed : reached.failed = true
    · rw [if_pos failed]
      exact Run.ensures_pure _ _ ((Leads.refl ready).succeed ready.clean _)
    · rw [if_neg failed]
      exact Leads.failing ready _ _ nofun
  | collect bounds built ofParser =>
    exact Leads.repeated _ bounds (fun s ready => RoundLeads.roundOf ofParser ready) ready
  | splitEnd bounds built ended ofParser ofSeparator =>
    exact Leads.repeated _ bounds
      (fun s ready => RoundLeads.endedRoundOf ofParser ofSeparator ready) ready
  | byUnread made ofMade => exact ofMade s.unread s ready

/-- A run of a built parser that ends keeps the input and the user state and never goes back. A
success stays inside the input, and its position is the start passed over what was consumed. The
position of a failure is the same, and one column more exactly when the run went past the end. -/
theorem run_keeps_position {p : Parser} (built : Built claimsEnd p) (s reached : State)
    (ready : s.Ready) (ran : (p.run s).result = .ok reached) :
    reached.input = s.input ∧ reached.userState = s.userState ∧ s.offset ≤ reached.offset ∧
      (reached.error = none → reached.offset ≤ s.input.size ∧
        reached.position = s.position.over (s.input.slice s.offset reached.offset)) ∧
      (reached.error ≠ none → reached.position =
        if s.input.size < reached.offset then
          (s.position.over (s.input.slice s.offset reached.offset)).nextColumn
        else s.position.over (s.input.slice s.offset reached.offset)) := by
  have leads : Leads claimsEnd s reached := built.leads s ready reached ran
  have position := State.place_offset s ready reached.offset leads.forward
  rw [← State.passed, ← leads.position] at position
  refine ⟨leads.input, leads.userState, leads.forward, fun succeeded => ?_, fun _ => position⟩
  have inside : reached.offset ≤ s.input.size := leads.input ▸ leads.inside succeeded
  rw [if_neg (Int.not_lt.mpr inside)] at position
  exact ⟨inside, position⟩

/-- An item and then three more, of which there are only two: the failure is on the second line,
one column past the end. -/
theorem run_keeps_position_past_end :
    ∃ reached : State,
      (((Parser.token 1).followedBy (Parser.token 3)).run
        { value := .absent, input := .ofString "a\nb" }).result = .ok reached ∧
      reached.error ≠ none ∧ reached.offset = 4 ∧ reached.position = ⟨2, 2, none⟩ := by
  have built : Built False ((Parser.token 1).followedBy (Parser.token 3)) :=
    Built.endedBy (Built.token 1) (Built.token 3)
  have ready : State.Ready { value := .absent, input := .ofString "a\nb" } :=
    ⟨rfl, by decide, by decide⟩
  refine ⟨_, rfl, nofun, rfl, ?_⟩
  rw [(run_keeps_position built _ _ ready rfl).2.2.2.2 nofun]
  decide

/-- A failure of a built parser that makes no claims about the end says something, lies between
the start and one column past the end, in the same source, and blames the end of the input
exactly when that is where it lies. -/
theorem failure_within {p : Parser} (built : Built False p) (s reached : State)
    (ready : s.Ready) (ran : (p.run s).result = .ok reached) (e : Failure)
    (failed : reached.error = some e) :
    e.messages ≠ [] ∧ s.position.order e.position ≠ .gt ∧
      e.position.order (s.position.over s.remaining).nextColumn ≠ .gt ∧
      e.position.name = s.position.name ∧
      (e.wasEof = true ↔
        e.position.samePlace (s.position.over s.remaining).nextColumn = true) := by
  have leads : Leads False s reached := built.leads s ready reached ran
  obtain ⟨worded, count, inside, position, ended⟩ := leads.situated e failed
  have past : (s.position.over s.remaining).nextColumn = s.place (s.unread + 1) :=
    (State.place_beyond s ready.start _ (Nat.lt_succ_self _)).symm
  have first : s.position.order e.position = compare 0 count := by
    rw [position, ← State.order_place s ready.start 0 count (Nat.zero_le _) inside,
      State.place_zero]
  have second : e.position.order (s.place (s.unread + 1)) = compare count (s.unread + 1) := by
    rw [position, State.order_place s ready.start count _ inside (Nat.le_refl _)]
  rw [past, first, second, ← Position.order_eq_iff, second, ended not_false]
  refine ⟨worded, ?_, ?_, position ▸ State.place_name s count, ?_⟩
  · rw [ne_eq, Nat.compare_eq_gt]
    omega
  · rw [ne_eq, Nat.compare_eq_gt]
    omega
  · rw [Nat.compare_eq_eq]
    omega

/-- Three items where there are two, or the end: the attempt that ran out of input lies furthest,
and its flag survives the merging. -/
theorem failure_within_choice :
    ∃ (reached : State) (e : Failure),
      ((Parser.choice (Parser.token 3) [Parser.atEnd]).run
        { value := .absent, input := .ofString "a\n" }).result = .ok reached ∧
      reached.error = some e ∧ e.messages = ["unexpected eof"] ∧ e.wasEof = true := by
  have built : Built False (Parser.choice (Parser.token 3) [Parser.atEnd]) :=
    Built.either (Built.token 3) Built.atEnd
  have ready : State.Ready { value := .absent, input := .ofString "a\n" } :=
    ⟨rfl, by decide, by decide⟩
  refine ⟨_, _, rfl, rfl, rfl, ?_⟩
  have blamed := (failure_within built _ _ ready rfl _ rfl).2.2.2.2
  rw [blamed]
  decide

end Descent
