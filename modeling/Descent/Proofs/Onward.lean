import Descent.Proofs.Rounds

/-!
# No parser goes back

A run of a built parser keeps the input and the user state and never goes back, and no success lies
past the end of the input unless the run was started there, in which case it stays. That is so on
every state: after an earlier failure, with an offset past the end, and with one that counts from
the end.
-/

namespace Descent

variable {claimsEnd : Prop} {p : Parser} {s middle reached last : State} {values : List Value}
  {notes : List Note}

/-- A run has kept the input and the user state and has not gone back, and a success lies neither
past the end nor past where the run was started, if that is further. -/
structure Onward (s reached : State) : Prop where
  input : reached.input = s.input
  userState : reached.userState = s.userState
  forward : s.offset ≤ reached.offset
  within : reached.error = none → reached.offset ≤ max s.offset s.input.size

namespace Onward

/-- A run that goes on from a success. -/
theorem trans (first : Onward s middle) (succeeded : middle.error = none)
    (second : Onward middle reached) : Onward s reached where
  input := second.input.trans first.input
  userState := second.userState.trans first.userState
  forward := Int.le_trans first.forward second.forward
  within clean := by
    have last := second.within clean
    rw [first.input] at last
    have before := first.within succeeded
    omega

/-- The value does not matter, once there is a success. -/
theorem succeed (onward : Onward s reached) (succeeded : reached.error = none) (v : Value) :
    Onward s (reached.succeed v) :=
  ⟨onward.input, onward.userState, onward.forward, fun _ => onward.within succeeded⟩

/-- A state that has not moved has not moved, whatever else it holds. -/
theorem stayed (input : reached.input = s.input) (userState : reached.userState = s.userState)
    (offset : reached.offset = s.offset) : Onward s reached :=
  ⟨input, userState, Int.le_of_eq offset.symm, fun _ => offset ▸ Int.le_max_left _ _⟩

/-- A success that does not stay where it started leaves less unread. -/
theorem unread_lt_iff (onward : Onward s reached) (succeeded : reached.error = none) :
    reached.unread < s.unread ↔ reached.offset ≠ s.offset := by
  have forward := onward.forward
  have within := onward.within succeeded
  rw [State.unread, State.unread, onward.input]
  omega

end Onward

/-- A failure stays where it is. -/
theorem Onward.failing (message : String) (kind : FailureKind) (s : State) :
    ((Parser.failing message kind).run s).Ensures (Onward s) :=
  Run.ensures_pure _ _ (.stayed rfl rfl rfl)

/-- Items are taken only where there are enough of them. Before an offset that counts from the end
there are none once the end of the slice does not. -/
theorem Onward.token (count : Nat) (s : State) :
    ((Parser.token count).run s).Ensures (Onward s) := by
  have forward : s.offset ≤ s.offset + (max 1 count : Nat) := by omega
  unfold Parser.token
  dsimp only
  by_cases short : (s.input.slice s.offset (s.offset + (max 1 count : Nat))).size < max 1 count
  · rw [if_pos short]
    refine Run.ensures_pure _ _ ⟨rfl, rfl, forward, fun clean => ?_⟩
    obtain ⟨merged, failed⟩ := Failure.exists_merge?_some s.error _
    cases failed.symm.trans clean
  · rw [if_neg short]
    refine Run.ensures_pure _ _ ⟨rfl, rfl, forward, fun _ => ?_⟩
    rw [Input.slice, Input.size_extract] at short
    unfold Input.place at short
    dsimp only
    split at short <;> split at short <;> omega

/-- The attempts of a choice all start from one state. -/
theorem Onward.attempt (s : State) (earlier : Option Failure) (p : Parser) (more : List Parser)
    (all : ∀ q ∈ p :: more, (q.run s).Ensures (Onward s)) :
    (Parser.attempt s earlier p more).Ensures (Onward s) := by
  induction more generalizing earlier p with
  | nil =>
    rw [Parser.attempt_nil]
    refine Run.ensures_bind _ _ _ _ (all p List.mem_cons_self) fun reached onward => ?_
    by_cases failed : reached.failed = true
    · rw [if_pos failed]
      obtain ⟨e, found⟩ := reached.error_of_failed failed
      refine Run.ensures_pure _ _
        ⟨onward.input, onward.userState, onward.forward, fun clean => ?_⟩
      obtain ⟨merged, standing⟩ := Failure.exists_merge?_some earlier e
      rw [← found] at standing
      cases standing.symm.trans clean
    · rw [if_neg failed]
      exact Run.ensures_pure _ _ onward
  | cons next later inductionHypothesis =>
    rw [Parser.attempt_cons]
    refine Run.ensures_bind _ _ _ _ (all p List.mem_cons_self) fun reached onward => ?_
    by_cases failed : reached.failed = true
    · rw [if_pos failed]
      exact inductionHypothesis _ next fun q member => all q (List.mem_cons_of_mem p member)
    · rw [if_neg failed]
      exact Run.ensures_pure _ _ onward

/-- What a round leaves has kept the input and the user state and not gone back. -/
def Round.Onward (s : State) : Round → Prop
  | .refused attempt => Descent.Onward s attempt
  | .last _ reached attempt =>
    Descent.Onward s reached ∧ reached.error = none ∧ Descent.Onward s attempt
  | .complete _ reached => Descent.Onward s reached ∧ reached.error = none

namespace Onward

variable {site : Site} {round : State → Run Round} {most rest : Limit} {h : Harvest}
  {ending : Run Harvest}

/-- Rounds that do not go back make a row that does not, by induction on them. -/
theorem rounds (onward : ∀ s, (round s).Ensures (Round.Onward s))
    (row : Rounds round most s values notes rest last) :
    last = s ∨ Onward s last ∧ last.error = none := by
  induction row with
  | none => exact .inl rfl
  | @more most rest s reached last v values made notes room went admitted later
      inductionHypothesis =>
    obtain ⟨first, succeeded⟩ := onward s _ (congrArg Run.result went)
    obtain rfl | ⟨further, clean⟩ := inductionHypothesis
    · exact .inr ⟨first, succeeded⟩
    · exact .inr ⟨first.trans succeeded further, clean⟩

/-- A repetition settles on a state that lies further on, or on a failed attempt that does. -/
theorem settle (least : Limit) (success : ∀ v, Onward s (h.reached.succeed v))
    (attempts : ∀ attempt, h.refusal = some attempt → Onward s attempt) :
    Onward s (h.settle least) := by
  unfold Harvest.settle
  cases refused : h.refusal with
  | none => exact success _
  | some attempt =>
    dsimp only
    split
    · exact attempts attempt refused
    · exact success _

/-- A repetition whose rounds do not go back does not. -/
theorem repeated (bounds : Bounds) (onward : ∀ s, (round s).Ensures (Round.Onward s)) (s : State) :
    (Parser.repeated site round bounds s).Ensures (Onward s) := by
  obtain ⟨values, notes, rest, last, ending, row, ends⟩ := exists_rounds site round bounds.most s
  have before : ∀ reached, Onward last reached → Onward s reached := by
    intro reached further
    obtain rfl | ⟨first, succeeded⟩ := rounds onward row
    · exact further
    · exact first.trans succeeded further
  have finished : ∀ v, Onward s (last.succeed v) := fun v => before _ (.stayed rfl rfl rfl)
  rw [Parser.repeated_eq, row.harvest ends, Run.behind_bind, bind_assoc]
  simp only [pure_bind]
  intro reached ran
  cases ends with
  | full =>
    obtain rfl := Except.ok.inj ran
    refine settle _ finished fun attempt impossible => ?_
    cases impossible
  | refused room went =>
    obtain rfl := Except.ok.inj ran
    refine settle _ finished fun attempt same => ?_
    exact Option.some.inj same ▸ before _ (onward last _ (congrArg Run.result went))
  | final room went =>
    obtain rfl := Except.ok.inj ran
    obtain ⟨reaches, succeeded, fails⟩ := onward last _ (congrArg Run.result went)
    refine settle _ (fun v => (before _ reaches).succeed succeeded v) fun attempt same => ?_
    exact Option.some.inj same ▸ before _ fails
  | stalled went idle => cases ran
  | faulted room went => cases ran

end Onward

/-- The rounds of a plain repetition of a parser that does not go back. -/
theorem Onward.roundOf (onward : ∀ s, (p.run s).Ensures (Onward s)) (s : State) :
    (Parser.roundOf p s).Ensures (Round.Onward s) := by
  refine Run.ensures_bind _ _ _ _ (onward s) fun reached further => ?_
  by_cases failed : reached.failed = true
  · rw [if_pos failed]
    exact Run.ensures_pure _ _ further
  · rw [if_neg failed]
    exact Run.ensures_pure _ _ ⟨further, reached.error_of_not_failed failed⟩

/-- The rounds of a repetition of values with a separator after each. -/
theorem Onward.endedRoundOf {separator : Parser} (onward : ∀ s, (p.run s).Ensures (Onward s))
    (ended : ∀ s, (separator.run s).Ensures (Onward s)) (s : State) :
    (Parser.endedRoundOf p separator s).Ensures (Round.Onward s) := by
  refine Run.ensures_bind _ _ _ _ (onward s) fun item further => ?_
  by_cases failed : item.failed = true
  · rw [if_pos failed]
    exact Run.ensures_pure _ _ further
  · rw [if_neg failed]
    have succeeded : item.error = none := item.error_of_not_failed failed
    refine Run.ensures_bind _ _ _ _ (ended item) fun reached later => ?_
    have both : Onward s reached := further.trans succeeded later
    by_cases missing : reached.failed = true
    · rw [if_pos missing]
      exact Run.ensures_pure _ _ ⟨further, succeeded, both⟩
    · rw [if_neg missing]
      exact Run.ensures_pure _ _ ⟨both, reached.error_of_not_failed missing⟩

/-- No built parser goes back or past the end, whatever state it is run on. One case for each
constructor. -/
theorem Built.onward (built : Built claimsEnd p) (s : State) :
    (p.run s).Ensures (Onward s) := by
  induction built generalizing s with
  | renamed built sameRun inductionHypothesis =>
    rw [sameRun]
    exact inductionHypothesis s
  | succeed v => exact Run.ensures_pure _ _ (.stayed rfl rfl rfl)
  | raising fault => exact Run.ensures_raise _ _
  | failing message kind admitted => exact Onward.failing message kind s
  | token count => exact Onward.token count s
  | atEnd =>
    unfold Parser.atEnd
    dsimp only
    split
    · exact Run.ensures_pure _ _ (.stayed rfl rfl rfl)
    · exact Onward.failing _ _ s
  | bind first second ofFirst ofSecond =>
    refine Run.ensures_bind _ _ _ _ (ofFirst s) fun reached further => ?_
    by_cases failed : reached.failed = true
    · rw [if_pos failed]
      exact Run.ensures_pure _ _ further
    · rw [if_neg failed]
      intro last ran
      exact further.trans (reached.error_of_not_failed failed) (ofSecond _ reached last ran)
  | label expected built ofParser =>
    refine Run.ensures_bind _ _ _ _ (ofParser s) fun reached further => ?_
    refine Run.ensures_pure _ _
      ⟨further.input, further.userState, further.forward, fun clean => ?_⟩
    exact further.within (Option.map_eq_none_iff.mp clean)
  | lookAhead built ofParser =>
    refine Run.ensures_bind _ _ _ _ (ofParser s) fun reached further => ?_
    exact Run.ensures_pure _ _ (.stayed further.input further.userState rfl)
  | traced tag level built ofParser =>
    refine Run.ensures_bind _ _ _ _ (ofParser s) fun reached further => ?_
    exact Run.ensures_note _ _ _ (Run.ensures_pure _ _ further)
  | noted n built ofParser => exact Run.ensures_note _ _ _ (ofParser s)
  | choice all ofAll => exact Onward.attempt s none _ _ fun q member => ofAll q member s
  | refusing built ofParser =>
    refine Run.ensures_bind _ _ (Onward s) _ (ofParser s) fun reached _ => ?_
    split
    · exact Run.ensures_pure _ _ (.stayed rfl rfl rfl)
    · exact Onward.failing _ _ s
  | collect bounds built ofParser =>
    exact Onward.repeated bounds (Onward.roundOf ofParser) s
  | splitEnd bounds built ended ofParser ofSeparator =>
    exact Onward.repeated bounds (Onward.endedRoundOf ofParser ofSeparator) s
  | byUnread made ofMade => exact ofMade s.unread s

end Descent
