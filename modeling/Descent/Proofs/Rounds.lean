import Descent.Proofs.Limits
import Descent.Proofs.Progress

/-!
# The rounds of a repetition

A repetition is a row of complete rounds, each from the state that the one before left, and an end.
It ends because the row is as long as the limit allows, because the next round is refused or gives
the last value, because without a limit it leaves no less unread, or because it faults. Every
repetition has such a row, and from the row and its end the whole run can be read off, notes
included.

For a parser that is repeated alone the row is one of successes, so that the values and the last
state are those of its applications in turn.
-/

namespace Descent

variable {site : Site} {round : State → Run Round} {most rest : Limit} {s last : State}
  {values : List Value} {notes : List Note} {ending : Run Harvest}

namespace Limit

/-- Whether another round may follow a complete one. Where there is no limit, the round has to leave
less unread. -/
def Admits : Limit → State → State → Prop
  | finite _, _, _ => True
  | unbounded, s, reached => reached.unread < s.unread

/-- How many rounds there can be at most from a state on, or one less. -/
def left : Limit → State → Nat
  | finite n, _ => n
  | unbounded, s => s.unread

/-- A complete round takes one from what is left. -/
theorem left_pred_lt (most : Limit) (s reached : State) (room : most.exceeds 0 = true)
    (admitted : most.Admits s reached) : most.pred.left reached < most.left s := by
  cases most with
  | finite n =>
    have positive : 0 < n := by simpa [exceeds] using room
    exact Nat.pred_lt_of_lt positive
  | unbounded => exact admitted

end Limit

/-- The harvest with the values of earlier rounds in front. -/
def Harvest.following (values : List Value) (h : Harvest) : Harvest :=
  { h with values := values ++ h.values }

/-- What a repetition that finds no more values settles on. -/
theorem Harvest.settle_held (least : Nat) (values : List Value) (s : State)
    (refusal : Option State) :
    (((Harvest.empty s refusal).following values).settle (.finite least)) =
      match refusal with
      | some attempt => if values.length < least then attempt else s.succeed (.list values)
      | none => s.succeed (.list values) := by
  cases refusal <;> simp [Harvest.settle, Harvest.following, Harvest.empty, Limit.exceeds]

/-- Complete rounds one after another within a limit: their values, their notes, and the limit and
the state that they leave. -/
inductive Rounds (round : State → Run Round) :
    Limit → State → List Value → List Note → Limit → State → Prop where
  | none {most : Limit} {s : State} : Rounds round most s [] [] most s
  | more {most rest : Limit} {s reached last : State} {v : Value} {values : List Value}
      {made notes : List Note} (room : most.exceeds 0 = true)
      (went : round s = ⟨made, .ok (.complete v reached)⟩) (admitted : most.Admits s reached)
      (later : Rounds round most.pred reached values notes rest last) :
      Rounds round most s (v :: values) (made ++ notes) rest last

/-- What a repetition finds that does not complete another round. -/
inductive RoundsEnd (site : Site) (round : State → Run Round) :
    Limit → State → Run Harvest → Prop where
  | full {s : State} : RoundsEnd site round (.finite 0) s ⟨[], .ok (.empty s none)⟩
  | refused {most : Limit} {s attempt : State} {made : List Note} (room : most.exceeds 0 = true)
      (went : round s = ⟨made, .ok (.refused attempt)⟩) :
      RoundsEnd site round most s ⟨made, .ok (.empty s (some attempt))⟩
  | final {most : Limit} {s reached attempt : State} {v : Value} {made : List Note}
      (room : most.exceeds 0 = true) (went : round s = ⟨made, .ok (.last v reached attempt)⟩) :
      RoundsEnd site round most s ⟨made, .ok (.cons v (.empty reached (some attempt)))⟩
  | stalled {s reached : State} {v : Value} {made : List Note}
      (went : round s = ⟨made, .ok (.complete v reached)⟩) (idle : ¬ reached.unread < s.unread) :
      RoundsEnd site round .unbounded s ⟨made, .error (.contract (.stalled site))⟩
  | faulted {most : Limit} {s : State} {made : List Note} {fault : Fault}
      (room : most.exceeds 0 = true) (went : round s = ⟨made, .error fault⟩) :
      RoundsEnd site round most s ⟨made, .error fault⟩

namespace Parser

/-- What goes on after a complete round, within a limit that leaves room for one. -/
def onward (site : Site) (round : State → Run Round) (most : Limit) (s : State) (v : Value)
    (reached : State) : Run Harvest :=
  match most with
  | .finite n => return .cons v (← roundsUpTo round (n - 1) reached)
  | .unbounded =>
    if reached.unread < s.unread then return .cons v (← roundsOn site round reached)
    else Run.raise (.contract (.stalled site))

/-- Where there is room, a repetition begins with a round. -/
theorem harvest_room (room : most.exceeds 0 = true) :
    harvest site round most s = round s >>= Round.proceed s (onward site round most s) := by
  cases most with
  | finite n =>
    cases n with
    | zero => cases room
    | succ n => exact roundsUpTo_succ round n s
  | unbounded => exact roundsOn_eq site round s

/-- After a complete round the repetition goes on within one less. -/
theorem onward_admitted {v : Value} {reached : State} (admitted : most.Admits s reached) :
    onward site round most s v reached =
      harvest site round most.pred reached >>= fun h => pure (h.cons v) := by
  cases most with
  | finite n => rfl
  | unbounded => exact if_pos admitted

end Parser

/-- A repetition that completes no round is its end. -/
theorem RoundsEnd.harvest (ends : RoundsEnd site round rest s ending) :
    Parser.harvest site round rest s = ending := by
  cases ends with
  | full => rfl
  | refused room went =>
    rw [Parser.harvest_room room, went]
    simp only [Run.bind_done, Round.proceed, Run.behind, Run.pure_eq, List.append_nil]
  | final room went =>
    rw [Parser.harvest_room room, went]
    simp only [Run.bind_done, Round.proceed, Run.behind, Run.pure_eq, List.append_nil]
  | stalled went idle =>
    rw [Parser.harvest_room rfl, went]
    simp only [Run.bind_done, Round.proceed, Parser.onward, if_neg idle, Run.behind, Run.raise,
      List.append_nil]
  | faulted room went => rw [Parser.harvest_room room, went, Run.bind_stopped]

namespace Rounds

/-- Rounds and an end make up the whole repetition, by induction on the rounds. -/
theorem harvest (rounds : Rounds round most s values notes rest last)
    (ends : RoundsEnd site round rest last ending) :
    Parser.harvest site round most s =
      (ending >>= fun h => pure (h.following values)).behind notes := by
  induction rounds with
  | none =>
    rw [ends.harvest]
    exact (bind_pure ending).symm
  | @more most rest s reached last v values made notes room went admitted later
      inductionHypothesis =>
    have moved : ∀ h : Harvest,
        (h.following values).cons v = h.following (v :: values) := fun _ => rfl
    rw [Parser.harvest_room room, went, Run.bind_done, Round.proceed,
      Parser.onward_admitted admitted, inductionHypothesis ends, Run.behind_bind,
      Run.behind_behind]
    simp only [bind_assoc, pure_bind, moved]

/-- What a repetition settles on behind its rounds. -/
theorem repeated (bounds : Bounds) (rounds : Rounds round bounds.most s values notes rest last)
    (ends : RoundsEnd site round rest last ending) :
    Parser.repeated site round bounds s =
      (ending >>= fun h => pure ((h.following values).settle bounds.least)).behind notes := by
  rw [Parser.repeated_eq, rounds.harvest ends, Run.behind_bind, bind_assoc]
  simp only [pure_bind]

/-- Without a limit each round leaves less unread, so that there are not more rounds than that. -/
theorem length_add_unread (rounds : Rounds round .unbounded s values notes rest last) :
    values.length + last.unread ≤ s.unread := by
  generalize limit : Limit.unbounded = most at rounds
  induction rounds with
  | none => simp
  | @more most rest s reached last v values made notes room went admitted later
      inductionHypothesis =>
    subst limit
    have less : reached.unread < s.unread := admitted
    have others := inductionHypothesis rfl
    rw [List.length_cons]
    omega

/-- What is left of the limit after the rounds, and that it allows them. -/
theorem limit (rounds : Rounds round most s values notes rest last) :
    rest = most.after values.length ∧ (Limit.finite values.length).atMost most = true := by
  induction rounds with
  | @none most s => exact ⟨most.after_zero.symm, most.zero_atMost⟩
  | @more most rest s reached last v values made notes room went admitted later
      inductionHypothesis =>
    rw [List.length_cons, ← Limit.pred_after]
    exact ⟨inductionHypothesis.1, Limit.atMost_succ room inductionHypothesis.2⟩

end Rounds

/-- Every repetition is made of rounds and an end, by induction on how many rounds there can be. -/
theorem exists_rounds (site : Site) (round : State → Run Round) (most : Limit) (s : State) :
    ∃ values notes rest last ending, Rounds round most s values notes rest last ∧
      RoundsEnd site round rest last ending := by
  induction size : most.left s using Nat.strongRecOn generalizing most s with
  | ind left inductionHypothesis =>
    by_cases room : most.exceeds 0 = true
    · rcases went : round s with ⟨made, fault | attempt | ⟨v, reached, attempt⟩ | ⟨v, reached⟩⟩
      · exact ⟨_, _, _, _, _, .none, .faulted room went⟩
      · exact ⟨_, _, _, _, _, .none, .refused room went⟩
      · exact ⟨_, _, _, _, _, .none, .final room went⟩
      · by_cases admitted : most.Admits s reached
        · have less := most.left_pred_lt s reached room admitted
          obtain ⟨values, notes, rest, last, ending, later, ends⟩ :=
            inductionHypothesis _ (size ▸ less) most.pred reached rfl
          exact ⟨_, _, _, _, _, .more room went admitted later, ends⟩
        · cases most with
          | finite n => exact absurd trivial admitted
          | unbounded => exact ⟨_, _, _, _, _, .none, .stalled went admitted⟩
    · cases most with
      | finite n =>
        have nothing : n = 0 := by simpa [Limit.exceeds] using room
        subst nothing
        exact ⟨_, _, _, _, _, .none, .full⟩
      | unbounded => exact absurd rfl room

end Descent
