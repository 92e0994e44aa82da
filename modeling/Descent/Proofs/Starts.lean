import Descent.Proofs.Manners
import Descent.Proofs.Unterminated

/-!
# Parts are started on successes

A failed state ends whatever it was reached in. A row of parsers, a script and a repetition go on
from successes only, and an alternative or a refusal goes back to the state that it began with. So
if a grammar is started on a state that carries no failure, no part of it ever meets one, and
`failing`, which merges with a failure that is there already, never finds any: what came of an
attempt that was given up does not turn up in a later failure.

For each constructor this is a lemma on parsers in place of others: with its operands replaced by
parsers that do the same on states without a failure, it makes a parser that does. By induction on a
grammar the same grammar in any other manner runs as it does.
-/

namespace Descent

variable {claimsEnd : Prop} {p q separator ender : Parser} {next other : Value → Parser}
  {s : State}

/-! ## What goes on from successes only -/

namespace Parser

namespace Replaces

/-- What goes on after a parser goes on alike if it does so from successes. -/
theorem ifSucceeded {α : Type} (first : q.Replaces p) (clean : s.error = none)
    (stop go further : State → Run α)
    (same : ∀ reached : State, reached.error = none → further reached = go reached) :
    (q.run s >>= fun reached => if reached.failed then stop reached else further reached) =
      p.run s >>= fun reached => if reached.failed then stop reached else go reached := by
  rw [first s clean]
  congr 1
  funext reached
  by_cases failed : reached.failed = true
  · rw [if_pos failed, if_pos failed]
  · rw [if_neg failed, if_neg failed, same reached (reached.error_of_not_failed failed)]

theorem tokenElse {refusal : Parser} (replaces : refusal.Replaces (failing "unexpected eof" .eof))
    (count : Nat) : (Parser.tokenElse refusal count).Replaces (token count) := by
  intro s clean
  rw [← tokenElse_failing]
  unfold Parser.tokenElse
  dsimp only
  split
  · exact replaces _ clean
  · rfl

theorem atEndElse {refusal : Parser}
    (replaces : refusal.Replaces (failing "expected end of input" .expectation)) :
    (Parser.atEndElse refusal).Replaces atEnd := by
  intro s clean
  rw [← atEndElse_failing]
  unfold Parser.atEndElse
  dsimp only
  split
  · rfl
  · exact replaces s clean

theorem bind (first : q.Replaces p) (second : ∀ v, (other v).Replaces (next v)) :
    (q.bind other).Replaces (p.bind next) := by
  intro s clean
  apply first.ifSucceeded clean
  intro reached succeeded
  exact second reached.value reached succeeded

theorem label (replaces : q.Replaces p) (expected : String) :
    (q.label expected).Replaces (p.label expected) := by
  intro s clean
  simp only [Parser.label, replaces s clean]

theorem lookAhead (replaces : q.Replaces p) : q.lookAhead.Replaces p.lookAhead := by
  intro s clean
  simp only [Parser.lookAhead, replaces s clean]

theorem traced (replaces : q.Replaces p) (tag : String) (level : Int) :
    (q.traced tag level).Replaces (p.traced tag level) := by
  intro s clean
  simp only [Parser.traced, replaces s clean]

theorem noted (replaces : q.Replaces p) (n : Note) : (q.noted n).Replaces (p.noted n) := by
  intro s clean
  simp only [Parser.noted, replaces s clean]

/-- Whatever came of the guard, what is run next is run on the state it was started on. -/
theorem refusingElse {acceptance refusal : Parser} (replaces : q.Replaces p)
    (accepts : acceptance.Replaces (succeed (.bool true)))
    (refuses : refusal.Replaces (failing "expected parser to fail" .expectation)) :
    (Parser.refusingElse acceptance refusal q).Replaces p.refusing := by
  intro s clean
  rw [← refusingElse_failing]
  simp only [Parser.refusingElse, replaces s clean, accepts s clean, refuses s clean]

end Replaces

/-! ## Rows of operands -/

section Rows

variable {ι : Type} {old new : ι → Parser}

/-- Parsers in order, by induction on the row. -/
theorem runAll_replaced (row : List ι) (replaces : ∀ part ∈ row, (new part).Replaces (old part))
    (clean : s.error = none) : runAll (row.map new) s = runAll (row.map old) s := by
  induction row generalizing s with
  | nil => rfl
  | cons part rest inductionHypothesis =>
    apply (replaces part List.mem_cons_self).ifSucceeded clean
    intro reached succeeded
    apply inductionHypothesis _ succeeded
    intro later member
    exact replaces later (List.mem_cons_of_mem part member)

/-- Parsers in order that are gathered behind values, by induction on the row. -/
theorem gatherAfter_replaced (values : List Value) (row : List ι)
    (replaces : ∀ part ∈ row, (new part).Replaces (old part)) (clean : s.error = none) :
    gatherAfter values (row.map new) s = gatherAfter values (row.map old) s := by
  induction row generalizing values s with
  | nil => rfl
  | cons part rest inductionHypothesis =>
    apply (replaces part List.mem_cons_self).ifSucceeded clean
    intro reached succeeded
    apply inductionHypothesis _ _ succeeded
    intro later member
    exact replaces later (List.mem_cons_of_mem part member)

/-- Alternatives, by induction on the row. Each of them is started where the choice began. -/
theorem attempt_replaced (earlier : Option Failure) (part : ι) (row : List ι)
    (replaces : ∀ one ∈ part :: row, (new one).Replaces (old one)) (clean : s.error = none) :
    attempt s earlier (new part) (row.map new) = attempt s earlier (old part) (row.map old) := by
  induction row generalizing earlier part with
  | nil =>
    simp only [List.map_nil, attempt_nil]
    rw [replaces part List.mem_cons_self s clean]
  | cons later rest inductionHypothesis =>
    have others : ∀ merged, attempt s merged (new later) (rest.map new) =
        attempt s merged (old later) (rest.map old) := by
      intro merged
      apply inductionHypothesis
      intro one member
      exact replaces one (List.mem_cons_of_mem part member)
    simp only [List.map_cons, attempt_cons, others]
    rw [replaces part List.mem_cons_self s clean]

end Rows

end Parser

/-! ## Repetition -/

/-- Another round is begun from a success only. -/
def Round.Clean : Round → Prop
  | .complete _ reached => reached.error = none
  | _ => True

section Rounds

variable {site : Site} {round another : State → Run Round} {most rest : Limit} {last : State}
  {values : List Value} {notes : List Note} {ending : Run Harvest}

/-- Rounds that go alike from successes make the same row of rounds, by induction on the row. -/
theorem Parser.rounds_replaced (same : ∀ s : State, s.error = none → another s = round s)
    (succeeds : ∀ s : State, s.error = none → (round s).Ensures Round.Clean)
    (row : Rounds round most s values notes rest last) (clean : s.error = none) :
    Rounds another most s values notes rest last ∧ last.error = none := by
  induction row with
  | none => exact ⟨.none, clean⟩
  | @more most rest s reached last v values made notes room went admitted later
      inductionHypothesis =>
    have succeeded : reached.error = none := succeeds s clean _ (congrArg Run.result went)
    obtain ⟨others, lastClean⟩ := inductionHypothesis succeeded
    exact ⟨.more room ((same s clean).trans went) admitted others, lastClean⟩

/-- They come to the same end. -/
theorem Parser.roundsEnd_replaced (same : another last = round last)
    (ends : RoundsEnd site round rest last ending) : RoundsEnd site another rest last ending := by
  cases ends with
  | full => exact .full
  | refused room went => exact .refused room (same.trans went)
  | final room went => exact .final room (same.trans went)
  | stalled went idle => exact .stalled (same.trans went) idle
  | faulted room went => exact .faulted room (same.trans went)

/-- A repetition is the same with rounds that go alike from successes. -/
theorem Parser.repeated_replaced (bounds : Bounds)
    (same : ∀ s : State, s.error = none → another s = round s)
    (succeeds : ∀ s : State, s.error = none → (round s).Ensures Round.Clean)
    (clean : s.error = none) :
    Parser.repeated site another bounds s = Parser.repeated site round bounds s := by
  obtain ⟨values, notes, rest, last, ending, row, ends⟩ := exists_rounds site round bounds.most s
  obtain ⟨others, lastClean⟩ := rounds_replaced same succeeds row clean
  have otherEnds := roundsEnd_replaced (same last lastClean) ends
  rw [row.repeated bounds ends, others.repeated bounds otherEnds]

end Rounds

namespace Parser

/-- A complete round of a plain repetition is a success. -/
theorem roundOf_clean (p : Parser) (s : State) : (roundOf p s).Ensures Round.Clean := by
  intro round ran
  cases round with
  | refused attempt => trivial
  | last v reached attempt => trivial
  | complete v reached => exact (roundOf_complete (Run.eq_of_result ran)).2.1

/-- So is a complete round of a value and its separator. -/
theorem endedRoundOf_clean (p separator : Parser) (s : State) :
    (endedRoundOf p separator s).Ensures Round.Clean := by
  intro round ran
  have kind := p.endedRound separator s
  rw [ran] at kind
  cases kind with
  | refused went failed => trivial
  | last went succeeded ended failed => trivial
  | complete went succeeded ended both => exact both

namespace Replaces

theorem collect (replaces : q.Replaces p) (bounds : Bounds) :
    (q.collect bounds).Replaces (p.collect bounds) := by
  intro s clean
  refine repeated_replaced bounds ?_ (fun s _ => roundOf_clean p s) clean
  intro s clean
  simp only [roundOf, replaces s clean]

/-- The separator is started behind a value. -/
theorem splitEnd (replaces : q.Replaces p) (ended : ender.Replaces separator) (bounds : Bounds) :
    (q.splitEnd ender bounds).Replaces (p.splitEnd separator bounds) := by
  intro s clean
  refine repeated_replaced bounds ?_ (fun s _ => endedRoundOf_clean p separator s) clean
  intro s clean
  apply replaces.ifSucceeded clean
  intro item succeeded
  rw [ended item succeeded]

end Replaces

end Parser

/-! ## All grammars -/

/-- A grammar that is put together in another manner does the same on states that carry no failure.
One case for each constructor. -/
theorem Remade.replaces {manner : Manner} (remade : Remade manner p q) : q.Replaces p := by
  induction remade with
  | renamed remade sameRun otherRun inductionHypothesis =>
    intro s clean
    rw [sameRun, otherRun]
    exact inductionHypothesis s clean
  | succeed v => exact fun _ _ => rfl
  | raising fault => exact fun _ _ => rfl
  | failing message kind => exact manner.failing_replaces message kind
  | token count => exact .tokenElse (manner.replaces_part (manner.failing_replaces _ _)) count
  | atEnd => exact .atEndElse (manner.replaces_part (manner.failing_replaces _ _))
  | bind first second ofFirst ofSecond =>
    apply (manner.replaces_part ofFirst).bind
    intro v
    exact manner.replaces_part (ofSecond v)
  | label expected remade ofParser => exact (manner.replaces_part ofParser).label expected
  | deferred maker remade ofParser => exact manner.replaces_part ofParser
  | lookAhead remade ofParser => exact (manner.replaces_part ofParser).lookAhead
  | traced tag level remade ofParser => exact (manner.replaces_part ofParser).traced tag level
  | noted n remade ofParser => exact (manner.replaces_part ofParser).noted n
  | @chain first more all ofAll =>
    intro s clean
    apply Parser.runAll_replaced (first :: more) _ clean
    intro pair member
    exact manner.replaces_part (ofAll pair member)
  | @choice first more all ofAll =>
    intro s clean
    apply Parser.attempt_replaced none first more _ clean
    intro pair member
    exact manner.replaces_part (ofAll pair member)
  | refusing remade ofParser =>
    apply (manner.replaces_part ofParser).refusingElse
    · exact manner.part_replaces _
    · exact manner.replaces_part (manner.failing_replaces _ _)
  | @gather first more all ofAll =>
    intro s clean
    apply Parser.gatherAfter_replaced [] (first :: more) _ clean
    intro pair member
    exact manner.replaces_part (ofAll pair member)
  | collect bounds remade ofParser => exact (manner.replaces_part ofParser).collect bounds
  | splitEnd bounds remade ended ofParser ofSeparator =>
    exact (manner.replaces_part ofParser).splitEnd (manner.replaces_part ofSeparator) bounds
  | scriptDone name remade ofParser => exact manner.replaces_part ofParser
  | scriptStep name first rest ofFirst ofRest =>
    intro s clean
    apply (manner.replaces_part ofFirst).ifSucceeded clean
    intro reached succeeded
    exact ofRest reached.value reached succeeded
  | scriptNote name n rest ofRest =>
    intro s clean
    exact congrArg (Run.note n >>= ·) (funext fun _ => ofRest s clean)
  | scriptHalt name fault => exact fun _ _ => rfl
  | byUnread made ofMade =>
    intro s clean
    exact manner.replaces_part (ofMade s.unread) s clean

/-- In the run of a built parser on a state that carries no failure, no part is started on one that
does. Whatever is done in place of parts on failed states, the grammar that is watched in this way,
part by part down to the failures that constructors make themselves, runs as it would unwatched,
notes included. So it makes no difference either if failures are never merged with what the state
carries.

Proof: by induction on the grammar. Each constructor starts its parts on the state it was started
on, or on one that it has found to be a success. -/
theorem parts_meet_no_failure (built : Built claimsEnd p) :
    (∀ manner : Manner, ∃ q, Remade manner p q) ∧
    (∀ (instead : Parser → State → Run State) (q : Parser), Remade (.watched instead) p q →
      ∀ s : State, s.error = none → q.run s = p.run s) ∧
    ∀ q : Parser, Remade .afresh p q → ∀ s : State, s.error = none → q.run s = p.run s := by
  refine ⟨built.exists_remade, ?_, ?_⟩
  · intro instead q remade
    exact remade.replaces
  · intro q remade
    exact remade.replaces

/-- Take two items if there are two, and then nothing may be left. -/
def Parser.pairOrNothing : Parser := (token 2).optional.bind fun _ => atEnd

/-- The same in another manner. -/
theorem Remade.pairOrNothing (manner : Manner) :
    Remade manner .pairOrNothing
      ((manner.part (.choice
        (manner.part (.tokenElse (manner.part (manner.failing "unexpected eof" .eof)) 2))
        [manner.part .succeed])).bind fun _ =>
          manner.part
            (.atEndElse (manner.part (manner.failing "expected end of input" .expectation)))) :=
  .bind (.either (.token 2) (.succeed .absent)) fun _ => .atEnd

/-- A single item is no pair. The attempt to take one has failed further on, past the end of the
input, but its failure went with it: the one that is reported is at the start, and speaks of nothing
else. In the watched grammar every start on a failure would be a fault. -/
theorem parts_meet_no_failure_of_attempt :
    ∃ q r : Parser, Remade (.watched fun _ _ => Run.raise .endless) .pairOrNothing q ∧
      Remade .afresh .pairOrNothing r ∧
      q.run { value := .absent, input := .ofString "a" } =
        Parser.pairOrNothing.run { value := .absent, input := .ofString "a" } ∧
      r.run { value := .absent, input := .ofString "a" } =
        Parser.pairOrNothing.run { value := .absent, input := .ofString "a" } ∧
      (Parser.pairOrNothing.run { value := .absent, input := .ofString "a" }).result =
        .ok
          { value := .absent
            input := .ofString "a"
            error := some ⟨⟨1, 0, none⟩, ["expected end of input"], .expectation, false⟩ } := by
  have built : Built False .pairOrNothing :=
    .bind (.optional (.token 2)) fun _ => .atEnd
  obtain ⟨_, watched, afresh⟩ := parts_meet_no_failure built
  have watchedPair := Remade.pairOrNothing (.watched fun _ _ => Run.raise .endless)
  have afreshPair := Remade.pairOrNothing .afresh
  exact ⟨_, _, watchedPair, afreshPair, watched _ _ watchedPair _ rfl, afresh _ afreshPair _ rfl,
    rfl⟩

end Descent
