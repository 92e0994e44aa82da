import Descent.Proofs.Finality

/-!
# Longer texts

A parser that reads straight on cannot tell a text from the beginning of a longer one until it has
run out of it. A success is the same success with more text behind it, and a failure that does not
blame the end is the same failure. The steps that lead there may depend on all the values read
before.

Offsets past the end are no exception, since nothing is there to be read. Offsets that count from
the end are: more text moves what they stand for (`longer_text_from_negative_offset`).
-/

namespace Descent

variable {p : Parser}

/-- More text changes nothing that a parser which reads straight on has settled. From any place
that counts from the start, a success stays a success with the same value, offset and position, and
a failure that does not blame the end stays the same failure. -/
theorem settled_on_longer_text (straight : Straight p) (s reached : State) (more : List Char)
    (clean : s.error = none) (start : 0 ≤ s.offset) (onText : s.OnText)
    (ran : (p.run s).result = .ok reached) :
    (reached.error = none →
      ∃ further, (p.run (s.extended more)).result = .ok further ∧ further.error = none ∧
        further.value = reached.value ∧ further.offset = reached.offset ∧
        further.position = reached.position) ∧
    ∀ e, reached.error = some e → e.wasEof = false →
      ∃ further, (p.run (s.extended more)).result = .ok further ∧ further.error = some e := by
  have goesOn : Failure.Settled reached.error →
      (p.run (s.extended more)).result = .ok (reached.extended more) :=
    straight.extended clean start onText more ran
  constructor
  · intro succeeded
    have nothing : Failure.Settled reached.error := by
      intro e found
      cases succeeded.symm.trans found
    exact ⟨_, goesOn nothing, (reached.extended_error more).trans succeeded,
      reached.extended_value more, reached.extended_offset more, reached.extended_position more⟩
  · intro e failed ordinary
    have settled : Failure.Settled reached.error := by
      intro f found
      obtain rfl := Option.some.inj (failed.symm.trans found)
      exact ordinary
    exact ⟨_, goesOn settled, (reached.extended_error more).trans failed⟩

/-- An item, and then the same one again. -/
def Parser.repeatedItem : Parser :=
  label (token.bind fun v => satisfying fun w => .ok (w.same v)) "the item again"

/-- Behind a first character, two letters that agree are read with or without a third one, and two
that differ are refused at the second, whatever comes after it. -/
theorem settled_on_longer_text_repeated :
    (∃ further, (Parser.repeatedItem.run
        (({ value := .absent, input := .ofString "\naa", offset := 1, position := ⟨2, 0, none⟩ } :
          State).extended ['b'])).result = .ok further ∧ further.error = none ∧
      further.value = .text "a" ∧ further.offset = 3 ∧ further.position = ⟨2, 2, none⟩) ∧
    ∀ more, ∃ further, (Parser.repeatedItem.run
        (({ value := .absent, input := .ofString "\nab", offset := 1, position := ⟨2, 0, none⟩ } :
          State).extended more)).result = .ok further ∧
      further.error = some ⟨⟨2, 2, none⟩, ["expected the item again"], .expectation, false⟩ := by
  have closed : Sequential Straight := Straight.sequential
  have straight : Straight Parser.repeatedItem :=
    .label _ (.bind (.token 1) fun _ => closed.satisfying _ (.token 1))
  refine ⟨?_, fun more => ?_⟩
  · exact (settled_on_longer_text straight
      { value := .absent, input := .ofString "\naa", offset := 1, position := ⟨2, 0, none⟩ }
      _ ['b'] rfl (by decide) ⟨_, rfl⟩ rfl).1 rfl
  · exact (settled_on_longer_text straight
      { value := .absent, input := .ofString "\nab", offset := 1, position := ⟨2, 0, none⟩ }
      _ more rfl (by decide) ⟨_, rfl⟩ rfl).2 _ rfl rfl

/-- An offset that counts from the end stands for another item when there is more text: of two
characters the first one is read, and with a third one behind them the second. -/
theorem longer_text_from_negative_offset :
    ∃ s reached further : State, s.error = none ∧ s.offset = -2 ∧ s.OnText ∧
      Straight (.token 1) ∧ ((Parser.token 1).run s).result = .ok reached ∧
      reached.error = none ∧ ((Parser.token 1).run (s.extended ['c'])).result = .ok further ∧
      further.error = none ∧ reached.value = .text "a" ∧ further.value = .text "b" :=
  ⟨{ value := .absent, input := .ofString "ab", offset := -2 }, _, _, rfl, rfl, ⟨_, rfl⟩,
    .token 1, rfl, rfl, rfl, rfl, rfl, rfl⟩

end Descent
