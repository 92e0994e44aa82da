import Descent.Proofs.Binding
import Descent.Proofs.Onward

/-!
# Peeking

To look ahead is to run a parser for its verdict and its value, and to go back. What is left of that
in the state is the value alone: built parsers keep the input and the user state, and offset and
position are put back. No built parser depends on the value of the state it is run on, so that
nothing that follows can tell whether somebody has looked before.

Three uses of it are held against the parser itself: a look ahead in front of the parser, the
refusal of its refusal, and a look ahead in its place as the first alternative of a choice. All of
this is so on every state that has not failed, wherever its offset lies.
-/

namespace Descent

variable {claimsEnd : Prop} {p : Parser} {s reached : State}

namespace Parser

/-- A look ahead leaves what the parser leaves, at the place where it started. -/
theorem lookAhead_result (ran : (p.run s).result = .ok reached) :
    (p.lookAhead.run s).result =
      .ok { reached with offset := s.offset, position := s.position } :=
  Run.result_bind_ok _ _ _ ran

/-- Of a success only the value is left. -/
theorem lookAhead_succeeded (built : Built claimsEnd p) (clean : s.error = none)
    (ran : (p.run s).result = .ok reached) (succeeded : reached.error = none) :
    (p.lookAhead.run s).result = .ok { s with value := reached.value } := by
  have onward : Onward s reached := built.onward s reached ran
  rw [lookAhead_result ran, onward.input, onward.userState, succeeded, clean]

/-- A parser behind its own look ahead: the success is the same state, and the failure the same
failure. -/
theorem run_behind_lookAhead (built : Built claimsEnd p) (clean : s.error = none)
    (ran : (p.run s).result = .ok reached) :
    ∃ last, ((chain p.lookAhead [p]).run s).result = .ok last ∧ last.error = reached.error ∧
      (reached.error = none → last = reached) := by
  have opened : (chain p.lookAhead [p]).run s = p.lookAhead.run s >>= fun looked =>
      if looked.failed then pure looked else (chain p []).run looked := rfl
  by_cases failed : reached.failed = true
  · obtain ⟨e, found⟩ := reached.error_of_failed failed
    have stopped : ({ reached with offset := s.offset, position := s.position } : State).failed =
        true := failed
    refine ⟨{ reached with offset := s.offset, position := s.position }, ?_, rfl,
      fun succeeded => nomatch found.symm.trans succeeded⟩
    rw [opened, Run.result_bind_ok _ _ _ (lookAhead_result ran), if_pos stopped]
    rfl
  · have succeeded : reached.error = none := reached.error_of_not_failed failed
    have goesOn : ({ s with value := reached.value } : State).failed = false := by
      rw [State.failed, clean]
      rfl
    refine ⟨reached, ?_, rfl, fun _ => rfl⟩
    rw [opened, Run.result_bind_ok _ _ _ (lookAhead_succeeded built clean ran succeeded), goesOn,
      if_neg Bool.false_ne_true, run_chain_nil]
    exact built.ignoresValue.succeeds reached.value ran succeeded

/-! ## Refusals -/

/-- Where a parser fails its refusal is a truth that leaves everything else as it was. -/
theorem refusing_failed (ran : (p.run s).result = .ok reached) (failed : reached.failed = true) :
    (p.refusing.run s).result = .ok (s.succeed (.bool true)) := by
  rw [Parser.refusing, Run.result_bind_ok _ _ _ ran, if_pos failed]
  rfl

/-- Where a parser succeeds its refusal fails. -/
theorem refusing_succeeded (ran : (p.run s).result = .ok reached)
    (succeeded : ¬ reached.failed = true) :
    ∃ last, (p.refusing.run s).result = .ok last ∧ last.failed = true := by
  obtain ⟨e, merged⟩ := Failure.exists_merge?_some s.error
    ⟨s.position, ["expected parser to fail"], .expectation, FailureKind.expectation == .eof⟩
  refine ⟨{ s with error := some e }, ?_, rfl⟩
  rw [Parser.refusing, Run.result_bind_ok _ _ _ ran, if_neg succeeded, failing]
  dsimp only
  rw [merged]
  rfl

/-- A parser that is refused twice gives its verdict alone. -/
theorem refusing_refusing (ran : (p.run s).result = .ok reached) :
    ∃ last, (p.refusing.refusing.run s).result = .ok last ∧
      (last.error = none ↔ reached.error = none) ∧
      (last.error = none → last = s.succeed (.bool true)) := by
  by_cases failed : reached.failed = true
  · obtain ⟨last, refused, missed⟩ :=
      refusing_succeeded (refusing_failed ran failed) Bool.false_ne_true
    obtain ⟨e, found⟩ := last.error_of_failed missed
    obtain ⟨f, standing⟩ := reached.error_of_failed failed
    refine ⟨last, refused, ?_, fun clean => nomatch found.symm.trans clean⟩
    simp only [found, standing, reduceCtorEq]
  · obtain ⟨middle, refused, missed⟩ := refusing_succeeded ran failed
    refine ⟨_, refusing_failed refused missed, ?_, fun _ => rfl⟩
    simp only [State.succeed, reached.error_of_not_failed failed]

/-! ## Alternatives -/

/-- Where a parser fails a look ahead is the same first alternative as the parser: the next one
starts from the same state, and the failures are merged from the same ones. -/
theorem choice_lookAhead_failed (ran : (p.run s).result = .ok reached)
    (failed : reached.failed = true) (q : Parser) :
    (choice p.lookAhead [q]).run s = (choice p [q]).run s := by
  have peeked : (choice p.lookAhead [q]).run s = p.run s >>= fun reached =>
      if reached.failed then attempt s (Failure.merge? none reached.error) q []
      else pure { reached with offset := s.offset, position := s.position } := by
    change attempt s none p.lookAhead [q] = _
    rw [attempt_cons, lookAhead, bind_assoc]
    rfl
  have only : (p.run s).Ensures fun last => last.failed = true := by
    intro last given
    obtain rfl := Except.ok.inj (ran.symm.trans given)
    exact failed
  rw [peeked]
  refine (Run.bind_congr_ensures only fun last missed => ?_).trans (attempt_cons s none p q []).symm
  rw [if_pos missed, if_pos missed]

/-- Where a parser succeeds a choice that looks ahead for it does. -/
theorem choice_lookAhead_succeeded (ran : (p.run s).result = .ok reached)
    (succeeded : ¬ reached.failed = true) (q : Parser) :
    ((choice p.lookAhead [q]).run s).result =
      .ok { reached with offset := s.offset, position := s.position } := by
  have clean : ¬ ({ reached with offset := s.offset, position := s.position } : State).failed =
      true := succeeded
  change (attempt s none p.lookAhead [q]).result = _
  rw [attempt_cons, Run.result_bind_ok _ _ _ (lookAhead_result ran), if_neg clean]
  rfl

/-- A choice fails only behind the failure of its last alternative. -/
theorem choice_failed {q : Parser} {last : State} (ran : (p.run s).result = .ok reached)
    (failed : reached.failed = true) (chose : ((choice p [q]).run s).result = .ok last)
    (missed : last.failed = true) :
    ∃ other, (q.run s).result = .ok other ∧ other.failed = true := by
  change (attempt s none p [q]).result = .ok last at chose
  rw [attempt_cons, Run.result_bind_ok _ _ _ ran, if_pos failed, attempt_nil] at chose
  obtain ⟨other, went, ended⟩ := Run.result_bind_inv _ _ _ chose
  refine ⟨other, went, ?_⟩
  by_contra clean
  rw [if_neg clean] at ended
  obtain rfl := Except.ok.inj ended
  exact clean missed

end Parser

open Descent.Parser

/-- Looking ahead is transparent. In front of the parser it changes neither the state that the
parser succeeds with nor the failure. To refuse the refusal of a parser is to succeed just where the
parser does, with truth and in place. As the first alternative of a choice it fails only where the
parser and the other alternative do, and then the choice is the one with the parser itself. -/
theorem peeking_transparent (built : Built claimsEnd p) (clean : s.error = none)
    (ran : (p.run s).result = .ok reached) (q : Parser) :
    (∃ last, ((chain p.lookAhead [p]).run s).result = .ok last ∧ last.error = reached.error ∧
      (reached.error = none → last = reached)) ∧
    (∃ last, (p.refusing.refusing.run s).result = .ok last ∧
      (last.error = none ↔ reached.error = none) ∧
      (last.error = none → last.value = .bool true ∧ last.offset = s.offset ∧
        last.position = s.position)) ∧
    (reached.error = none →
      ∃ last, ((choice p.lookAhead [q]).run s).result = .ok last ∧ last.error = none) ∧
    ∀ last, ((choice p.lookAhead [q]).run s).result = .ok last → last.failed = true →
      reached.failed = true ∧ (∃ other, (q.run s).result = .ok other ∧ other.failed = true) ∧
        ((choice p [q]).run s).result = .ok last := by
  refine ⟨run_behind_lookAhead built clean ran, ?_, ?_, ?_⟩
  · obtain ⟨last, refused, verdict, inPlace⟩ := refusing_refusing ran
    refine ⟨last, refused, verdict, fun succeeded => ?_⟩
    rw [inPlace succeeded]
    exact ⟨rfl, rfl, rfl⟩
  · intro succeeded
    exact ⟨_, choice_lookAhead_succeeded ran (State.not_failed_of_clean succeeded) q, succeeded⟩
  · intro last chose missed
    by_cases failed : reached.failed = true
    · rw [choice_lookAhead_failed ran failed q] at chose
      exact ⟨failed, choice_failed ran failed chose missed, chose⟩
    · obtain rfl := Except.ok.inj ((choice_lookAhead_succeeded ran failed q).symm.trans chose)
      exact absurd missed failed

/-- Two items from an offset that counts from the end, the first of them a newline: the look ahead
has crossed to the next line, and the parser behind it leaves the state that it leaves alone. -/
theorem peeking_transparent_newline :
    let pair : Parser := chain .token [.token]
    let s : State :=
      { value := .int 7, input := .ofString "a\nbc", offset := -3, position := ⟨4, 2, none⟩ }
    ∃ last, ((chain pair.lookAhead [pair]).run s).result = .ok last ∧
      last.value = .text "b" ∧ last.offset = -1 ∧ last.position = ⟨5, 1, none⟩ := by
  intro pair s
  have built : Built False pair := .chain (.token 1) (List.forall_mem_singleton.mpr (.token 1))
  let reached : State := { s with value := .text "b", offset := -1, position := ⟨5, 1, none⟩ }
  have ran : (pair.run s).result = .ok reached := rfl
  obtain ⟨last, peeked, _, same⟩ := (peeking_transparent built rfl ran .atEnd).1
  obtain rfl := same rfl
  exact ⟨reached, peeked, rfl, rfl, rfl⟩

end Descent
