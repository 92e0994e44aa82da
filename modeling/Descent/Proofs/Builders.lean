import Descent.Proofs.Iteration
import Mathlib.Logic.Relation

/-!
# Builders

A builder is a grammar written as a row of steps: run a parser that depends on the values read so
far, leave a note, or end early if a condition holds. What it stands for is said in three ways. As
a script it is taken step by step, and what is left of it waits for the value of the parser that
it runs. As a nest of binds it is a parser made of closures. As a course it is a row of stages,
each with the steps that are left, the values, the state reached and the notes made.

The three agree on every state, and since a stage is all that there is to remember, a builder that
is run again starts with all of its steps and no values.
-/

namespace Descent

open Relation (ReflTransGen)

/-- A step of a builder. It may depend on the values that the parsers of the earlier steps gave, in
order, and what it depends on them by may fault. -/
inductive Builder.Step where
  | run (parser : List Value → Except Fault Parser)
  | note (made : List Value → Except Fault Note)
  | returnIf (test : List Value → Except Fault Bool) (early : List Value → Except Fault Parser)

/-- A grammar as a row of steps, and the parser that gives the final result. -/
structure Builder where
  steps : List Builder.Step
  result : List Value → Except Fault Parser

namespace Script

/-- Taking the steps of a script in turn is running the binds that it stands for. -/
theorem run_toBind (body : Script Parser) : body.toBind.run = body.runFrom := by
  induction body with
  | done p => rfl
  | step p next inductionHypothesis =>
    funext s
    simp only [toBind, Parser.bind, runFrom, inductionHypothesis]
  | note n next inductionHypothesis =>
    funext s
    simp only [toBind, runFrom, inductionHypothesis]
  | halt fault => rfl

end Script

/-- The parser that a function of values gave, or the fault it stopped with. -/
def Parser.given : Except Fault Parser → Parser
  | .ok p => p
  | .error fault => raising fault

namespace Builder

variable {b : Builder}

/-! ## Three meanings -/

/-- The script of some steps behind values that are there already. -/
def scriptFrom (b : Builder) : List Step → List Value → Script Parser
  | [], values => Script.ofExcept (b.result values)
  | .run parser :: rest, values => do
    let p ← Script.ofExcept (parser values)
    let v ← Script.parse p
    b.scriptFrom rest (values ++ [v])
  | .note made :: rest, values => do
    let n ← Script.ofExcept (made values)
    .note n (b.scriptFrom rest values)
  | .returnIf test early :: rest, values => do
    if ← Script.ofExcept (test values) then Script.ofExcept (early values)
    else b.scriptFrom rest values

/-- The script of a builder. -/
def script (b : Builder) : Script Parser := b.scriptFrom b.steps []

/-- The nest of binds for some steps behind values that are there already. -/
def nestedFrom (b : Builder) : List Step → List Value → Parser
  | [], values => .given (b.result values)
  | .run parser :: rest, values =>
    (Parser.given (parser values)).bind fun v => b.nestedFrom rest (values ++ [v])
  | .note made :: rest, values =>
    match made values with
    | .ok n => (b.nestedFrom rest values).noted n
    | .error fault => .raising fault
  | .returnIf test early :: rest, values =>
    match test values with
    | .ok true => .given (early values)
    | .ok false => b.nestedFrom rest values
    | .error fault => .raising fault

/-- The nest of binds of a builder. -/
def nested (b : Builder) : Parser := b.nestedFrom b.steps []

/-- A builder in the midst of a run: the steps that are left, the values so far, the state reached
and the notes made. -/
structure Stage where
  left : List Step
  values : List Value
  reached : State
  notes : List Note

/-- A builder that is about to start on a state. -/
def start (b : Builder) (s : State) : Stage := ⟨b.steps, [], s, []⟩

/-- A step is behind, and the run goes on. A parser has succeeded, a note was made, or a condition
to return did not hold. -/
inductive Advances : Stage → Stage → Prop where
  | ran {parser : List Value → Except Fault Parser} {rest : List Step} {values : List Value}
      {s reached : State} {notes made : List Note} {p : Parser} (chosen : parser values = .ok p)
      (went : p.run s = ⟨made, .ok reached⟩) (succeeded : reached.error = none) :
      Advances ⟨.run parser :: rest, values, s, notes⟩
        ⟨rest, values ++ [reached.value], reached, notes ++ made⟩
  | noted {made : List Value → Except Fault Note} {rest : List Step} {values : List Value}
      {s : State} {notes : List Note} {n : Note} (chosen : made values = .ok n) :
      Advances ⟨.note made :: rest, values, s, notes⟩ ⟨rest, values, s, notes ++ [n]⟩
  | stayed {test : List Value → Except Fault Bool} {early : List Value → Except Fault Parser}
      {rest : List Step} {values : List Value} {s : State} {notes : List Note}
      (passed : test values = .ok false) :
      Advances ⟨.returnIf test early :: rest, values, s, notes⟩ ⟨rest, values, s, notes⟩

/-- The run ends where it is, with all the notes made and a state. A parser has failed, a condition
to return holds, or no steps are left. -/
inductive Ends (b : Builder) : Stage → List Note → State → Prop where
  | failed {parser : List Value → Except Fault Parser} {rest : List Step} {values : List Value}
      {s reached : State} {notes made : List Note} {p : Parser} (chosen : parser values = .ok p)
      (went : p.run s = ⟨made, .ok reached⟩) (refused : reached.failed = true) :
      b.Ends ⟨.run parser :: rest, values, s, notes⟩ (notes ++ made) reached
  | returned {test : List Value → Except Fault Bool} {early : List Value → Except Fault Parser}
      {rest : List Step} {values : List Value} {s reached : State} {notes made : List Note}
      {p : Parser} (passed : test values = .ok true) (chosen : early values = .ok p)
      (went : p.run s = ⟨made, .ok reached⟩) :
      b.Ends ⟨.returnIf test early :: rest, values, s, notes⟩ (notes ++ made) reached
  | finished {values : List Value} {s reached : State} {notes made : List Note} {p : Parser}
      (chosen : b.result values = .ok p) (went : p.run s = ⟨made, .ok reached⟩) :
      b.Ends ⟨[], values, s, notes⟩ (notes ++ made) reached

/-- A whole course from a state: all the notes it makes and the state it ends in. -/
def Course (b : Builder) (s : State) (notes : List Note) (r : State) : Prop :=
  ∃ last, ReflTransGen Advances (b.start s) last ∧ b.Ends last notes r

/-- Courses one after another, each from the state that the one before has ended in. -/
inductive Courses (b : Builder) : State → List State → List Note → Prop where
  | none {s : State} : b.Courses s [] []
  | more {s reached : State} {states : List State} {made notes : List Note}
      (course : b.Course s made reached) (succeeded : reached.error = .none)
      (later : b.Courses reached states notes) : b.Courses s (reached :: states) (made ++ notes)

/-! ## The script is the nest of binds -/

/-- A check in front of a script is a parser that may be a fault. -/
theorem toBind_given (given : Except Fault Parser) :
    (Script.ofExcept given).toBind = Parser.given given := by
  cases given <;> rfl

/-- Step by step the binds of the script are those of the nest. -/
theorem toBind_scriptFrom (b : Builder) (steps : List Step) (values : List Value) :
    (b.scriptFrom steps values).toBind.run = (b.nestedFrom steps values).run := by
  induction steps generalizing values with
  | nil => rw [scriptFrom, nestedFrom, toBind_given]
  | cons step rest inductionHypothesis =>
    cases step with
    | run parser =>
      rw [scriptFrom, nestedFrom]
      cases parser values with
      | error fault => rfl
      | ok p =>
        funext s
        change (p.bind fun v => (b.scriptFrom rest (values ++ [v])).toBind).run s = _
        simp only [Parser.bind, inductionHypothesis, Parser.given]
    | note made =>
      rw [scriptFrom, nestedFrom]
      cases made values with
      | error fault => rfl
      | ok n =>
        funext s
        change (Run.note n >>= fun _ => (b.scriptFrom rest values).toBind.run s) = _
        rw [inductionHypothesis]
        rfl
    | returnIf test early =>
      rw [scriptFrom, nestedFrom]
      cases test values with
      | error fault => rfl
      | ok passed =>
        cases passed with
        | true => exact congrArg Parser.run (toBind_given (early values))
        | false => exact inductionHypothesis values

/-- The parser that takes the steps of a builder is its nest of binds. -/
theorem run_script (b : Builder) (name : String) :
    (Parser.script name b.script).run = b.nested.run := by
  have taken : (Parser.script name b.script).run = b.script.runFrom := rfl
  rw [taken, ← Script.run_toBind]
  exact b.toBind_scriptFrom b.steps []

/-! ## Stages of a run -/

/-- What is still to come at a stage, behind the notes that were made. -/
def whole (b : Builder) (stage : Stage) : Run State :=
  ((b.nestedFrom stage.left stage.values).run stage.reached).behind stage.notes

/-- One step further the whole run is still the same. -/
theorem Advances.whole {stage next : Stage} (step : Advances stage next) :
    b.whole stage = b.whole next := by
  cases step with
  | @ran parser rest values s reached notes made p chosen went succeeded =>
    have open_state : ¬ reached.failed = true := by simp [State.failed, succeeded]
    simp only [Builder.whole, nestedFrom, chosen, Parser.given, Parser.bind]
    rw [went, Run.bind_done, if_neg open_state, Run.behind_behind]
  | @noted made rest values s notes n chosen =>
    have bound : ((b.nestedFrom rest values).noted n).run s =
        ((b.nestedFrom rest values).run s).behind [n] := rfl
    simp only [Builder.whole, nestedFrom, chosen]
    rw [bound, Run.behind_behind]
  | stayed passed => simp only [Builder.whole, nestedFrom, passed]

/-- Where a run ends, what was still to come is its end. -/
theorem Ends.whole {stage : Stage} {notes : List Note} {r : State} (ends : b.Ends stage notes r) :
    b.whole stage = ⟨notes, .ok r⟩ := by
  cases ends with
  | @failed parser rest values s reached notes made p chosen went refused =>
    simp only [Builder.whole, nestedFrom, chosen, Parser.given, Parser.bind]
    rw [went, Run.bind_done, if_pos refused]
    simp [Run.behind, Run.pure_eq]
  | returned passed chosen went =>
    simp only [Builder.whole, nestedFrom, passed, chosen, Parser.given, went, Run.behind]
  | finished chosen went =>
    simp only [Builder.whole, nestedFrom, chosen, Parser.given, went, Run.behind]

/-- A stage from which the run gives a state is its last one, or a step is taken there. -/
theorem ends_or_advances (stage : Stage) {notes : List Note} {r : State}
    (given : b.whole stage = ⟨notes, .ok r⟩) :
    b.Ends stage notes r ∨ ∃ next, Advances stage next := by
  rcases stage with ⟨left, values, s, before⟩
  obtain ⟨later, rest, rfl⟩ := Run.behind_inv _ _ _ _ given
  clear given
  cases left with
  | nil =>
    dsimp only [nestedFrom] at rest
    cases chosen : b.result values with
    | error fault =>
      rw [chosen] at rest
      cases rest
    | ok p =>
      rw [chosen] at rest
      exact .inl (.finished chosen rest)
  | cons step steps =>
    cases step with
    | run parser =>
      dsimp only [nestedFrom] at rest
      cases chosen : parser values with
      | error fault =>
        rw [chosen] at rest
        cases rest
      | ok p =>
        rw [chosen] at rest
        simp only [Parser.given, Parser.bind] at rest
        rcases went : p.run s with ⟨made, fault | reached⟩
        · rw [went] at rest
          cases rest
        · rw [went, Run.bind_done] at rest
          by_cases refused : reached.failed = true
          · rw [if_pos refused] at rest
            obtain ⟨none, same, rfl⟩ := Run.behind_inv _ _ _ _ rest
            cases same
            rw [List.append_nil]
            exact .inl (.failed chosen went refused)
          · exact .inr ⟨_, .ran chosen went (reached.error_of_not_failed refused)⟩
    | note made =>
      cases chosen : made values with
      | error fault =>
        simp only [nestedFrom, chosen] at rest
        cases rest
      | ok n => exact .inr ⟨_, .noted chosen⟩
    | returnIf test early =>
      cases passed : test values with
      | error fault =>
        simp only [nestedFrom, passed] at rest
        cases rest
      | ok holds =>
        cases holds with
        | false => exact .inr ⟨_, .stayed passed⟩
        | true =>
          simp only [nestedFrom, passed] at rest
          cases chosen : early values with
          | error fault =>
            rw [chosen] at rest
            cases rest
          | ok p =>
            rw [chosen] at rest
            exact .inl (.returned passed chosen rest)

/-- Each step leaves fewer of them. -/
theorem Advances.fewer {stage next : Stage} (step : Advances stage next) :
    next.left.length < stage.left.length := by
  cases step <;> exact Nat.lt_succ_self _

/-- A run that gives a state comes to a stage where it ends, by induction on the steps left. -/
theorem exists_end (stage : Stage) {notes : List Note} {r : State}
    (given : b.whole stage = ⟨notes, .ok r⟩) :
    ∃ last, ReflTransGen Advances stage last ∧ b.Ends last notes r := by
  induction size : stage.left.length using Nat.strongRecOn generalizing stage with
  | ind length inductionHypothesis =>
    rcases ends_or_advances stage given with ends | ⟨next, step⟩
    · exact ⟨stage, .refl, ends⟩
    · obtain ⟨last, further, ends⟩ :=
        inductionHypothesis _ (size ▸ step.fewer) next (step.whole ▸ given) rfl
      exact ⟨last, .head step further, ends⟩

/-- Along a row of steps the whole run stays the same. -/
theorem whole_of_advances {stage last : Stage} (further : ReflTransGen Advances stage last) :
    b.whole stage = b.whole last := by
  induction further with
  | refl => rfl
  | tail _ step inductionHypothesis => exact inductionHypothesis.trans step.whole

/-- A run gives a state just when some stage that it comes to is where it ends in that state. -/
theorem run_nested_iff (s r : State) (notes : List Note) :
    b.nested.run s = ⟨notes, .ok r⟩ ↔ b.Course s notes r := by
  have whole : b.whole (b.start s) = b.nested.run s := Run.behind_nil _
  constructor
  · intro given
    exact exists_end _ (whole.trans given)
  · rintro ⟨last, further, ends⟩
    rw [← whole, whole_of_advances further, ends.whole]

theorem run_script_iff (name : String) (s r : State) (notes : List Note) :
    (Parser.script name b.script).run s = ⟨notes, .ok r⟩ ↔ b.Course s notes r := by
  rw [run_script]
  exact run_nested_iff s r notes

/-! ## Running a builder again -/

/-- Applications of a builder in a row are courses in a row. -/
theorem Courses.succeeds {s : State} {states : List State} {notes : List Note}
    (courses : b.Courses s states notes) (name : String) :
    (Parser.script name b.script).Succeeds s states notes := by
  induction courses with
  | none => exact .none
  | more course succeeded later inductionHypothesis =>
    exact .more ((run_script_iff name _ _ _).mpr course) succeeded inductionHypothesis

/-- A course after backtracking is one from the state where the choice began. -/
theorem Course.backtracks {s tried r : State} {first notes : List Note} {p : Parser}
    (went : p.run s = ⟨first, .ok tried⟩) (failed : tried.failed = true)
    (course : b.Course s notes r) (name : String) :
    (Parser.choice p [Parser.script name b.script]).run s = ⟨first ++ notes,
      .ok (if r.failed then { r with error := Failure.merge? tried.error r.error } else r)⟩ := by
  have again := (run_script_iff name s r notes).mpr course
  have opened : (Parser.choice p [Parser.script name b.script]).run s =
      Parser.attempt s none p [Parser.script name b.script] := rfl
  rw [opened, Parser.attempt_cons, went, Run.bind_done, if_pos failed, Parser.attempt_nil, again,
    Run.bind_done, Failure.merge?_none_left]
  split <;> simp only [Run.behind, Run.pure_eq, List.append_nil]

end Builder

/-- A builder of any number of steps is the nest of binds that it stands for: on every state the two
runs are equal, in their results and notes. A run gives a state just when its course ends there,
with the notes of the steps that it has passed in order and nothing of what comes after a failure or
an early end. A builder that is run again starts afresh. After backtracking from whatever came
behind a first run, it takes a course from the state where the choice began, and in a repetition it
takes one from each state that the one before has left. -/
theorem builder_nests_binds (b : Builder) (name : String) :
    let p := Parser.script name b.script
    (∀ s, p.run s = b.nested.run s) ∧
    (∀ s notes r, p.run s = ⟨notes, .ok r⟩ ↔ b.Course s notes r) ∧
    (∀ s later first tried notes r, (Parser.chain p later).run s = ⟨first, .ok tried⟩ →
      tried.failed = true → b.Course s notes r →
        (Parser.choice (Parser.chain p later) [p]).run s = ⟨first ++ notes,
          .ok (if r.failed then { r with error := Failure.merge? tried.error r.error } else r)⟩) ∧
    ∀ s states notes, b.Courses s states notes →
      (p.collect (.exactly states.length)).run s = ⟨notes, .ok (s.holding states)⟩ := by
  intro p
  refine ⟨congrFun (b.run_script name), fun s notes r => Builder.run_script_iff name s r notes,
    fun s later first tried notes r went failed course => course.backtracks went failed name,
    fun s states notes courses => (courses.succeeds name).exactly⟩

/-- An item, a note of the values so far, and an early end if the item is a certain letter. -/
example :
    let first : List Value → Option String := fun values => values.head?.bind Value.text?
    (Parser.script "item" (Builder.script
      { steps := [.run fun _ => .ok (.token 1), .note fun values => .ok (.mark (.list values)),
          .returnIf (fun values => .ok (first values == some "a")) fun _ => .ok (.succeed (.int 1))]
        result := fun _ => .ok (.token 1) })).run { value := .absent, input := .ofString "ab" } =
      ⟨[.mark (.list [.text "a"])], .ok
        { value := .int 1, input := .ofString "ab", offset := 1, position := ⟨1, 1, none⟩ }⟩ := rfl

end Descent
