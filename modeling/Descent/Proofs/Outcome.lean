import Descent.Run

/-!
# Outcomes of runs

Two ways to speak about runs without looking inside them: what every result of one run satisfies,
and how the outcomes of two runs correspond. A fault satisfies anything, so that a run may be
said to end without one only apart from this; two runs correspond when both stop with one fault,
or both give results that are related. Either statement about a sequence of runs follows from
those about its parts. Notes play no role in them; where they matter, a run that goes on is what
comes next, behind the notes made so far.
-/

namespace Descent.Run

variable {α β γ δ : Type}

/-- Every result of a run satisfies a condition. -/
def Ensures (run : Run α) (post : α → Prop) : Prop := ∀ a, run.result = .ok a → post a

/-- Two runs stop with the same fault, or have results that are related. -/
inductive Corresponds (related : α → β → Prop) (first : Run α) (second : Run β) : Prop where
  | faulted (fault : Fault) (left : first.result = .error fault)
      (right : second.result = .error fault)
  | ended (a : α) (b : β) (left : first.result = .ok a) (right : second.result = .ok b)
      (together : related a b)

/-- A run that gives a result goes on with it. -/
theorem result_bind_ok (first : Run α) (next : α → Run β) (a : α)
    (given : first.result = .ok a) : (first >>= next).result = (next a).result := by
  rw [result_bind, given]
  rfl

/-- A run that faults goes no further. -/
theorem result_bind_error (first : Run α) (next : α → Run β) (fault : Fault)
    (given : first.result = .error fault) : (first >>= next).result = .error fault := by
  rw [result_bind, given]
  rfl

/-- A note before a run does not change its result. -/
theorem result_note (n : Note) (next : Unit → Run α) :
    (Run.note n >>= next).result = (next ()).result :=
  result_bind_ok (Run.note n) next () rfl

/-- A sequence with a result has one after each of its parts. -/
theorem result_bind_inv (first : Run α) (next : α → Run β) (b : β)
    (given : (first >>= next).result = .ok b) :
    ∃ a, first.result = .ok a ∧ (next a).result = .ok b := by
  cases reached : first.result with
  | error fault =>
    rw [result_bind_error first next fault reached] at given
    cases given
  | ok a =>
    rw [result_bind_ok first next a reached] at given
    exact ⟨a, rfl, given⟩

theorem ensures_pure (a : α) (post : α → Prop) (holds : post a) :
    (pure a : Run α).Ensures post := by
  intro given same
  exact Except.ok.inj same ▸ holds

theorem ensures_raise (fault : Fault) (post : α → Prop) :
    (Run.raise fault : Run α).Ensures post := by
  intro given impossible
  cases impossible

/-- What a run ensures is all that the next one needs. -/
theorem ensures_bind (first : Run α) (next : α → Run β) (middle : α → Prop) (post : β → Prop)
    (before : first.Ensures middle) (after : ∀ a, middle a → (next a).Ensures post) :
    (first >>= next).Ensures post := by
  intro b given
  obtain ⟨a, reached, rest⟩ := result_bind_inv first next b given
  exact after a (before a reached) b rest

/-- Only what a run ensures matters to what goes on with its result. -/
theorem bind_congr_ensures {first : Run α} {next other : α → Run β} {post : α → Prop}
    (before : first.Ensures post) (same : ∀ a, post a → next a = other a) :
    first >>= next = first >>= other := by
  rcases first with ⟨notes, fault | a⟩
  · rfl
  · rw [bind_eq, bind_eq, andThen, andThen]
    simp only [same a (before a rfl)]

/-- A note before a run does not change what it ensures. -/
theorem ensures_note (n : Note) (next : Unit → Run α) (post : α → Prop)
    (after : (next ()).Ensures post) : (Run.note n >>= next).Ensures post :=
  ensures_bind (Run.note n) next (fun _ => True) post (fun _ _ => trivial) fun _ _ => after

theorem corresponds_pure (related : α → β → Prop) (a : α) (b : β) (together : related a b) :
    Corresponds related (pure a) (pure b) :=
  .ended a b rfl rfl together

theorem corresponds_raise (related : α → β → Prop) (fault : Fault) :
    Corresponds related (Run.raise fault) (Run.raise fault) :=
  .faulted fault rfl rfl

/-- Runs that correspond may be followed by runs that correspond wherever the results of the
first ones are related. -/
theorem corresponds_bind (middle : α → β → Prop) (related : γ → δ → Prop) (first : Run α)
    (second : Run β) (next : α → Run γ) (other : β → Run δ)
    (before : Corresponds middle first second)
    (after : ∀ a b, middle a b → Corresponds related (next a) (other b)) :
    Corresponds related (first >>= next) (second >>= other) := by
  cases before with
  | faulted fault left right =>
    exact .faulted fault (result_bind_error first next fault left)
      (result_bind_error second other fault right)
  | ended a b left right together =>
    have sameFirst := result_bind_ok first next a left
    have sameSecond := result_bind_ok second other b right
    cases after a b together with
    | faulted fault leftNext rightNext =>
      exact .faulted fault (sameFirst.trans leftNext) (sameSecond.trans rightNext)
    | ended c d leftNext rightNext relatedNext =>
      exact .ended c d (sameFirst.trans leftNext) (sameSecond.trans rightNext) relatedNext

/-- Notes before two runs do not change how they correspond. -/
theorem corresponds_note (related : α → β → Prop) (m n : Note) (next : Unit → Run α)
    (other : Unit → Run β) (after : Corresponds related (next ()) (other ())) :
    Corresponds related (Run.note m >>= next) (Run.note n >>= other) :=
  corresponds_bind (fun _ _ => True) related _ _ next other (.ended () () rfl rfl trivial)
    fun _ _ _ => after

/-- What each of two runs ensures may be added to what relates their results. -/
theorem Corresponds.ensuring {related : α → β → Prop} {first : Run α} {second : Run β}
    (both : Corresponds related first second) {left : α → Prop} {right : β → Prop}
    (ofFirst : first.Ensures left) (ofSecond : second.Ensures right) :
    Corresponds (fun a b => related a b ∧ left a ∧ right b) first second := by
  cases both with
  | faulted fault leftFault rightFault => exact .faulted fault leftFault rightFault
  | ended a b leftResult rightResult together =>
    exact .ended a b leftResult rightResult
      ⟨together, ofFirst a leftResult, ofSecond b rightResult⟩

/-- A weaker relation between results is enough for a weaker correspondence. -/
theorem Corresponds.mono {related wider : α → β → Prop} {first : Run α} {second : Run β}
    (both : Corresponds related first second) (weaken : ∀ a b, related a b → wider a b) :
    Corresponds wider first second := by
  cases both with
  | faulted fault left right => exact .faulted fault left right
  | ended a b left right together => exact .ended a b left right (weaken a b together)

/-! ## Notes made before -/

/-- A run with notes that were made before it. -/
def behind (run : Run α) (notes : List Note) : Run α := ⟨notes ++ run.notes, run.result⟩

/-- Nothing was noted before. -/
theorem behind_nil (run : Run α) : run.behind [] = run := rfl

/-- Notes made before notes made before. -/
theorem behind_behind (run : Run α) (first second : List Note) :
    (run.behind second).behind first = run.behind (first ++ second) := by
  simp only [behind, List.append_assoc]

/-- A run that has a result behind notes has it, and its own notes come last. -/
theorem behind_inv (run : Run α) (notes all : List Note) (result : Except Fault α)
    (given : run.behind notes = ⟨all, result⟩) :
    ∃ made, run = ⟨made, result⟩ ∧ all = notes ++ made := by
  cases given
  exact ⟨run.notes, rfl, rfl⟩

/-- A run with a result is its notes and that result. -/
theorem eq_of_result {run : Run α} {result : Except Fault α}
    (given : run.result = result) : run = ⟨run.notes, result⟩ := by
  rw [← given]

/-- A run that has given a result goes on behind its notes. -/
theorem bind_done (notes : List Note) (a : α) (next : α → Run β) :
    ((⟨notes, .ok a⟩ : Run α) >>= next) = (next a).behind notes := rfl

/-- A run that has stopped with a fault goes no further. -/
theorem bind_stopped (notes : List Note) (fault : Fault) (next : α → Run β) :
    ((⟨notes, .error fault⟩ : Run α) >>= next) = ⟨notes, .error fault⟩ := rfl

/-- What goes on behind notes leaves them where they are. -/
theorem behind_bind (run : Run α) (notes : List Note) (next : α → Run β) :
    run.behind notes >>= next = (run >>= next).behind notes := by
  rcases run with ⟨made, result⟩
  cases result with
  | error fault => rfl
  | ok a => simp only [behind, bind_done, List.append_assoc]

end Descent.Run
