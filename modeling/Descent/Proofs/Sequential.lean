import Descent.Parser.Characters

/-!
# Classes of parsers that are closed under sequencing

Most combinators only put parsers in order: they run one after the other and combine the values.
All of these come down to a few constructors, binding above all. A class of parsers that has the
constructors has the combinators too, whatever else it admits, and this is shown here once for all
such classes. Functions that a grammar supplies are arbitrary and may fault.
-/

namespace Descent

/-- A parser that leaves a note before it is run. -/
def Parser.noted (n : Note) (p : Parser) : Parser where
  name := p.name
  run s := do
    Run.note n
    p.run s

/-- All steps of a script are parsers of a class, and wherever it ends a condition holds. -/
def Script.Uses (kind : Parser → Prop) {α : Type} (ends : α → Prop) : Script α → Prop
  | .done a => ends a
  | .step p next => kind p ∧ ∀ v, (next v).Uses kind ends
  | .note _ next => next.Uses kind ends
  | .halt _ => True

namespace Script

variable {kind : Parser → Prop} {α β : Type} {p : Parser}

/-- Scripts one after the other use the parsers of both. -/
theorem uses_bind {script : Script α} {next : α → Script β} {middle : α → Prop} {ends : β → Prop}
    (before : script.Uses kind middle) (after : ∀ a, middle a → (next a).Uses kind ends) :
    (script >>= next).Uses kind ends := by
  change (script.andThen next).Uses kind ends
  induction script with
  | done a => exact after a before
  | step p rest inductionHypothesis =>
    exact ⟨before.1, fun v => inductionHypothesis v (before.2 v)⟩
  | note n rest inductionHypothesis => exact inductionHypothesis before
  | halt fault => exact trivial

/-- A step gives a value. -/
theorem uses_parse (member : kind p) : (Script.parse p).Uses kind fun _ => True :=
  ⟨member, fun _ => trivial⟩

/-- A step for a text either gives one or faults. -/
theorem uses_text (member : kind p) : (Script.text p).Uses kind fun _ => True := by
  refine ⟨member, fun v => ?_⟩
  dsimp only
  cases v.text? <;> exact trivial

/-- A step for a whole number either gives one or faults. -/
theorem uses_int (member : kind p) : (Script.int p).Uses kind fun _ => True := by
  refine ⟨member, fun v => ?_⟩
  dsimp only
  cases v.int? <;> exact trivial

/-- A check either passes or faults. -/
theorem uses_ofExcept (checked : Except Fault α) :
    (Script.ofExcept checked).Uses kind fun _ => True := by
  cases checked <;> exact trivial

/-- A step for a list either gives one or faults. -/
theorem uses_items (member : kind p) : (Script.items p).Uses kind fun _ => True := by
  refine ⟨member, fun v => ?_⟩
  dsimp only
  cases v.items? <;> exact trivial

end Script

/-! ## Repetition a given number of times -/

/-- The harvest with values found before it in front. They are given in reverse. -/
def Harvest.after (values : List Value) (h : Harvest) : Harvest :=
  { h with values := values.reverse ++ h.values }

/-- Rounds of a plain repetition gather the values of so many parsers in order. The values found
before are carried along, by induction on the number of rounds left. -/
theorem Parser.roundsUpTo_gathers (p : Parser) (left : Nat) (values : List Value) (s : State) :
    (roundsUpTo (roundOf p) left s >>= fun h =>
        pure ((h.after values).settle (.finite (values.length + left)))) =
      gatherAfter values (List.replicate left p) s := by
  induction left generalizing values s with
  | zero => simp [roundsUpTo, gatherAfter, Harvest.after, Harvest.empty, Harvest.settle]
  | succ left inductionHypothesis =>
    simp only [roundsUpTo, roundOf, List.replicate_succ, gatherAfter, bind_assoc, pure_bind]
    congr 1
    funext reached
    by_cases failed : reached.failed = true
    · simp [failed, Harvest.after, Harvest.empty, Harvest.settle, Limit.exceeds]
    · have longer := inductionHypothesis (reached.value :: values) reached
      have count : (reached.value :: values).length + left = values.length + (left + 1) := by
        simp only [List.length_cons]
        omega
      have moved : ∀ h : Harvest,
          (h.cons reached.value).after values = h.after (reached.value :: values) := by
        intro h
        simp [Harvest.after, Harvest.cons]
      rw [count] at longer
      simp only [failed, Bool.false_eq_true, if_false, bind_assoc, pure_bind, moved]
      exact longer

/-- Repeating a parser a given number of times is gathering so many of it. -/
theorem Parser.run_collect_exactly (p : Parser) (n : Nat) :
    (p.collect (.exactly n)).run = gatherAfter [] (List.replicate n p) := by
  funext s
  have gathers := roundsUpTo_gathers p n [] s
  rwa [List.length_nil, Nat.zero_add] at gathers

/-- A class of parsers that has the constructors for parsers in order. Names do not matter. -/
structure Sequential (kind : Parser → Prop) : Prop where
  renamed : ∀ {p q : Parser}, kind p → q.run = p.run → kind q
  succeed : ∀ v, kind (Parser.succeed v)
  raising : ∀ fault, kind (Parser.raising fault)
  refusal : ∀ message, kind (Parser.failing message)
  token : ∀ count, kind (Parser.token count)
  bind : ∀ {p : Parser} {next : Value → Parser}, kind p → (∀ v, kind (next v)) → kind (p.bind next)
  label : ∀ {p : Parser} (expected : String), kind p → kind (p.label expected)
  noted : ∀ {p : Parser} (n : Note), kind p → kind (p.noted n)

namespace Sequential

variable {kind : Parser → Prop} {p q : Parser}

/-! ## Values -/

theorem map (closed : Sequential kind) (f : Value → Except Fault Value) (member : kind p) :
    kind (p.map f) := by
  apply closed.bind member
  intro v
  cases f v with
  | ok w => exact closed.succeed w
  | error fault => exact closed.raising fault

theorem tagged (closed : Sequential kind) (key : Value) (member : kind p) :
    kind (p.tagged key) :=
  closed.map _ member

theorem satisfying (closed : Sequential kind) (test : Value → Except Fault Bool)
    (member : kind p) : kind (Parser.satisfying test p) := by
  apply closed.bind member
  intro v
  cases test v with
  | error fault => exact closed.raising fault
  | ok passed =>
    cases passed with
    | true => exact closed.succeed v
    | false => exact closed.refusal _

theorem rejecting (closed : Sequential kind) (test : Value → Except Fault Bool)
    (member : kind p) : kind (Parser.rejecting test p) :=
  closed.satisfying _ member

theorem inRange (closed : Sequential kind) (first last : Value) (comparison : Comparison)
    (member : kind p) : kind (Parser.inRange first last p comparison) :=
  closed.label _ (closed.satisfying _ member)

/-! ## Parsers in order -/

theorem chain (closed : Sequential kind) {more : List Parser} (first : kind p)
    (others : ∀ next ∈ more, kind next) : kind (Parser.chain p more) := by
  induction more generalizing p with
  | nil => exact closed.renamed first (funext fun s => Parser.run_chain_nil p s)
  | cons next later inductionHypothesis =>
    have rest : kind (Parser.chain next later) :=
      inductionHypothesis (others next List.mem_cons_self) fun q member =>
        others q (List.mem_cons_of_mem next member)
    exact closed.renamed (closed.bind first fun _ => rest) rfl

/-- The values of parsers in order, after those that are there already. -/
theorem gatherAfter (closed : Sequential kind) (values : List Value) {parts : List Parser}
    (all : ∀ part ∈ parts, kind part) : kind ⟨"join", Parser.gatherAfter values parts⟩ := by
  induction parts generalizing values with
  | nil => exact closed.renamed (closed.succeed (.list values.reverse)) rfl
  | cons part rest inductionHypothesis =>
    have others : ∀ v, kind ⟨"join", Parser.gatherAfter (v :: values) rest⟩ := fun v =>
      inductionHypothesis (v :: values) fun q member => all q (List.mem_cons_of_mem part member)
    exact closed.renamed (closed.bind (all part List.mem_cons_self) others) rfl

theorem gather (closed : Sequential kind) {more : List Parser}
    (all : ∀ part ∈ p :: more, kind part) : kind (Parser.gather p more) :=
  closed.gatherAfter [] all

theorem followedBy (closed : Sequential kind) {more : List Parser} (first : kind p)
    (second : kind q) (others : ∀ next ∈ more, kind next) : kind (p.followedBy q more) :=
  closed.bind first fun v => closed.bind (closed.chain second others) fun _ => closed.succeed v

theorem between (closed : Sequential kind) {opening closing : Parser} (opened : kind opening)
    (ended : kind closing) (member : kind p) : kind (Parser.between opening closing p) :=
  closed.chain opened
    (List.forall_mem_singleton.mpr (closed.followedBy member ended (List.forall_mem_nil _)))

theorem exactly (closed : Sequential kind) (n : Nat) (member : kind p) :
    kind (p.collect (.exactly n)) :=
  closed.renamed (closed.gatherAfter [] fun _ part => List.eq_of_mem_replicate part ▸ member)
    (Parser.run_collect_exactly p n)

/-! ## Scripts -/

/-- A script of parsers of the class that ends with one of them. -/
theorem script (closed : Sequential kind) (name : String) {body : Script Parser}
    (uses : body.Uses kind kind) : kind (Parser.script name body) := by
  induction body with
  | done p => exact closed.renamed uses rfl
  | step p next inductionHypothesis =>
    have rest : ∀ v, kind (Parser.script name (next v)) := fun v =>
      inductionHypothesis v (uses.2 v)
    exact closed.renamed (closed.bind uses.1 rest) rfl
  | note n next inductionHypothesis =>
    exact closed.renamed (closed.noted n (inductionHypothesis uses)) rfl
  | halt fault => exact closed.renamed (closed.raising fault) rfl

theorem spelling (closed : Sequential kind) (casing : Casing) (matched : String)
    (wanted : List Char) : (Parser.spelling casing matched wanted).Uses kind kind := by
  induction wanted generalizing matched with
  | nil => exact closed.succeed (.text matched)
  | cons expected rest inductionHypothesis =>
    apply Script.uses_bind (Script.uses_text (closed.satisfying _ (closed.token 1)))
    intro item _
    exact inductionHypothesis (matched ++ item)

theorem literal (closed : Sequential kind) (wanted : String) (casing : Casing) :
    kind (Parser.literal wanted casing) :=
  closed.label _ (closed.script _ (closed.spelling casing "" _))

end Sequential
end Descent
