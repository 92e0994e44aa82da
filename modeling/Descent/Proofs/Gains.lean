import Descent.Proofs.Settling
import Mathlib.Data.List.Forall2

/-!
# Parsers that end on every text

For a run to end without a fault it has to be known of each part how many characters it takes at
least, and what kind of value it gives. The first keeps repetitions and rules inside themselves
going on; the second keeps functions of values within what they are defined on. Both are found
along the structure of a grammar: in order, takings add up; between alternatives, the least counts.

A rule that refers to itself is used inside itself only where fewer characters are left. Therefore
all of this is said of texts up to some length, which goes down as characters are taken.
-/

namespace Descent

variable {whole : Array Char} {below least more : Nat} {kind other wider : Value → Prop} {v : Value}
  {p q separator : Parser}

/-- On texts with fewer than so many characters, a parser ends. If it succeeds then it takes at
least so many characters and gives a value of some kind. -/
def Parser.Gains (p : Parser) (whole : Array Char) (below least : Nat) (kind : Value → Prop) :
    Prop :=
  ∀ chars : List Char, chars.length < below →
    p.Settles whole chars fun v rest => rest.length + least ≤ chars.length ∧ kind v

namespace Value

/-- Anything at all. -/
def Any (_ : Value) : Prop := True

/-- A text of which something is known. -/
def IsText (known : String → Prop) (v : Value) : Prop := ∃ t, v = .text t ∧ known t

/-- A whole number. -/
def IsInt (v : Value) : Prop := ∃ n, v = .int n

/-- A list of values of a kind. -/
def IsListOf (kind : Value → Prop) (v : Value) : Prop :=
  ∃ items, v = .list items ∧ ∀ item ∈ items, kind item

end Value

namespace Parser

open Value

/-- Less may be asked for. -/
theorem Gains.weaken (gains : p.Gains whole below least kind) (fewer : more ≤ least)
    (weaken : ∀ v, kind v → wider v) : p.Gains whole below more wider := by
  intro chars fits
  refine (gains chars fits).mono ?_
  rintro v rest ⟨taken, holds⟩
  exact ⟨by omega, weaken v holds⟩

/-- The kind of the value need not matter. -/
theorem Gains.any (gains : p.Gains whole below least kind) : p.Gains whole below least Any :=
  gains.weaken (Nat.le_refl _) fun _ _ => trivial

/-- It is enough to take fewer characters. -/
theorem Gains.atLeast (gains : p.Gains whole below least kind) (fewer : more ≤ least) :
    p.Gains whole below more kind :=
  gains.weaken fewer fun _ holds => holds

theorem Gains.shorter {length : Nat} (gains : p.Gains whole below least kind)
    (fewer : length ≤ below) : p.Gains whole length least kind :=
  fun chars fits => gains chars (Nat.lt_of_lt_of_le fits fewer)

/-- What a parser gives is known of every text that is short enough. -/
theorem Gains.settles {chars : List Char} (gains : p.Gains whole (chars.length + 1) least kind) :
    p.Settles whole chars fun v _ => kind v :=
  (gains chars (Nat.lt_succ_self _)).mono fun _ _ both => both.2

theorem Gains.renamed (gains : p.Gains whole below least kind) (sameRun : q.run = p.run) :
    q.Gains whole below least kind :=
  fun chars fits => (gains chars fits).renamed sameRun

theorem Gains.label (expected : String) (gains : p.Gains whole below least kind) :
    (p.label expected).Gains whole below least kind :=
  fun chars fits => (gains chars fits).label expected

/-! ## Primitive parsers -/

theorem gains_succeed (holds : kind v) : (succeed v).Gains whole below 0 kind :=
  fun _ _ => Reads.settles (reads_succeed v) ⟨Nat.le_refl _, holds⟩

theorem gains_failing (message : String) (sort : FailureKind) :
    (failing message sort).Gains whole below least kind :=
  fun _ _ => Refuses.settles (refuses_failing message sort)

theorem gains_atEnd : atEnd.Gains whole below 0 Any := by
  intro chars _
  cases chars with
  | nil => exact Reads.settles reads_atEnd ⟨Nat.le_refl _, trivial⟩
  | cons c rest => exact Refuses.settles (refuses_atEnd c rest)

theorem gains_token : token.Gains whole below 1 (IsText fun _ => True) := by
  intro chars _
  cases chars with
  | nil => exact Refuses.settles refuses_token
  | cons c rest => exact Reads.settles (reads_token c rest) ⟨Nat.le_refl _, _, rfl, trivial⟩

theorem Picks.gains {test : Char → Bool} (picks : p.Picks test) :
    p.Gains whole below 1 (IsText fun t => ∃ c, t = c.toString ∧ test c = true) := by
  intro chars _
  refine picks.settles.mono ?_
  rintro _ rest ⟨c, rfl, rfl, passed⟩
  exact ⟨Nat.le_refl _, _, rfl, c, rfl, passed⟩

/-- A literal takes as many characters as it has, and they stand for it. -/
theorem gains_literal (wanted : String) (casing : Casing) :
    (literal wanted casing).Gains whole below (casing.target wanted).toList.length
      (IsText fun t => casing.Spells (casing.target wanted).toList t.toList) := by
  intro chars _
  refine (settles_literal wanted casing).mono ?_
  rintro _ rest ⟨taken, rfl, rfl, spells⟩
  have length : (casing.target wanted).toList.length = taken.length := spells.length_eq
  rw [← String.toList_ofList (l := taken)] at spells
  refine ⟨?_, _, rfl, spells⟩
  rw [List.length_append, length, Nat.add_comm]

/-! ## In order

What the first part takes need not be taken any more by what comes after it. -/

theorem Gains.bind {next : Value → Parser} (first : p.Gains whole below least kind)
    (second : ∀ v, kind v → (next v).Gains whole (below - least) (more - least) other) :
    (p.bind next).Gains whole below more other := by
  intro chars fits
  refine (first chars fits).bind ?_
  rintro v middle ⟨taken, holds⟩
  refine (second v holds middle (by omega)).mono ?_
  rintro w rest ⟨further, last⟩
  exact ⟨by omega, last⟩

theorem Gains.chain_nil (gains : p.Gains whole below least kind) :
    (chain p []).Gains whole below least kind :=
  fun chars fits => (gains chars fits).chain_nil

theorem Gains.chain {later : List Parser} (first : p.Gains whole below least kind)
    (others : (Parser.chain q later).Gains whole (below - least) (more - least) other) :
    (Parser.chain p (q :: later)).Gains whole below more other := by
  have bound : (p.bind fun _ => Parser.chain q later).Gains whole below more other :=
    first.bind fun _ _ => others
  exact bound.renamed rfl

/-- Two parsers in order, with the value of the second. -/
theorem Gains.before (first : p.Gains whole below least kind)
    (second : q.Gains whole (below - least) (more - least) other) :
    (Parser.chain p [q]).Gains whole below more other :=
  first.chain second.chain_nil

theorem Gains.followedBy (first : p.Gains whole below least kind)
    (second : q.Gains whole (below - least) (more - least) other) :
    (p.followedBy q).Gains whole below more kind := by
  intro chars fits
  refine (first chars fits).followedBy ?_
  rintro v middle ⟨taken, holds⟩
  refine (second middle (by omega)).mono ?_
  rintro _ rest ⟨further, _⟩
  exact ⟨by omega, holds⟩

theorem Gains.between {opening closing : Parser} {first : Nat}
    (opens : opening.Gains whole below first Any)
    (gains : p.Gains whole (below - first) least kind)
    (closes : closing.Gains whole (below - first - least) (more - first - least) Any) :
    (between opening closing p).Gains whole below more kind :=
  opens.before (gains.followedBy closes)

theorem Gains.map {f : Value → Except Fault Value} (gains : p.Gains whole below least kind)
    (made : ∀ v, kind v → ∃ w, f v = .ok w ∧ other w) :
    (p.map f).Gains whole below least other := by
  intro chars fits
  refine Settles.map ((gains chars fits).mono ?_)
  rintro v rest ⟨taken, holds⟩
  obtain ⟨w, same, last⟩ := made v holds
  exact ⟨w, same, taken, last⟩

theorem Gains.satisfying {test : Value → Except Fault Bool} (gains : p.Gains whole below least kind)
    (tested : ∀ v, kind v → ∃ passed, test v = .ok passed) :
    (satisfying test p).Gains whole below least kind := by
  intro chars fits
  refine Settles.satisfying ((gains chars fits).mono ?_)
  rintro v rest ⟨taken, holds⟩
  obtain ⟨passed, same⟩ := tested v holds
  exact ⟨passed, same, fun _ => ⟨taken, holds⟩⟩

/-! ## Alternatives -/

theorem Gains.choice {others : List Parser} (first : p.Gains whole below least kind)
    (second : (choice q others).Gains whole below least kind) :
    (Parser.choice p (q :: others)).Gains whole below least kind :=
  fun chars fits => (first chars fits).choice (second chars fits)

theorem Gains.choice_nil (only : p.Gains whole below least kind) :
    (Parser.choice p []).Gains whole below least kind :=
  fun chars fits => (only chars fits).choice_nil

theorem Gains.either (first : p.Gains whole below least kind)
    (second : q.Gains whole below least kind) :
    (Parser.choice p [q]).Gains whole below least kind :=
  first.choice second.choice_nil

theorem Gains.optional (gains : p.Gains whole below least kind) :
    p.optional.Gains whole below 0 Any := by
  intro chars fits
  refine Settles.optional ((gains chars fits).mono ?_) ⟨Nat.le_refl _, trivial⟩
  rintro v rest ⟨taken, _⟩
  exact ⟨by omega, trivial⟩

theorem Gains.refusing (gains : p.Gains whole below least kind) :
    p.refusing.Gains whole below 0 Any :=
  fun chars fits => (gains chars fits).refusing ⟨Nat.le_refl _, trivial⟩

/-! ## Scripts -/

theorem Gains.script_done (name : String) (gains : p.Gains whole below least kind) :
    (script name (pure p)).Gains whole below least kind :=
  gains.renamed rfl

theorem Gains.script_parse {name : String} {next : Value → Script Parser}
    (first : p.Gains whole below least kind)
    (others : ∀ v, kind v →
      (script name (next v)).Gains whole (below - least) (more - least) other) :
    (script name (Script.parse p >>= next)).Gains whole below more other := by
  have bound : (p.bind fun v => script name (next v)).Gains whole below more other :=
    first.bind others
  exact bound.renamed rfl

theorem Gains.script_text {name : String} {known : String → Prop} {next : String → Script Parser}
    (first : p.Gains whole below least (IsText known))
    (others : ∀ t, known t →
      (script name (next t)).Gains whole (below - least) (more - least) other) :
    (script name (Script.text p >>= next)).Gains whole below more other := by
  refine Gains.script_parse first ?_
  rintro _ ⟨t, rfl, holds⟩
  exact others t holds

theorem Gains.script_int {name : String} {next : Int → Script Parser}
    (first : p.Gains whole below least IsInt)
    (others : ∀ n, (script name (next n)).Gains whole (below - least) (more - least) other) :
    (script name (Script.int p >>= next)).Gains whole below more other := by
  refine Gains.script_parse first ?_
  rintro _ ⟨n, rfl⟩
  exact others n

theorem Gains.script_items {name : String} {next : List Value → Script Parser}
    (first : p.Gains whole below least (IsListOf kind))
    (others : ∀ items, (∀ item ∈ items, kind item) →
      (script name (next items)).Gains whole (below - least) (more - least) other) :
    (script name (Script.items p >>= next)).Gains whole below more other := by
  refine Gains.script_parse first ?_
  rintro _ ⟨items, rfl, holds⟩
  exact others items holds

theorem gains_check {α : Type} {name : String} {checked : Except Fault α} {a : α}
    {next : α → Script Parser} (passed : checked = .ok a)
    (others : (script name (next a)).Gains whole below least kind) :
    (script name (Script.ofExcept checked >>= next)).Gains whole below least kind :=
  fun chars fits => settles_check passed (others chars fits)

/-! ## Repetitions -/

theorem Gains.collect (gains : p.Gains whole below least kind) (some : 0 < least) :
    p.collect.Gains whole below 0 (IsListOf kind) := by
  intro chars fits
  have each : ∀ left : List Char, left.length ≤ chars.length → p.Settles whole left fun v rest =>
      rest.length < left.length ∧ rest.length ≤ left.length ∧ kind v := by
    intro left less
    refine (gains left (by omega)).mono ?_
    rintro v rest ⟨taken, holds⟩
    exact ⟨by omega, by omega, holds⟩
  refine Settles.mono (settles_collect 0 each) ?_
  rintro _ rest ⟨values, rfl, _, row⟩
  exact ⟨row.length_le fun _ _ _ step => step.1, values, rfl, row.all fun _ _ _ step => step.2⟩

theorem Gains.split (gains : p.Gains whole below least kind)
    (others : (Parser.chain separator [p]).Gains whole below more kind) (some : 0 < more) :
    (split p separator).Gains whole below 0 (IsListOf kind) := by
  refine Gains.either (Gains.script_parse gains ?_) (gains_succeed ⟨[], rfl, nofun⟩)
  intro first holds
  have later := (others.shorter (Nat.sub_le _ least)).collect some
  refine Gains.script_items later ?_
  intro items all
  rw [Nat.zero_sub]
  exact (gains_succeed ⟨_, rfl, List.forall_mem_cons.mpr ⟨holds, all⟩⟩).script_done _

/-! ## Texts -/

theorem Gains.textOf {known : String → Prop}
    (gains : p.Gains whole below least (IsListOf (IsText known))) :
    (textOf p).Gains whole below least (IsText fun _ => True) := by
  refine Gains.bind gains ?_
  rintro _ ⟨items, rfl, all⟩
  rw [Nat.sub_self]
  have texts : ∃ texts : List String, items = texts.map .text := by
    induction items with
    | nil => exact ⟨[], rfl⟩
    | cons item items inductionHypothesis =>
      obtain ⟨t, rfl, _⟩ := all item List.mem_cons_self
      obtain ⟨texts, rfl⟩ := inductionHypothesis fun item member =>
        all item (List.mem_cons_of_mem _ member)
      exact ⟨t :: texts, rfl⟩
  obtain ⟨texts, rfl⟩ := texts
  simp only [Value.items?, joinTexts_texts]
  exact gains_succeed ⟨_, rfl, trivial⟩

theorem Gains.text {known : String → Prop} (gains : p.Gains whole below least (IsText known))
    (some : 0 < least) : (Parser.text p).Gains whole below 0 (IsText fun _ => True) :=
  (gains.collect some).textOf

theorem gains_spaces : spaces.Gains whole below 1 Any := by
  have one : space.Gains whole below 1 Any := space_picks.gains.any
  have others : space.dropping.Gains whole (below - 1) 0 Any :=
    (space_picks.gains.collect Nat.one_pos).before (gains_succeed trivial)
  exact Gains.label _ (one.chain (others.chain (gains_succeed trivial).chain_nil))

theorem Gains.trim (gains : p.Gains whole below least kind) :
    (trim p).Gains whole below least kind := by
  have around : (Parser.optional spaces).Gains whole below 0 Any := gains_spaces.optional
  refine Gains.between around gains ?_
  rw [Nat.sub_zero, Nat.sub_zero, Nat.sub_self]
  exact around.shorter (Nat.sub_le _ _)

/-! ## Rules that refer to themselves -/

/-- A rule ends on every text if its body does, given a parser for inside that ends on texts that
are shorter by one character. -/
theorem gains_recursive {body : Parser → Parser}
    (unfolds : ∀ inner length, inner.Gains whole length least kind →
      (body inner).Gains whole (length + 1) least kind) :
    (Parser.recursive body).Gains whole below least kind := by
  intro chars fits
  induction size : chars.length using Nat.strong_induction_on generalizing chars with
  | _ count inductionHypothesis =>
    subst size
    have inside : (Parser.within body chars.length).Gains whole chars.length least kind := by
      intro left fewer
      exact (inductionHypothesis left.length fewer left (by omega) rfl).inside fewer
    exact Settles.recursive (unfolds _ _ inside chars (Nat.lt_succ_self _))

/-- Inside itself a rule ends on the texts that it may be used on. -/
theorem Gains.inside {body : Parser → Parser}
    (gains : (Parser.recursive body).Gains whole below least kind) :
    (Parser.within body below).Gains whole below least kind :=
  fun chars fewer => (gains chars fewer).inside fewer

end Parser
end Descent
