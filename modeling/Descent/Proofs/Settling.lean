import Descent.Proofs.Spelling

/-!
# Parsers on texts that are not known

Where nothing is known of a text, a grammar settles it: it refuses, or it gives a value and leaves
a rest of which something can be said. There is one rule for each combinator again. What a part
leaves is what the next part starts from, so that a condition on the whole is shown at the end,
from what was found on the way.

A condition speaks of the rest that is left of the text, and through it of the characters that were
taken. It may say that they make up a word of a grammar, which is how a reader is shown to accept
nothing else; or only that there are some, which is what a repetition and a rule inside itself ask
for.
-/

namespace Descent

variable {whole : Array Char} {chars : List Char} {v : Value} {p q separator : Parser}
  {mid post wider : Value → List Char → Prop} {reply : Reply}

/-- The parser settles a text, or it stops with a fault. -/
def Parser.Attempts (p : Parser) (whole : Array Char) (chars : List Char)
    (post : Value → List Char → Prop) : Prop :=
  (∃ fault, p.Raises whole chars fault) ∨ p.Settles whole chars post

namespace Parser

/-! ## What is known -/

theorem Reads.settles {rest : List Char} (reads : p.Reads whole chars v rest)
    (holds : post v rest) : p.Settles whole chars post := by
  refine ⟨some (v, rest), reads, ?_⟩
  rintro w left ⟨⟩
  exact holds

theorem Refuses.settles (refuses : p.Refuses whole chars) : p.Settles whole chars post :=
  ⟨none, refuses, nofun⟩

theorem settles_succeed (holds : post v chars) : (succeed v).Settles whole chars post :=
  Reads.settles (reads_succeed v) holds

theorem Settles.mono (settles : p.Settles whole chars post)
    (weaken : ∀ v rest, post v rest → wider v rest) : p.Settles whole chars wider := by
  obtain ⟨reply, answer, holds⟩ := settles
  exact ⟨reply, answer, fun v rest same => weaken v rest (holds v rest same)⟩

/-- A parser that settles a text reads or refuses. -/
theorem Settles.cases (settles : p.Settles whole chars post) :
    p.Refuses whole chars ∨ ∃ v rest, p.Reads whole chars v rest ∧ post v rest := by
  obtain ⟨_ | ⟨v, rest⟩, answer, holds⟩ := settles
  · exact Or.inl answer
  · exact Or.inr ⟨v, rest, answer, holds v rest rfl⟩

/-- A parser refuses a text if it settles it and nothing that it might give is possible. -/
theorem Settles.refuses (settles : p.Settles whole chars post)
    (never : ∀ v rest, ¬ post v rest) : p.Refuses whole chars := by
  rcases settles.cases with refuses | ⟨v, rest, _, holds⟩
  · exact refuses
  · exact absurd holds (never v rest)

/-- What a built parser leaves is an end of the text. -/
theorem Settles.suffix (built : Built False p)
    (settles : p.Settles whole chars post) :
    p.Settles whole chars fun v rest => post v rest ∧ rest <:+ chars := by
  by_cases reachable : ∃ s : State, s.Within whole chars
  · obtain ⟨s, within⟩ := reachable
    rcases settles.cases with refuses | ⟨v, rest, reads, holds⟩
    · exact refuses.settles
    · obtain ⟨reached, ran, _, onward⟩ := reads s within
      have leads := built.leads s within.ready reached ran
      have left := leads.textAhead within.ready within.onText onward.ready.clean
      rw [onward.ahead, within.ahead] at left
      exact reads.settles ⟨holds, left ▸ List.drop_suffix _ _⟩
  · exact Refuses.settles fun s within => absurd ⟨s, within⟩ reachable

/-- What a parser leaves of a text that it accepts is nothing. -/
theorem Settles.accepted {t : String} (settles : p.Settles t.toList.toArray t.toList post)
    (accepted : (p.parseValue (.ofString t)).result = .ok v) : post v [] := by
  obtain ⟨reply, answer, holds⟩ := settles
  rcases Answers.parseValue answer with ⟨w, same, parsed⟩ | ⟨_, failure, refused⟩
  · obtain rfl := Except.ok.inj (parsed.symm.trans accepted)
    exact holds w [] same
  · rw [refused] at accepted
    cases accepted

/-- What a parser leaves of a text that it accepts is nothing, though it may stop on others. -/
theorem Attempts.accepted {t : String} (attempts : p.Attempts t.toList.toArray t.toList post)
    (accepted : (p.parseValue (.ofString t)).result = .ok v) : post v [] := by
  rcases attempts with ⟨fault, raises⟩ | settles
  · cases accepted.symm.trans raises.parseValue
  · exact settles.accepted accepted

/-! ## In order -/

theorem Settles.bind {next : Value → Parser} (first : p.Settles whole chars mid)
    (second : ∀ v middle, mid v middle → (next v).Settles whole middle post) :
    (p.bind next).Settles whole chars post := by
  rcases first.cases with refuses | ⟨v, middle, reads, holds⟩
  · exact Refuses.settles (Refuses.bind refuses)
  · obtain ⟨reply, answer, last⟩ := second v middle holds
    exact ⟨reply, Reads.bind reads answer, last⟩

theorem Settles.renamed (settles : p.Settles whole chars post) (sameRun : q.run = p.run) :
    q.Settles whole chars post := by
  obtain ⟨reply, answer, holds⟩ := settles
  exact ⟨reply, answer.renamed sameRun, holds⟩

theorem Settles.label (expected : String) (settles : p.Settles whole chars post) :
    (p.label expected).Settles whole chars post := by
  obtain ⟨reply, answer, holds⟩ := settles
  exact ⟨reply, answer.label expected, holds⟩

theorem Settles.chain_nil (settles : p.Settles whole chars post) :
    (chain p []).Settles whole chars post := by
  obtain ⟨reply, answer, holds⟩ := settles
  exact ⟨reply, answer.chain_nil, holds⟩

theorem Settles.chain {more : List Parser} (first : p.Settles whole chars mid)
    (others : ∀ v middle, mid v middle → (Parser.chain q more).Settles whole middle post) :
    (Parser.chain p (q :: more)).Settles whole chars post := by
  have bound : (p.bind fun _ => Parser.chain q more).Settles whole chars post := first.bind others
  exact bound.renamed rfl

/-- Two parsers in order, with the value of the second. -/
theorem Settles.before (first : p.Settles whole chars mid)
    (second : ∀ v middle, mid v middle → q.Settles whole middle post) :
    (Parser.chain p [q]).Settles whole chars post :=
  first.chain fun v middle holds => (second v middle holds).chain_nil

theorem Settles.followedBy (first : p.Settles whole chars mid)
    (second : ∀ v middle, mid v middle → q.Settles whole middle fun _ rest => post v rest) :
    (p.followedBy q).Settles whole chars post :=
  first.bind fun v middle holds => ((second v middle holds).chain_nil).bind fun _ _ last =>
    settles_succeed last

theorem Settles.map {f : Value → Except Fault Value}
    (settles : p.Settles whole chars fun v rest => ∃ w, f v = .ok w ∧ post w rest) :
    (p.map f).Settles whole chars post := by
  refine settles.bind ?_
  rintro v rest ⟨w, made, holds⟩
  rw [made]
  exact settles_succeed holds

theorem Settles.satisfying {test : Value → Except Fault Bool}
    (settles : p.Settles whole chars fun v rest =>
      ∃ passed, test v = .ok passed ∧ (passed = true → post v rest)) :
    (satisfying test p).Settles whole chars post := by
  refine settles.bind ?_
  rintro v rest ⟨passed, made, holds⟩
  rw [made]
  cases passed with
  | true => exact settles_succeed (holds rfl)
  | false => exact Refuses.settles (refuses_failing _ _)

/-! ## Alternatives -/

theorem Settles.choice {more : List Parser} (first : p.Settles whole chars post)
    (others : (choice q more).Settles whole chars post) :
    (Parser.choice p (q :: more)).Settles whole chars post := by
  rcases first.cases with refuses | ⟨v, rest, reads, holds⟩
  · obtain ⟨reply, answer, last⟩ := others
    exact ⟨reply, Refuses.choice refuses answer, last⟩
  · exact Reads.settles (Reads.choice reads) holds

theorem Settles.choice_nil (only : p.Settles whole chars post) :
    (Parser.choice p []).Settles whole chars post := by
  rcases only.cases with refuses | ⟨v, rest, reads, holds⟩
  · exact Refuses.settles (Refuses.choice_nil refuses)
  · exact Reads.settles (Reads.choice reads) holds

/-- A choice between two parsers. -/
theorem Settles.either (first : p.Settles whole chars post) (second : q.Settles whole chars post) :
    (Parser.choice p [q]).Settles whole chars post :=
  first.choice second.choice_nil

/-- All alternatives of a choice settle the text. -/
theorem settles_choice {more : List Parser}
    (all : ∀ part ∈ p :: more, part.Settles whole chars post) :
    (Parser.choice p more).Settles whole chars post := by
  induction more generalizing p with
  | nil => exact (all p List.mem_cons_self).choice_nil
  | cons next later inductionHypothesis =>
    refine (all p List.mem_cons_self).choice (inductionHypothesis ?_)
    intro part member
    exact all part (List.mem_cons_of_mem p member)

/-- Where the later ones of some parsers read a text the choice between all of them does. -/
theorem Settles.orLater {more : List Parser} (settles : p.Settles whole chars post)
    (later : ∃ v rest, (Parser.choice q more).Reads whole chars v rest ∧ post v rest) :
    ∃ v rest, (Parser.choice p (q :: more)).Reads whole chars v rest ∧ post v rest := by
  rcases settles.cases with refuses | ⟨v, rest, first, found⟩
  · obtain ⟨v, rest, reads, holds⟩ := later
    exact ⟨v, rest, Refuses.choice refuses reads, holds⟩
  · exact ⟨v, rest, Reads.choice first, found⟩

/-- Where the second of two parsers reads a text the choice between them does. -/
theorem Settles.orElse {rest : List Char} (settles : p.Settles whole chars post)
    (reads : q.Reads whole chars v rest) (holds : post v rest) :
    ∃ w left, (Parser.choice p [q]).Reads whole chars w left ∧ post w left :=
  settles.orLater ⟨v, rest, Reads.choice reads, holds⟩

theorem Settles.optional (settles : p.Settles whole chars post) (nothing : post .absent chars) :
    p.optional.Settles whole chars post :=
  settles.either (settles_succeed nothing)

theorem Settles.refusing (settles : p.Settles whole chars mid) (nothing : post (.bool true) chars) :
    p.refusing.Settles whole chars post := by
  rcases settles.cases with refuses | ⟨v, rest, reads, _⟩
  · exact Reads.settles (Refuses.refusing refuses) nothing
  · exact Refuses.settles (Reads.refusing reads)

/-! ## Scripts -/

theorem Settles.script_done (name : String) (settles : p.Settles whole chars post) :
    (script name (pure p)).Settles whole chars post :=
  settles.renamed rfl

theorem Settles.script_parse {name : String} {next : Value → Script Parser}
    (first : p.Settles whole chars mid)
    (others : ∀ v middle, mid v middle → (script name (next v)).Settles whole middle post) :
    (script name (Script.parse p >>= next)).Settles whole chars post := by
  have bound : (p.bind fun v => script name (next v)).Settles whole chars post := first.bind others
  exact bound.renamed rfl

theorem Settles.script_int {name : String} {next : Int → Script Parser}
    {found : Int → List Char → Prop}
    (first : p.Settles whole chars fun v rest => ∃ n, v = .int n ∧ found n rest)
    (others : ∀ n middle, found n middle → (script name (next n)).Settles whole middle post) :
    (script name (Script.int p >>= next)).Settles whole chars post := by
  rcases first.cases with refuses | ⟨v, rest, reads, n, rfl, holds⟩
  · exact Refuses.settles (Refuses.script name refuses)
  · obtain ⟨reply, answer, last⟩ := others n rest holds
    exact ⟨reply, Reads.script_int reads answer, last⟩

theorem Settles.script_text {name : String} {next : String → Script Parser}
    {found : String → List Char → Prop}
    (first : p.Settles whole chars fun v rest => ∃ t, v = .text t ∧ found t rest)
    (others : ∀ t middle, found t middle → (script name (next t)).Settles whole middle post) :
    (script name (Script.text p >>= next)).Settles whole chars post := by
  rcases first.cases with refuses | ⟨v, rest, reads, t, rfl, holds⟩
  · exact Refuses.settles (Refuses.script name refuses)
  · obtain ⟨reply, answer, last⟩ := others t rest holds
    exact ⟨reply, Reads.script_text reads answer, last⟩

theorem Settles.script_items {name : String} {next : List Value → Script Parser}
    {found : List Value → List Char → Prop}
    (first : p.Settles whole chars fun v rest => ∃ items, v = .list items ∧ found items rest)
    (others : ∀ items middle, found items middle →
      (script name (next items)).Settles whole middle post) :
    (script name (Script.items p >>= next)).Settles whole chars post := by
  rcases first.cases with refuses | ⟨v, rest, reads, items, rfl, holds⟩
  · exact Refuses.settles (Refuses.script name refuses)
  · obtain ⟨reply, answer, last⟩ := others items rest holds
    exact ⟨reply, Reads.script_items reads answer, last⟩

/-- Behind a text that is known to be read the rest of a script decides. -/
theorem Reads.settles_text {name t : String} {next : String → Script Parser} {middle : List Char}
    (first : p.Reads whole chars (.text t) middle)
    (others : (script name (next t)).Settles whole middle post) :
    (script name (Script.text p >>= next)).Settles whole chars post := by
  obtain ⟨reply, answer, holds⟩ := others
  exact ⟨reply, first.script_text answer, holds⟩

theorem settles_check {α : Type} {name : String} {checked : Except Fault α} {a : α}
    {next : α → Script Parser} (passed : checked = .ok a)
    (others : (script name (next a)).Settles whole chars post) :
    (script name (Script.ofExcept checked >>= next)).Settles whole chars post := by
  obtain ⟨reply, answer, holds⟩ := others
  exact ⟨reply, script_check passed answer, holds⟩

/-! ## Parsers that may stop -/

theorem Attempts.followedBy (first : p.Attempts whole chars mid)
    (second : ∀ v middle, mid v middle → q.Settles whole middle fun _ rest => post v rest) :
    (p.followedBy q).Attempts whole chars post := by
  rcases first with ⟨fault, raises⟩ | settles
  · exact .inl ⟨fault, raises.bind⟩
  · exact .inr (settles.followedBy second)

theorem Attempts.script_int {name : String} {next : Int → Script Parser}
    {found : Int → List Char → Prop}
    (first : p.Attempts whole chars fun v rest => ∃ n, v = .int n ∧ found n rest)
    (others : ∀ n middle, found n middle → (script name (next n)).Settles whole middle post) :
    (script name (Script.int p >>= next)).Attempts whole chars post := by
  rcases first with ⟨fault, raises⟩ | settles
  · exact .inl ⟨fault, raises.script⟩
  · exact .inr (settles.script_int others)

/-! ## Repetitions -/

variable {step : List Char → Value → List Char → Prop}

/-- Values that are each read from some characters make up a row, which ends where the parser
refuses. The induction is on the number of characters. -/
theorem settles_row (each : ∀ left : List Char, left.length ≤ chars.length →
      p.Settles whole left fun v rest => rest.length < left.length ∧ step left v rest) :
    ∃ values rest,
      Row (fun left v rest => p.Steps whole left v rest ∧ step left v rest) chars values rest ∧
        p.Refuses whole rest := by
  induction count : chars.length using Nat.strong_induction_on generalizing chars with
  | _ count inductionHypothesis =>
    rcases (each chars (Nat.le_refl _)).cases with refuses | ⟨v, middle, reads, fewer, holds⟩
    · exact ⟨[], chars, .none, refuses⟩
    · have later : ∀ left : List Char, left.length ≤ middle.length →
          p.Settles whole left fun v rest => rest.length < left.length ∧ step left v rest := by
        intro left less
        exact each left (by omega)
      obtain ⟨values, rest, row, refuses⟩ :=
        inductionHypothesis middle.length (by omega) later rfl
      exact ⟨v :: values, rest, .more ⟨⟨reads, fewer⟩, holds⟩ row, refuses⟩

/-- What a repetition without an upper bound collects is a row. -/
theorem settles_collect (least : Nat) (each : ∀ left : List Char, left.length ≤ chars.length →
      p.Settles whole left fun v rest => rest.length < left.length ∧ step left v rest) :
    (p.collect (.atLeast least)).Settles whole chars fun v rest =>
      ∃ values, v = .list values ∧ least ≤ values.length ∧ Row step chars values rest := by
  obtain ⟨values, rest, row, refuses⟩ := settles_row each
  have steps : Row (p.Steps whole) chars values rest := row.mono fun _ _ _ both => both.1
  rcases Nat.lt_or_ge values.length least with short | enough
  · exact Refuses.settles (row_collect_short steps refuses least short)
  · exact Reads.settles (row_collect steps refuses least enough)
      ⟨values, rfl, enough, row.mono fun _ _ _ both => both.2⟩

/-- What a repetition of a given number of times collects is a row of that length. -/
theorem settles_exactly (count : Nat) (each : ∀ left : List Char, left.length ≤ chars.length →
      p.Settles whole left fun v rest => rest.length ≤ left.length ∧ step left v rest) :
    (p.collect (.exactly count)).Settles whole chars fun v rest =>
      ∃ values, v = .list values ∧ values.length = count ∧ Row step chars values rest := by
  have gathered (before : List Value) :
      (⟨"join", gatherAfter before (List.replicate count p)⟩ : Parser).Settles whole chars
        fun v rest => ∃ values, v = .list (before.reverse ++ values) ∧ values.length = count ∧
          Row step chars values rest := by
    induction count generalizing chars before with
    | zero =>
      have ended : (succeed (.list before.reverse)).Settles whole chars fun v rest =>
          ∃ values, v = .list (before.reverse ++ values) ∧ values.length = 0 ∧
            Row step chars values rest :=
        settles_succeed ⟨[], by rw [List.append_nil], rfl, .none⟩
      exact ended.renamed rfl
    | succ count inductionHypothesis =>
      refine Settles.renamed (Settles.bind (each chars (Nat.le_refl _)) ?_ : (p.bind fun v =>
        ⟨"join", gatherAfter (v :: before) (List.replicate count p)⟩).Settles whole chars _) rfl
      rintro v middle ⟨fewer, first⟩
      refine (inductionHypothesis (fun left less => each left (by omega)) (v :: before)).mono ?_
      rintro w rest ⟨values, rfl, length, row⟩
      refine ⟨v :: values, ?_, by rw [List.length_cons, length], .more first row⟩
      rw [List.reverse_cons, List.append_assoc]
      rfl
  exact (gathered []).renamed (run_collect_exactly p count)

/-- Values with separators between them: none, or a first one and a row of others. -/
theorem settles_split (first : p.Settles whole chars mid)
    (each : ∀ v middle, mid v middle → ∀ left : List Char, left.length ≤ middle.length →
      (chain separator [p]).Settles whole left fun v rest =>
        rest.length < left.length ∧ step left v rest) :
    (split p separator).Settles whole chars fun v rest =>
      (v = .list [] ∧ rest = chars) ∨
        ∃ first values middle, v = .list (first :: values) ∧ mid first middle ∧
          Row step middle values rest := by
  refine Settles.either (Settles.script_parse first ?_)
    (settles_succeed (Or.inl ⟨rfl, rfl⟩))
  intro v middle holds
  have others : ((chain separator [p]).collect (.atLeast 0)).Settles whole middle fun w rest =>
      ∃ values, w = .list values ∧ Row step middle values rest := by
    refine (settles_collect 0 (each v middle holds)).mono ?_
    rintro w rest ⟨values, rfl, _, row⟩
    exact ⟨values, rfl, row⟩
  refine Settles.script_items others ?_
  intro values rest row
  exact Settles.script_done _
    (settles_succeed (Or.inr ⟨v, values, middle, rfl, holds, row⟩))

/-! ## Characters and literals -/

variable {test : Char → Bool}

theorem Picks.settles (picks : p.Picks test) :
    p.Settles whole chars fun v rest =>
      ∃ c, chars = c :: rest ∧ v = .text c.toString ∧ test c = true := by
  refine ⟨pick test chars, picks whole chars, ?_⟩
  intro v rest taken
  cases chars with
  | nil => cases taken
  | cons c others =>
    rw [pick] at taken
    split at taken
    next passed =>
      obtain ⟨rfl, rfl⟩ := Prod.mk.inj (Option.some.inj taken)
      exact ⟨c, rfl, rfl, passed⟩
    next => cases taken

/-- All characters that pass are taken together. -/
theorem Picks.text_settles (picks : p.Picks test) (least : Nat) :
    (text p (.atLeast least)).Settles whole chars fun v rest =>
      ∃ row, chars = row ++ rest ∧ v = .text (String.ofList row) ∧ least ≤ row.length ∧
        ∀ c ∈ row, test c = true := by
  have divided : chars.takeWhile test ++ chars.dropWhile test = chars :=
    List.takeWhile_append_dropWhile
  have passed : ∀ c ∈ chars.takeWhile test, test c = true := fun c => List.mem_takeWhile_imp
  have stops : ∀ c ∈ (chars.dropWhile test).head?, test c = false := head_dropWhile test chars
  rcases Nat.lt_or_ge (chars.takeWhile test).length least with short | enough
  · have refuses : (text p (.atLeast least)).Refuses whole _ :=
      picks.text_refuses least _ _ passed stops short
    rw [divided] at refuses
    exact Refuses.settles refuses
  · have reads : (text p (.atLeast least)).Reads whole _ _ _ :=
      picks.text_reads least _ _ passed stops enough
    rw [divided] at reads
    exact Reads.settles reads ⟨_, divided.symm, rfl, enough, passed⟩

/-- So many characters are taken if they all pass. -/
theorem Picks.exactly_settles (picks : p.Picks test) (count : Nat) :
    (p.collect (.exactly count)).Settles whole chars fun v rest =>
      ∃ row, chars = row ++ rest ∧ v = .list ((row.map Char.toString).map .text) ∧
        row.length = count ∧ ∀ c ∈ row, test c = true := by
  have each (left : List Char) (_ : left.length ≤ chars.length) :
      p.Settles whole left fun v rest => rest.length ≤ left.length ∧
        ∃ c, left = c :: rest ∧ v = .text c.toString ∧ test c = true := by
    refine picks.settles.mono ?_
    rintro v rest ⟨c, rfl, value, passed⟩
    exact ⟨Nat.le_succ _, c, rfl, value, passed⟩
  refine (settles_exactly count each).mono ?_
  rintro _ rest ⟨values, rfl, rfl, row⟩
  clear each
  induction row with
  | none => exact ⟨[], rfl, rfl, rfl, nofun⟩
  | more first later inductionHypothesis =>
    obtain ⟨c, rfl, rfl, passed⟩ := first
    obtain ⟨taken, rfl, value, length, all⟩ := inductionHypothesis
    obtain rfl := Value.list.inj value
    exact ⟨c :: taken, rfl, rfl, congrArg Nat.succ length, List.forall_mem_cons.mpr ⟨passed, all⟩⟩

/-- A literal takes what stands for it. -/
theorem settles_literal (wanted : String) (casing : Casing) :
    (literal wanted casing).Settles whole chars fun v rest =>
      ∃ taken, chars = taken ++ rest ∧ v = .text (String.ofList taken) ∧
        casing.Spells (casing.target wanted).toList taken := by
  by_cases found : ∃ taken rest, chars = taken ++ rest ∧
      casing.Spells (casing.target wanted).toList taken
  · obtain ⟨taken, rest, rfl, spells⟩ := found
    exact Reads.settles (reads_spelled spells rest) ⟨taken, rfl, rfl, spells⟩
  · refine Refuses.settles (refuses_spelled ?_)
    intro taken rest divided spells
    exact found ⟨taken, rest, divided, spells⟩

/-- An exact literal takes its letters. -/
theorem settles_exact (wanted : String) :
    (literal wanted).Settles whole chars fun v rest =>
      v = .text wanted ∧ chars = wanted.toList ++ rest := by
  refine (settles_literal wanted .exact).mono ?_
  rintro _ rest ⟨taken, divided, rfl, spells⟩
  obtain rfl := Casing.spells_exact_iff.mp spells
  exact ⟨congrArg Value.text String.ofList_toList, divided⟩

/-- One of some literals takes what stands for it. -/
theorem settles_oneOf (option : String) (more : List String) (casing : Casing) :
    (oneOf option more casing).Settles whole chars fun v rest =>
      ∃ wanted ∈ option :: more, ∃ taken, chars = taken ++ rest ∧ v = .text (String.ofList taken) ∧
        casing.Spells (casing.target wanted).toList taken := by
  refine Settles.label _ (settles_choice ?_)
  intro part member
  rw [← List.map_cons (f := fun wanted => literal wanted casing)] at member
  obtain ⟨wanted, listed, rfl⟩ := List.mem_map.mp member
  refine (settles_literal wanted casing).mono ?_
  exact fun v rest ⟨taken, divided, value, spells⟩ =>
    ⟨wanted, listed, taken, divided, value, spells⟩

/-! ## Rules that refer to themselves -/

theorem Settles.recursive {body : Parser → Parser}
    (settles : (body (Parser.within body chars.length)).Settles whole chars post) :
    (Parser.recursive body).Settles whole chars post := by
  obtain ⟨reply, answer, holds⟩ := settles
  exact ⟨reply, answer.recursive, holds⟩

theorem Settles.inside {body : Parser → Parser} {count : Nat}
    (settles : (Parser.recursive body).Settles whole chars post) (fewer : chars.length < count) :
    (Parser.within body count).Settles whole chars post := by
  obtain ⟨reply, answer, holds⟩ := settles
  exact ⟨reply, answer.inside fewer, holds⟩

end Parser
end Descent
