import Descent.Proofs.Answers

/-!
# Repetitions on a text

A parser that is repeated reads a row of values, each from where the one before left off, and each
from at least one character. A repetition takes as long a row as there is. Without an upper bound
that row ends where the parser refuses; with one it may end before.

A parser that picks one character by a test is the simplest case: its row is the longest run of
characters that pass.
-/

namespace Descent

/-- Values one after another, each a step from the characters that the one before left. -/
inductive Row (step : List Char → Value → List Char → Prop) :
    List Char → List Value → List Char → Prop where
  | none {chars : List Char} : Row step chars [] chars
  | more {chars middle rest : List Char} {v : Value} {values : List Value}
      (first : step chars v middle) (later : Row step middle values rest) :
      Row step chars (v :: values) rest

/-- A parser reads a value from at least one character. -/
def Parser.Steps (p : Parser) (whole : Array Char) (chars : List Char) (v : Value)
    (middle : List Char) : Prop :=
  p.Reads whole chars v middle ∧ middle.length < chars.length

variable {whole : Array Char} {chars middle rest : List Char} {v w : Value}
  {values : List Value} {p separator : Parser}

theorem Row.mono {step wider : List Char → Value → List Char → Prop}
    (weaken : ∀ chars v middle, step chars v middle → wider chars v middle)
    (row : Row step chars values rest) : Row wider chars values rest := by
  induction row with
  | none => exact .none
  | more first later inductionHypothesis => exact .more (weaken _ _ _ first) inductionHypothesis

/-- What is true of each step is true of all values. -/
theorem Row.all {step : List Char → Value → List Char → Prop} {kind : Value → Prop}
    (row : Row step chars values rest) (holds : ∀ chars v rest, step chars v rest → kind v) :
    ∀ v ∈ values, kind v := by
  induction row with
  | none => nofun
  | more first later inductionHypothesis =>
    exact List.forall_mem_cons.mpr ⟨holds _ _ _ first, inductionHypothesis⟩

/-- If no step goes back then the whole row does not. -/
theorem Row.length_le {step : List Char → Value → List Char → Prop}
    (row : Row step chars values rest)
    (onwards : ∀ chars v rest, step chars v rest → rest.length ≤ chars.length) :
    rest.length ≤ chars.length := by
  induction row with
  | none => exact Nat.le_refl _
  | more first later inductionHypothesis =>
    exact Nat.le_trans inductionHypothesis (onwards _ _ _ first)

namespace Parser

/-- A repetition without an upper bound makes the rounds of a row that ends where the parser
refuses. -/
theorem row_roundsOn (site : Site) (row : Row (p.Steps whole) chars values rest)
    (ends : p.Refuses whole rest) (s : State) (within : s.Within whole chars) :
    ∃ harvest, (roundsOn site (roundOf p) s).result = .ok harvest ∧ harvest.values = values ∧
      harvest.reached.Within whole rest ∧
      ∃ attempt, harvest.refusal = some attempt ∧ attempt.failed = true := by
  induction row generalizing s with
  | none =>
    obtain ⟨attempt, ran, shown⟩ := ends s within
    have failed : attempt.failed = true := shown
    have round : (roundOf p s).result = .ok (.refused attempt) := by
      rw [roundOf, Run.result_bind_ok _ _ _ ran, if_pos failed]
      rfl
    refine ⟨.empty s (some attempt), ?_, rfl, within, attempt, rfl, failed⟩
    rw [roundsOn_eq, Run.result_bind_ok _ _ _ round]
    rfl
  | @more chars middle rest v values first later inductionHypothesis =>
    obtain ⟨reads, fewer⟩ := first
    obtain ⟨reached, ran, value, onward⟩ := reads s within
    obtain ⟨harvest, found, sameValues, last, attempt⟩ := inductionHypothesis ends reached onward
    have round : (roundOf p s).result = .ok (.complete v reached) := by
      rw [roundOf, Run.result_bind_ok _ _ _ ran,
        if_neg (State.not_failed_of_clean onward.ready.clean), value]
      rfl
    have less : reached.unread < s.unread := by
      rw [onward.unread, within.unread]
      exact fewer
    refine ⟨harvest.cons v, ?_, congrArg (v :: ·) sameValues, last, attempt⟩
    rw [roundsOn_eq, Run.result_bind_ok _ _ _ round, Round.proceed, if_pos less,
      Run.result_bind_ok _ _ _ found]
    rfl

/-- A fault behind a row stops the repetition. -/
theorem row_collect_raises {fault : Fault} (row : Row (p.Steps whole) chars values rest)
    (stops : p.Raises whole rest fault) (least : Nat) :
    (p.collect (.atLeast least)).Raises whole chars fault := by
  have rounds : ∀ s : State, s.Within whole chars →
      (roundsOn .collect (roundOf p) s).result = .error fault := by
    induction row with
    | none =>
      intro s within
      rw [roundsOn_eq]
      exact Run.result_bind_error _ _ fault (Run.result_bind_error _ _ fault (stops s within))
    | @more chars middle rest v values first later inductionHypothesis =>
      intro s within
      obtain ⟨reads, fewer⟩ := first
      obtain ⟨reached, ran, value, onward⟩ := reads s within
      have round : (roundOf p s).result = .ok (.complete v reached) := by
        rw [roundOf, Run.result_bind_ok _ _ _ ran,
          if_neg (State.not_failed_of_clean onward.ready.clean), value]
        rfl
      have less : reached.unread < s.unread := by
        rw [onward.unread, within.unread]
        exact fewer
      rw [roundsOn_eq, Run.result_bind_ok _ _ _ round, Round.proceed, if_pos less]
      exact Run.result_bind_error _ _ fault (inductionHypothesis stops reached onward)
  intro s within
  change (repeated .collect (roundOf p) (.atLeast least) s).result = .error fault
  rw [repeated_eq]
  exact Run.result_bind_error _ _ fault (rounds s within)

/-- A repetition takes the row up to where the parser refuses, if it is long enough. -/
theorem row_collect (row : Row (p.Steps whole) chars values rest) (ends : p.Refuses whole rest)
    (least : Nat) (enough : least ≤ values.length) :
    (p.collect (.atLeast least)).Reads whole chars (.list values) rest := by
  intro s within
  obtain ⟨harvest, found, sameValues, last, attempt, refused, _⟩ :=
    row_roundsOn .collect row ends s within
  have settled : harvest.settle (.finite least) = harvest.reached.succeed (.list values) := by
    have few : ¬ (Limit.finite least).exceeds values.length = true := by
      simpa [Limit.exceeds] using enough
    rw [Harvest.settle, refused, sameValues]
    exact if_neg few
  refine ⟨_, Course.collect_result least s found, ?_⟩
  rw [settled]
  exact ⟨rfl, last.succeed _⟩

/-- A repetition fails if the row is too short. -/
theorem row_collect_short (row : Row (p.Steps whole) chars values rest)
    (ends : p.Refuses whole rest) (least : Nat) (short : values.length < least) :
    (p.collect (.atLeast least)).Refuses whole chars := by
  intro s within
  obtain ⟨harvest, found, sameValues, _, attempt, refused, failed⟩ :=
    row_roundsOn .collect row ends s within
  have settled : harvest.settle (.finite least) = attempt := by
    have few : (Limit.finite least).exceeds values.length = true := by
      simpa [Limit.exceeds] using short
    rw [Harvest.settle, refused, sameValues]
    exact if_pos few
  refine ⟨_, Course.collect_result least s found, ?_⟩
  rw [settled]
  exact failed

/-- Repetition without any bounds. -/
theorem row_collect_any (row : Row (p.Steps whole) chars values rest)
    (ends : p.Refuses whole rest) : p.collect.Reads whole chars (.list values) rest :=
  row_collect row ends 0 (Nat.zero_le _)

/-- Gathering the values of one parser so many times reads a row of that length. The values found
before are given in reverse. -/
theorem row_gatherAfter (row : Row (p.Steps whole) chars values rest) (before : List Value) :
    (⟨"join", gatherAfter before (List.replicate values.length p)⟩ : Parser).Reads whole chars
      (.list (before.reverse ++ values)) rest := by
  induction row generalizing before with
  | none =>
    rw [List.append_nil]
    exact Answers.renamed (reads_succeed (.list before.reverse)) rfl
  | @more chars middle rest v values first later inductionHypothesis =>
    have onwards := inductionHypothesis (v :: before)
    rw [List.reverse_cons, List.append_assoc] at onwards
    have bound : (p.bind fun v =>
        ⟨"join", gatherAfter (v :: before) (List.replicate values.length p)⟩).Reads whole chars
          (.list (before.reverse ++ v :: values)) rest := first.1.bind onwards
    exact Answers.renamed bound rfl

/-- Repeating a parser as often as a row is long reads the row. -/
theorem row_exactly (row : Row (p.Steps whole) chars values rest) (count : Nat)
    (length : values.length = count) :
    (p.collect (.exactly count)).Reads whole chars (.list values) rest := by
  subst length
  exact Answers.renamed (row_gatherAfter row []) (run_collect_exactly p values.length)

/-! ## Values with separators between them -/

/-- A first value and a row of separators with a value after each. -/
theorem row_split (first : p.Reads whole chars v middle)
    (row : Row ((chain separator [p]).Steps whole) middle values rest)
    (ends : (chain separator [p]).Refuses whole rest) :
    (split p separator).Reads whole chars (.list (v :: values)) rest := by
  refine Reads.choice (Reads.script_parse first ?_)
  exact Reads.script_items (row_collect_any row ends) ((reads_succeed _).script_done _)

/-- A fault in the first of some values. -/
theorem Raises.split {fault : Fault} (first : p.Raises whole chars fault) :
    (Parser.split p separator).Raises whole chars fault :=
  Raises.choice first.script

/-- A fault in a later value or in a separator. -/
theorem row_split_raises {fault : Fault} (first : p.Reads whole chars v middle)
    (row : Row ((chain separator [p]).Steps whole) middle values rest)
    (stops : (chain separator [p]).Raises whole rest fault) :
    (Parser.split p separator).Raises whole chars fault :=
  Raises.choice (first.script_comesTo.raises (row_collect_raises row stops 0).script)

/-- No first value is no value at all. -/
theorem Refuses.split (first : p.Refuses whole chars) :
    (Parser.split p separator).Reads whole chars (.list []) chars :=
  Refuses.either (first.script _) (reads_succeed _)

/-! ## Texts -/

/-- Texts that are put together. -/
theorem joinTexts_texts (texts : List String) :
    joinTexts (texts.map .text) = .ok (String.join texts) := by
  have all : (texts.map Value.text).mapM Value.text? = some texts := by
    induction texts with
    | nil => rfl
    | cons first others inductionHypothesis =>
      rw [List.map_cons, List.mapM_cons, inductionHypothesis]
      rfl
  rw [joinTexts, all]

/-- What a parser lists of texts is put together. -/
theorem Reads.textOf {texts : List String}
    (reads : p.Reads whole chars (.list (texts.map .text)) rest) :
    (textOf p).Reads whole chars (.text (String.join texts)) rest := by
  refine reads.bind ?_
  simp only [Value.items?, joinTexts_texts]
  exact reads_succeed _

theorem Refuses.textOf (refuses : p.Refuses whole chars) :
    (Parser.textOf p).Refuses whole chars :=
  refuses.bind

/-! ## Single characters -/

/-- The reply of a parser that takes one character if it passes a test. -/
def pick (test : Char → Bool) : List Char → Reply
  | [] => none
  | c :: rest => if test c then some (.text c.toString, rest) else none

/-- A parser takes one character if it passes a test. -/
def Picks (p : Parser) (test : Char → Bool) : Prop :=
  ∀ whole chars, p.Answers whole chars (pick test chars)

variable {test : Char → Bool}

theorem Picks.reads (picks : p.Picks test) {c : Char} (passed : test c = true) :
    p.Reads whole (c :: rest) (.text c.toString) rest := by
  have reply := picks whole (c :: rest)
  rwa [pick, if_pos passed] at reply

/-- A parser of one character refuses where no character comes next that passes. -/
theorem Picks.refuses (picks : p.Picks test) (missed : ∀ c ∈ chars.head?, test c = false) :
    p.Refuses whole chars := by
  have reply := picks whole chars
  cases chars with
  | nil => exact reply
  | cons c rest =>
    have failed : test c = false := missed c rfl
    rwa [pick, if_neg (by simp [failed])] at reply

/-- Whatever says just whether a parser takes a character or refuses is what it picks by. -/
theorem picks_of (reads : ∀ whole c rest, test c = true →
      p.Reads whole (c :: rest) (.text c.toString) rest)
    (refuses : ∀ whole chars, (∀ c ∈ chars.head?, test c = false) → p.Refuses whole chars) :
    p.Picks test := by
  intro whole chars
  cases chars with
  | nil => exact refuses whole [] nofun
  | cons c rest =>
    rw [pick]
    by_cases passed : test c = true
    · rw [if_pos passed]
      exact reads whole c rest passed
    · rw [if_neg passed]
      refine refuses whole (c :: rest) ?_
      rintro d head
      obtain rfl := Option.some.inj head
      exact Bool.not_eq_true _ ▸ passed

theorem Picks.label (picks : p.Picks test) (expected : String) : (p.label expected).Picks test :=
  fun whole chars => (picks whole chars).label expected

/-- A test of single characters. -/
theorem satisfying_picks {tested : Value → Except Fault Bool}
    (passes : ∀ c : Char, tested (.text c.toString) = .ok (test c)) :
    (satisfying tested).Picks test := by
  refine picks_of ?_ ?_
  · intro whole c rest passed
    exact (reads_token c rest).satisfying (by rw [passes, passed])
  · intro whole chars missed
    cases chars with
    | nil => exact refuses_token.satisfying
    | cons c rest => exact (reads_token c rest).satisfying_refuses (by rw [passes, missed c rfl])

/-- A choice of one parser. -/
theorem Picks.choice_nil (picks : p.Picks test) : (choice p []).Picks test := by
  refine picks_of ?_ ?_
  · intro whole c rest passed
    exact Reads.choice (picks.reads passed)
  · intro whole chars missed
    exact Refuses.choice_nil (picks.refuses missed)

/-- A choice between parsers of one character picks what any of them does. -/
theorem Picks.choice {q : Parser} {more : List Parser} {other : Char → Bool}
    (picks : p.Picks test) (others : (Parser.choice q more).Picks other) :
    (Parser.choice p (q :: more)).Picks fun c => test c || other c := by
  refine picks_of ?_ ?_
  · intro whole c rest passed
    by_cases first : test c = true
    · exact Reads.choice (picks.reads first)
    · have second : other c = true := by simpa [first] using passed
      have missed : ∀ d ∈ (c :: rest).head?, test d = false := by
        rintro d head
        obtain rfl := Option.some.inj head
        exact Bool.not_eq_true _ ▸ first
      exact (picks.refuses missed).choice (others.reads second)
  · intro whole chars missed
    have both : ∀ c ∈ chars.head?, test c = false ∧ other c = false := by
      intro c head
      exact Bool.or_eq_false_iff.mp (missed c head)
    refine (picks.refuses fun c head => (both c head).1).choice ?_
    exact others.refuses fun c head => (both c head).2

/-- Any character may come that a parser of one character does not take. -/
theorem Picks.guard (picks : p.Picks test) :
    (chain (refusing p) [token]).Picks fun c => !test c := by
  refine picks_of ?_ ?_
  · intro whole c rest passed
    have missed : ∀ d ∈ (c :: rest).head?, test d = false := by
      rintro d head
      obtain rfl := Option.some.inj head
      simpa using passed
    exact (picks.refuses missed).refusing.before (reads_token c rest)
  · intro whole chars missed
    cases chars with
    | nil =>
      have ended : p.Refuses whole [] := picks whole []
      exact ended.refusing.before refuses_token
    | cons c rest =>
      have passed : test c = true := by simpa using missed c rfl
      exact Refuses.chain (picks.reads passed).refusing

/-- The characters that pass make a row. -/
theorem Picks.row (picks : p.Picks test) (taken : List Char) (rest : List Char)
    (passed : ∀ c ∈ taken, test c = true) :
    Row (p.Steps whole) (taken ++ rest) ((taken.map Char.toString).map .text) rest := by
  induction taken with
  | nil => exact .none
  | cons c taken inductionHypothesis =>
    refine .more ⟨picks.reads (passed c List.mem_cons_self), ?_⟩ (inductionHypothesis ?_)
    · exact Nat.lt_succ_self _
    · intro d member
      exact passed d (List.mem_cons_of_mem c member)

/-- Characters as texts make up the text of them. -/
theorem join_map_toString (chars : List Char) :
    String.join (chars.map Char.toString) = String.ofList chars := by
  induction chars with
  | nil => rfl
  | cons c rest inductionHypothesis =>
    rw [List.map_cons, String.join_cons, inductionHypothesis]
    simp

/-- All characters that pass are taken together as a text, if there are enough of them. -/
theorem Picks.text_reads (picks : p.Picks test) (least : Nat) (taken rest : List Char)
    (passed : ∀ c ∈ taken, test c = true) (stops : ∀ c ∈ rest.head?, test c = false)
    (enough : least ≤ taken.length) :
    (text p (.atLeast least)).Reads whole (taken ++ rest) (.text (String.ofList taken)) rest := by
  have row : Row (p.Steps whole) (taken ++ rest) _ rest := picks.row taken rest passed
  have reads := row_collect row (picks.refuses stops) least (by simpa using enough)
  rw [← join_map_toString]
  exact Reads.textOf reads

/-- So many characters are taken as there have to be, if they pass, whatever comes after them. -/
theorem Picks.exactly_reads (picks : p.Picks test) (taken rest : List Char)
    (passed : ∀ c ∈ taken, test c = true) :
    (p.collect (.exactly taken.length)).Reads whole (taken ++ rest)
      (.list ((taken.map Char.toString).map .text)) rest :=
  row_exactly (picks.row taken rest passed) _ (by simp)

/-- Too few characters that pass. -/
theorem Picks.text_refuses (picks : p.Picks test) (least : Nat) (taken rest : List Char)
    (passed : ∀ c ∈ taken, test c = true) (stops : ∀ c ∈ rest.head?, test c = false)
    (short : taken.length < least) :
    (text p (.atLeast least)).Refuses whole (taken ++ rest) := by
  have row : Row (p.Steps whole) (taken ++ rest) _ rest := picks.row taken rest passed
  exact Refuses.textOf (row_collect_short row (picks.refuses stops) least (by simpa using short))

end Parser
end Descent
