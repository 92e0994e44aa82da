import Descent.Proofs.Openings

/-!
# Parsers that give up

A parser gives up on a text if it fails because of what is there, however the text may go on. A
literal gives up at the first character that does not stand for the wanted one. A choice gives up
if all of its alternatives do: of their failures none has met the end of the text, and so neither
has the one that stands for all of them.

So a choice decides a text if all of its alternatives do. A literal decides every text that does not
end within it, and a break between words decides whatever has not ended.
-/

namespace Descent

open Words

variable {whole : Array Char} {chars rest run known letters : List Char} {c : Char} {v : Value}
  {p q : Parser} {words : List String} {form : NumberForm} {casing : Casing} {s : State}
  {post : Value → List Char → Prop}

/-! ## Failures before the end -/

/-- Two failures before the end of the input make one before the end. -/
theorem Failure.Settled.merge? {earlier : Option Failure} {f : Failure}
    (first : Failure.Settled earlier) (second : f.wasEof = false) :
    ∃ e, Failure.merge? earlier (some f) = some e ∧ e.wasEof = false := by
  cases earlier with
  | none => exact ⟨f, rfl, second⟩
  | some e =>
    refine ⟨e.merge f, rfl, ?_⟩
    have before : e.wasEof = false := first e rfl
    unfold Failure.merge
    split
    · exact second
    · split
      · exact before
      · split
        · exact before
        · exact second
        · simp only [Failure.joined, before, second, Bool.or_self]

namespace Parser

theorem givesUp_failing (whole : Array Char) (chars : List Char) :
    failing.GivesUp whole chars := by
  intro s within
  have fresh : s.error = none := within.ready.clean
  refine ⟨_, ⟨s.position, [plainMessage], .failure, false⟩, rfl, ?_, rfl⟩
  rw [fresh]
  rfl

/-- If all attempts give up, and so did what came before them, then so does the choice. -/
theorem attempt_givesUp {p : Parser} {more : List Parser} {earlier : Option Failure}
    (within : s.Within whole chars) (settled : Failure.Settled earlier)
    (each : ∀ part ∈ p :: more, part.GivesUp whole chars) :
    ∃ reached e, (attempt s earlier p more).result = .ok reached ∧ reached.error = some e ∧
      e.wasEof = false := by
  obtain ⟨middle, f, went, failed, before⟩ := each p List.mem_cons_self s within
  have stuck : middle.failed = true := State.failed_of_error failed
  obtain ⟨e, merged, last⟩ := settled.merge? before
  rw [attempt_stuck earlier more went stuck, failed]
  cases more with
  | nil => exact ⟨_, e, rfl, merged, last⟩
  | cons next later =>
    have onwards : Failure.Settled (Failure.merge? earlier (some f)) := by
      rw [merged]
      rintro _ ⟨⟩
      exact last
    exact attempt_givesUp within onwards fun part member =>
      each part (List.mem_cons_of_mem p member)
termination_by more.length

theorem givesUp_choice {more : List Parser} (each : ∀ part ∈ p :: more, part.GivesUp whole chars) :
    (choice p more).GivesUp whole chars :=
  fun _ within => attempt_givesUp within nofun each

/-! ## Literals -/

end Parser

/-- A text has another character where a literal wants one. -/
inductive Casing.Disagrees (casing : Casing) : List Char → List Char → Prop where
  | here {letter c : Char} {wanted rest : List Char} (other : casing.takes letter c = false) :
      Disagrees casing (letter :: wanted) (c :: rest)
  | later {letter c : Char} {wanted rest : List Char} (same : casing.takes letter c = true)
      (later : Disagrees casing wanted rest) : Disagrees casing (letter :: wanted) (c :: rest)

/-- A word disagrees with the letters of another one, unless it begins them, or with what stands
behind them. -/
theorem Casing.disagrees_run (spells : folded.Spells known run) (ends : EndsWord (c :: rest))
    (lower : ∀ letter ∈ letters, letter.isLower = true) (unlike : ¬ letters <+: known) :
    folded.Disagrees letters (run ++ c :: rest) := by
  unfold Spells at spells
  induction spells generalizing letters with
  | nil =>
    cases letters with
    | nil => exact absurd List.nil_prefix unlike
    | cons letter letters => exact .here (ends c rfl letter (lower letter List.mem_cons_self))
  | @cons k d known run first _ inductionHypothesis =>
    cases letters with
    | nil => exact absurd List.nil_prefix unlike
    | cons letter letters =>
      by_cases taken : folded.takes letter d = true
      · have same : letter = k := takes_folded_unique taken first
        have others : ¬ letters <+: known := fun begins =>
          unlike (List.cons_prefix_cons.mpr ⟨same, begins⟩)
        exact .later taken
          (inductionHypothesis (fun l inside => lower l (List.mem_cons_of_mem _ inside)) others)
      · exact .here (Bool.eq_false_iff.mpr taken)

namespace Parser

/-- A literal gives up where the text disagrees with it. -/
theorem givesUp_literal {wanted : String}
    (disagrees : casing.Disagrees (casing.target wanted).toList chars) :
    (literal wanted casing).GivesUp whole chars := by
  refine Fails.label _ ?_
  generalize (casing.target wanted).toList = letters at disagrees
  generalize "" = matched
  induction disagrees generalizing matched with
  | @here letter c wanted rest other =>
    have gives : (satisfying (casing.admits letter)).GivesUp whole (c :: rest) := by
      refine (reads_token c rest).bind_fails ?_
      rw [casing.admits_text letter c, other]
      exact givesUp_failing whole rest
    exact gives.script _
  | @later letter c wanted rest same _ inductionHypothesis =>
    exact ((admits_picks casing letter).reads same).script_fails (inductionHypothesis _)

/-- A literal gives up where another character comes than its first one. -/
theorem givesUp_literal_at {wanted : String} {letter : Char}
    (begins : wanted.toList = letter :: run) (other : c ≠ letter) (rest : List Char) :
    (literal wanted).GivesUp whole (c :: rest) := by
  have disagrees : Casing.exact.Disagrees (letter :: run) (c :: rest) :=
    .here (beq_eq_false_iff_ne.mpr other)
  rw [← begins] at disagrees
  exact givesUp_literal disagrees

/-- A word of a list is given up where the text disagrees with all of the list. -/
theorem givesUp_word (plain : Plain words)
    (each : ∀ w ∈ words, Casing.folded.Disagrees w.toList chars) :
    (word words).GivesUp whole chars := by
  have known : ∀ w ∈ longestFirst words, w ∈ words := fun _ => mem_longestFirst.mp
  unfold word
  cases sorted : longestFirst words with
  | nil => exact givesUp_failing whole chars
  | cons first others =>
    rw [sorted] at known
    refine Fails.label _ (givesUp_choice ?_)
    intro part member
    rw [← List.map_cons (f := fun wanted => literal wanted .folded)] at member
    obtain ⟨w, listed, rfl⟩ := List.mem_map.mp member
    refine givesUp_literal ?_
    have target : Casing.folded.target w = w := (plain w (known w listed)).1
    rw [target]
    exact each w (known w listed)

/-- Where a word comes and something behind it that is no letter, a list is given up of which no
word begins it. -/
theorem givesUp_word_run (lettered : Lettered words) (spells : Casing.folded.Spells known run)
    (ends : EndsWord (c :: rest)) (unlike : ∀ w ∈ words, ¬ w.toList <+: known) :
    (word words).GivesUp whole (run ++ c :: rest) :=
  givesUp_word lettered.plain fun w member =>
    Casing.disagrees_run spells ends (lettered.lower w member) (unlike w member)

/-! ## Numbers -/

/-- A number below a hundred is given up where all words are that it may begin with. -/
theorem givesUp_upToNinetyNine
    (each : ∀ words ∈ firsts form, (word words).GivesUp whole chars) :
    (upToNinetyNine form).GivesUp whole chars := by
  have noTens : (tensAndOnes form).GivesUp whole chars := (each tens (by simp [firsts])).script _
  have noTeens : (upToNineteen form).GivesUp whole chars := by
    rw [upToNineteen_eq]
    exact (each _ (by simp [firsts])).map
  cases form with
  | cardinal =>
    refine givesUp_choice (List.forall_mem_cons.mpr ⟨noTens, ?_⟩)
    exact List.forall_mem_singleton.mpr noTeens
  | ordinal =>
    have noOther : (placedWord ordinalTens fun n => (n + 2) * 10).GivesUp whole chars :=
      (each ordinalTens (by simp [firsts, tensOf])).map
    refine givesUp_choice (List.forall_mem_cons.mpr ⟨noTens, ?_⟩)
    exact List.forall_mem_cons.mpr ⟨noOther, List.forall_mem_singleton.mpr noTeens⟩

/-- A number is given up where all of its kinds are. -/
theorem givesUp_numberWords (big : ∀ larger : Parser, (bigNumber form larger).GivesUp whole chars)
    (hundred : (hundreds form).GivesUp whole chars)
    (small : (upToNinetyNine form).GivesUp whole chars) :
    (numberWords form).GivesUp whole chars := by
  refine Fails.recursive (givesUp_choice ?_)
  refine List.forall_mem_cons.mpr ⟨big _, List.forall_mem_singleton.mpr (givesUp_choice ?_)⟩
  exact List.forall_mem_cons.mpr ⟨hundred, List.forall_mem_singleton.mpr small⟩

/-! ## Parsers that decide -/

/-- A choice between parsers that decide does so too. -/
theorem decides_choice {more : List Parser}
    (each : ∀ part ∈ p :: more, part.Decides whole chars post) :
    (choice p more).Decides whole chars post := by
  by_cases refuses : ∀ part ∈ p :: more, part.Refuses whole chars
  · have giveUp : ∀ part ∈ p :: more, part.GivesUp whole chars :=
      fun part member => (each part member).fails (refuses part member)
    exact (givesUp_choice giveUp).failsOr
  · obtain ⟨v, rest, reads, holds⟩ :=
      choice_reads (fun part member => (each part member).settles) refuses
    exact reads.failsOr holds

/-- A choice between two parsers that decide. -/
theorem decides_either (first : p.Decides whole chars post) (second : q.Decides whole chars post) :
    (choice p [q]).Decides whole chars post :=
  decides_choice (List.forall_mem_cons.mpr ⟨first, List.forall_mem_singleton.mpr second⟩)

/-- A test of what has been read decides. -/
theorem decides_satisfying {test : Value → Except Fault Bool} {passed : Bool}
    (reads : p.Reads whole chars v rest) (tested : test v = .ok passed) (holds : post v rest) :
    (satisfying test p).Decides whole chars post := by
  have found : p.Decides whole chars fun w left => w = v ∧ left = rest :=
    reads.failsOr ⟨rfl, rfl⟩
  refine found.bind ?_
  rintro _ _ ⟨rfl, rfl⟩
  rw [tested]
  cases passed with
  | true => exact (reads_succeed _).failsOr holds
  | false => exact (givesUp_failing _ _).failsOr

end Parser

/-- A text ends within what stands for some letters, or at the end of it. -/
def Casing.Cut (casing : Casing) (letters chars : List Char) : Prop :=
  ∃ taken, casing.Spells letters taken ∧ chars <+: taken

theorem Casing.cut_exact_iff : exact.Cut letters chars ↔ chars <+: letters := by
  constructor
  · rintro ⟨taken, spells, begins⟩
    rwa [spells_exact_iff.mp spells] at begins
  · intro begins
    exact ⟨letters, spells_exact_iff.mpr rfl, begins⟩

/-- A text that does not end within a word disagrees with it or begins with it. -/
theorem Casing.disagrees_or_begins (self : casing.Spells letters letters)
    (uncut : ¬ casing.Cut letters chars) : casing.Disagrees letters chars ∨
      ∃ taken rest, chars = taken ++ rest ∧ casing.Spells letters taken := by
  unfold Spells at self
  induction letters generalizing chars with
  | nil => exact .inr ⟨[], chars, rfl, .nil⟩
  | cons letter letters inductionHypothesis =>
    cases self with
    | cons itself others =>
      cases chars with
      | nil => exact absurd ⟨_, .cons itself others, List.nil_prefix⟩ uncut
      | cons c chars =>
        by_cases stands : casing.takes letter c = true
        · have later : ¬ casing.Cut letters chars := by
            rintro ⟨taken, spells, begins⟩
            exact uncut ⟨c :: taken, .cons stands spells, List.cons_prefix_cons.mpr ⟨rfl, begins⟩⟩
          rcases inductionHypothesis others later with disagrees | ⟨taken, rest, rfl, spells⟩
          · exact .inl (.later stands disagrees)
          · exact .inr ⟨c :: taken, rest, rfl, .cons stands spells⟩
        · exact .inl (.here (Bool.eq_false_iff.mpr stands))

/-- No word has a break in it. -/
theorem Break.uncut {gap tail : List Char} (between : Break gap)
    (lower : ∀ letter ∈ letters, letter.isLower = true) :
    ¬ Casing.folded.Cut letters (run ++ (gap ++ tail)) := by
  rintro ⟨_, spells, more, rfl⟩
  rw [List.append_assoc] at spells
  obtain ⟨front, back, rfl, -, later⟩ := spells.append_inv
  have parts : ∃ c others, gap ++ tail ++ more = c :: others ∧ (blank c = true ∨ c = '-') := by
    cases between with
    | blanks first _ => exact ⟨_, _, rfl, .inl first⟩
    | hyphen => exact ⟨_, _, rfl, .inr rfl⟩
  obtain ⟨c, others, same, parting⟩ := parts
  rw [same] at later
  cases later with
  | @cons letter _ _ _ stands _ =>
    obtain ⟨noBlank, noHyphen⟩ := solid_of_takes (lower letter (by simp)) stands
    rcases parting with isBlank | isHyphen
    · exact absurd (noBlank.symm.trans isBlank) Bool.false_ne_true
    · exact noHyphen isHyphen

namespace Parser

/-- A literal decides on a text that does not end within it. -/
theorem decides_literal {wanted : String}
    (self : casing.Spells (casing.target wanted).toList (casing.target wanted).toList)
    (uncut : ¬ casing.Cut (casing.target wanted).toList chars) :
    (literal wanted casing).Decides whole chars fun _ _ => True := by
  rcases casing.disagrees_or_begins self uncut with disagrees | ⟨taken, rest, rfl, spells⟩
  · exact (givesUp_literal disagrees).failsOr
  · exact (reads_spelled spells rest).failsOr trivial

/-- A literal matched exactly decides on a text that does not end within it. -/
theorem decides_exact {wanted : String} (uncut : ¬ chars <+: wanted.toList) :
    (literal wanted).Decides whole chars fun v rest =>
      v = .text wanted ∧ chars = wanted.toList ++ rest := by
  have decides : (literal wanted).Decides whole chars fun _ _ => True :=
    decides_literal (Casing.spells_exact_iff.mpr rfl) fun cut =>
      uncut (Casing.cut_exact_iff.mp cut)
  exact (settles_exact wanted).failsOr decides

/-- A word of a list decides on a text that does not end within any of them. -/
theorem decides_word (lettered : Lettered words)
    (uncut : ∀ w ∈ words, ¬ Casing.folded.Cut w.toList chars) :
    (word words).Decides whole chars fun v rest =>
      ∃ w ∈ words, ∃ taken, chars = taken ++ rest ∧ v = .text (String.ofList taken) ∧
        Casing.folded.Spells w.toList taken := by
  suffices decides : (word words).Decides whole chars fun _ _ => True from
    (settles_word lettered.plain).failsOr decides
  have known : ∀ w ∈ longestFirst words, w ∈ words := fun _ => mem_longestFirst.mp
  unfold word
  cases sorted : longestFirst words with
  | nil => exact (givesUp_failing whole chars).failsOr
  | cons first others =>
    rw [sorted] at known
    refine FailsOr.label _ (decides_choice ?_)
    intro part member
    rw [← List.map_cons (f := fun wanted => literal wanted .folded)] at member
    obtain ⟨w, listed, rfl⟩ := List.mem_map.mp member
    have target : Casing.folded.target w = w := (lettered.plain w (known w listed)).1
    apply decides_literal
    · rw [target]
      exact lettered.spells (known w listed)
    · rw [target]
      exact uncut w (known w listed)

/-- Blanks are given up where something else comes. -/
theorem givesUp_spaces (other : blank c = false) (rest : List Char) :
    spaces.GivesUp whole (c :: rest) := by
  have marks : c ≠ ' ' ∧ c ≠ '\t' ∧ c ≠ '\n' ∧ c ≠ '\r' := by
    simpa [← Bool.not_eq_true, blank_iff] using other
  obtain ⟨space, tab, newline, return_⟩ := marks
  have none : Parser.space.GivesUp whole (c :: rest) := by
    refine Fails.label _ (Fails.label _ (givesUp_choice ?_))
    simp only [List.map_cons, List.map_nil, List.forall_mem_cons, List.not_mem_nil]
    exact ⟨givesUp_literal_at rfl space rest, givesUp_literal_at rfl tab rest,
      givesUp_literal_at rfl newline rest, givesUp_literal_at rfl return_ rest, nofun⟩
  exact none.chain.label _

/-- A break decides where something is left of the text. -/
theorem decides_wordBreak (c : Char) (rest : List Char) :
    wordBreak.Decides whole (c :: rest) fun _ left =>
      ∃ gap, Break gap ∧ c :: rest = gap ++ left := by
  have blanks : spaces.Decides whole (c :: rest) fun _ _ => True := by
    cases first : blank c with
    | true => exact (reads_blanks first rest).failsOr trivial
    | false => exact (givesUp_spaces first rest).failsOr
  have hyphen : (literal "-").Decides whole (c :: rest) fun _ _ => True := by
    by_cases first : c = '-'
    · subst first
      have reads : (literal "-").Reads whole (['-'] ++ rest) (.text "-") rest :=
        reads_literal rfl rest
      exact reads.failsOr trivial
    · exact (givesUp_literal_at rfl first rest).failsOr
  exact settles_wordBreak.failsOr (decides_either blanks hyphen)

end Parser
end Descent
