import Descent.Proofs.Spoken
import Descent.Proofs.Waiting

/-!
# How numbers in words begin

A text from which a number in words is read opens with a word for tens, or with the last word of a
number below twenty, or with a count and what is counted: some hundreds, or as many of a large unit
as a word below twenty says.

A text meets a word if it goes on as the word does for as long as both are there. Then the parser of
the word does not give up, and neither does the parser of any number that may begin with it. A word
below twenty is already a cardinal.
-/

namespace Descent

open Words

variable {whole : Array Char} {chars text taken full run gap : List Char} {form : NumberForm}
  {words : List String} {w : String} {v : Value}

/-! ## Words that are not finished yet -/

theorem Words.ones_subset : ones ⊆ teens := by decide

/-- A text meets a word of a list: it begins with what stands for the word, or breaks off in it. -/
def Words.Meets (words : List String) (chars : List Char) : Prop :=
  ∃ w ∈ words, ∃ taken, Casing.folded.Spells w.toList taken ∧ (chars <+: taken ∨ taken <+: chars)

/-- A text that begins with a word meets it wherever the text is cut. -/
theorem Words.meets_cut (member : w ∈ words) (spells : Casing.folded.Spells w.toList taken)
    (begins : taken <+: full) (cut : chars <+: full) : Meets words chars :=
  ⟨w, member, taken, spells, List.prefix_or_prefix_of_prefix cut begins⟩

theorem Words.plain_firsts (form : NumberForm) : ∀ words ∈ firsts form, Plain words :=
  fun words first => (lettered_counting words (firsts_counting form words first)).plain

namespace Parser

/-- A word that the text meets is taken, or waited for. -/
theorem bides_word (plain : Plain words) (meets : Meets words chars) :
    (word words).Bides whole chars fun v rest =>
      ∃ w ∈ words, ∃ taken, chars = taken ++ rest ∧ v = .text (String.ofList taken) ∧
        Casing.folded.Spells w.toList taken := by
  obtain ⟨w, member, taken, spells, agrees⟩ := meets
  have listed : w ∈ longestFirst words := mem_longestFirst.mpr member
  suffices bides : (word words).Bides whole chars fun _ _ => True from
    (settles_word plain).failsOr bides
  unfold word
  cases sorted : longestFirst words with
  | nil =>
    rw [sorted] at listed
    exact absurd listed List.not_mem_nil
  | cons first others =>
    rw [sorted] at listed
    have target : Casing.folded.target w = w := (plain w member).1
    exact bides_oneOf listed (target.symm ▸ spells) agrees

theorem bides_placedWord (plain : Plain words) (number : Nat → Nat) (meets : Meets words chars) :
    (placedWord words number).Bides whole chars fun v _ => v.IsInt := by
  refine FailsOr.map ((bides_word plain meets).mono ?_)
  rintro _ rest ⟨w, member, taken, _, rfl, spells⟩
  obtain ⟨n, found⟩ := place_spelled plain member spells
  simp only [found]
  exact ⟨_, rfl, _, rfl⟩

theorem bides_upToNineteen (meets : Meets (teensOf form) chars) :
    (upToNineteen form).Bides whole chars fun v _ => v.IsInt := by
  rw [upToNineteen_eq]
  exact bides_placedWord (lettered_teensOf form).plain id meets

/-- Behind a word for tens there may be nothing. -/
theorem bides_tensAndOnes (meets : Meets tens chars) :
    (tensAndOnes form).Bides whole chars fun v _ => v.IsInt := by
  have plain : Plain tens := (lettered_tensOf .cardinal).plain
  have name : (word tens).Bides whole chars fun v _ =>
      ∃ t, v = .text t ∧ ∃ ten, place tens t = .ok ten := by
    refine (bides_word plain meets).mono ?_
    rintro _ _ ⟨w, member, taken, _, rfl, spells⟩
    exact ⟨_, rfl, place_spelled plain member spells⟩
  refine name.script_text ?_
  rintro t rest ⟨ten, found⟩
  have more : (chain wordBreak [oneToNine form]).Settles whole rest fun v _ => v.IsInt :=
    Settles.before settles_wordBreak fun _ middle _ => (gains_oneToNine form).settles
  have ones : (choice (chain wordBreak [oneToNine form]) [succeed (.int 0)]).Bides whole rest
      fun v _ => ∃ n, v = .int n ∧ True := by
    refine (bides_either (Built.chain Built.wordBreak ?_) (Built.succeed _) more
      ((reads_succeed _).settles ⟨0, rfl⟩) (.inr ((reads_succeed _).failsOr ⟨0, rfl⟩))).mono ?_
    · exact List.forall_mem_singleton.mpr (Built.oneToNine form)
    · rintro v _ ⟨n, rfl⟩
      exact ⟨n, rfl, trivial⟩
  refine failsOr_check found (ones.script_int ?_)
  intro n left _
  exact FailsOr.script_done _ ((reads_succeed _).failsOr ⟨_, rfl⟩)

/-- A number below a hundred does not give up on its first word. -/
theorem bides_upToNinetyNine (first : words ∈ firsts form) (meets : Meets words chars) :
    (upToNinetyNine form).Bides whole chars fun v _ => v.IsInt := by
  have tens : (tensAndOnes form).Settles whole chars fun v _ => v.IsInt :=
    (gains_tensAndOnes form).settles
  have teens : (upToNineteen form).Settles whole chars fun v _ => v.IsInt :=
    (gains_upToNineteen form).settles
  have cases : words = Words.tens ∨ words = tensOf form ∨ words = teensOf form := by
    simpa [firsts] using first
  cases form with
  | cardinal =>
    refine bides_either (Built.tensAndOnes _) (Built.upToNineteen _) tens teens ?_
    rcases cases with rfl | rfl | rfl
    · exact .inl (bides_tensAndOnes meets)
    · exact .inl (bides_tensAndOnes meets)
    · exact .inr (bides_upToNineteen meets)
  | ordinal =>
    have plain : Plain ordinalTens := (lettered_tensOf .ordinal).plain
    have ordinals (number : Nat → Nat) :
        (placedWord ordinalTens number).Settles whole chars fun v _ => v.IsInt :=
      (gains_placedWord plain number).settles
    have one : ∃ part ∈ [tensAndOnes .ordinal, placedWord ordinalTens fun n => (n + 2) * 10,
        upToNineteen .ordinal], part.Bides whole chars fun v _ => v.IsInt := by
      rcases cases with rfl | rfl | rfl
      · exact ⟨tensAndOnes .ordinal, by simp, bides_tensAndOnes meets⟩
      · exact ⟨_, by simp, bides_placedWord plain (fun n => (n + 2) * 10) meets⟩
      · exact ⟨upToNineteen .ordinal, by simp, bides_upToNineteen meets⟩
    refine bides_choice ?_ ?_ one
    · refine List.forall_mem_cons.mpr ⟨Built.tensAndOnes _, ?_⟩
      exact List.forall_mem_cons.mpr
        ⟨Built.placedWord _ _, List.forall_mem_singleton.mpr (Built.upToNineteen _)⟩
    · refine List.forall_mem_cons.mpr ⟨tens, ?_⟩
      exact List.forall_mem_cons.mpr ⟨ordinals _, List.forall_mem_singleton.mpr teens⟩

/-- A number below a thousand does not give up where one of its two kinds does not. -/
theorem bides_upToThreeNines
    (one : (hundreds form).Bides whole chars (fun v _ => v.IsInt) ∨
      (upToNinetyNine form).Bides whole chars fun v _ => v.IsInt) :
    (upToThreeNines form).Bides whole chars fun v _ => v.IsInt :=
  bides_either (Built.hundreds form) (Built.upToNinetyNine form) (gains_hundreds form).settles
    (gains_upToNinetyNine form).settles one

/-- A number does not give up where one with a large unit or one without it does not. -/
theorem bides_numberWords
    (one : (∀ larger : Parser, (bigNumber form larger).Bides whole chars fun _ _ => True) ∨
      (upToThreeNines form).Bides whole chars fun v _ => v.IsInt) :
    (numberWords form).Bides whole chars fun v _ => v.IsInt := by
  have built (unread : Nat) : Built False (Parser.within (numberWordsOver form) unread) :=
    Built.within
      (fun _ inner => Built.either (Built.bigNumber form inner) (Built.upToThreeNines form)) unread
  have inner : (Parser.within (numberWordsOver form) chars.length).Gains whole chars.length 1
      Value.IsInt := Gains.inside (gains_numberWords form)
  have big : (bigNumber form (Parser.within (numberWordsOver form) chars.length)).Gains whole
      (chars.length + 1) 1 Value.IsInt := gains_bigNumber inner
  refine FailsOr.recursive (bides_either (Built.bigNumber form (built chars.length))
    (Built.upToThreeNines form) big.settles (gains_upToThreeNines form).settles ?_)
  exact one.imp_left fun bides => big.settles.failsOr (bides _)

/-! ## What a number begins with -/

end Parser

/-- A count and what is counted: some hundreds, or as many of a large unit as a word below twenty
says. -/
inductive Counted : List Char → Prop where
  | hundred {one : String} {run gap : List Char} (member : one ∈ ones)
      (spells : Casing.folded.Spells one.toList run) (between : Break gap) :
      Counted (run ++ (gap ++ "hundred".toList))
  | unit {teen unit : String} {run gap name : List Char} (member : teen ∈ teens)
      (spells : Casing.folded.Spells teen.toList run) (between : Break gap) (known : unit ∈ units)
      (named : Casing.folded.Spells unit.toList name) : Counted (run ++ (gap ++ name))

/-- What is counted stands behind a blank or a hyphen. -/
theorem Counted.marked {lead : List Char} (counted : Counted lead) :
    ∃ c ∈ lead, blank c = true ∨ c = '-' := by
  have ofBreak {run gap others : List Char} (between : Break gap) :
      ∃ c ∈ run ++ (gap ++ others), blank c = true ∨ c = '-' := by
    cases between with
    | @blanks c _ first _ => exact ⟨c, by simp, .inl first⟩
    | hyphen => exact ⟨'-', by simp, .inr rfl⟩
  cases counted with
  | hundred _ _ between => exact ofBreak between
  | unit _ _ between => exact ofBreak between

/-- The first words of a number: a word that a number below a hundred begins with, or a count and
what is counted. -/
inductive Opening (form : NumberForm) : List Char → Prop where
  | word {words : List String} {w : String} {taken : List Char} (first : words ∈ firsts form)
      (member : w ∈ words) (spells : Casing.folded.Spells w.toList taken) : Opening form taken
  | counted {opening : List Char} (counted : Counted opening) : Opening form opening

namespace Parser

/-- A text that begins with no word of a list is refused. -/
theorem refuses_word (plain : Plain words)
    (never : ∀ w ∈ words, ∀ taken, Casing.folded.Spells w.toList taken → ¬ taken <+: chars) :
    (word words).Refuses whole chars := by
  refine (settles_word plain).refuses ?_
  rintro _ rest ⟨w, member, taken, rfl, _, spells⟩
  exact never w member taken spells (List.prefix_append taken rest)

/-- Without a count in front of a hundred there are no hundreds. -/
theorem refuses_hundreds_unopened (of : NumberForm)
    (never : ∀ opening, Opening form opening → ¬ opening <+: chars) :
    (hundreds of).Refuses whole chars := by
  have settles : (hundreds of).Settles whole chars fun _ _ => False := by
    refine Settles.script_int (settles_placedWord (lettered_onesOf .cardinal).plain _) ?_
    rintro n _ ⟨one, member, run, rfl, spells⟩
    refine Settles.script_parse settles_wordBreak ?_
    rintro _ _ ⟨gap, between, rfl⟩
    refine Settles.script_parse (settles_literal "hundred" .exact) ?_
    rintro _ rest ⟨taken, rfl, _, same⟩
    obtain rfl := Casing.spells_exact_iff.mp same
    refine absurd ⟨rest, ?_⟩ (never _ (.counted (.hundred member spells between)))
    rw [List.append_assoc, List.append_assoc]
    rfl
  exact settles.refuses fun _ _ => not_false

/-- Without a word below twenty in front of a large unit there is no number of the unit that does
not begin with one of the other words. -/
theorem refuses_bigNumber_unopened {larger : Parser}
    (never : ∀ opening, Opening form opening → ¬ opening <+: chars) :
    (bigNumber form larger).Refuses whole chars := by
  have noTens : (tensAndOnes .cardinal).Refuses whole chars :=
    Refuses.script _ (refuses_word (lettered_tensOf .cardinal).plain fun w member taken spells =>
      never taken (.word (by simp [firsts]) member spells))
  have count : (upToThreeNines .cardinal).Settles whole chars fun v rest =>
      ∃ n, v = .int n ∧ ∃ teen ∈ teens, ∃ run, chars = run ++ rest ∧
        Casing.folded.Spells teen.toList run := by
    refine Settles.either (refuses_hundreds_unopened .cardinal never).settles ?_
    exact Settles.either noTens.settles (settles_placedWord (lettered_teensOf .cardinal).plain id)
  have settles : (bigNumber form larger).Settles whole chars fun _ _ => False := by
    refine Settles.script_int count ?_
    rintro n _ ⟨teen, member, run, rfl, spells⟩
    refine Settles.script_parse settles_wordBreak ?_
    rintro _ left ⟨gap, between, rfl⟩
    have refuses : (word units).Refuses whole left := by
      refine refuses_word lettered_units.plain ?_
      rintro unit known name named ⟨rest, rfl⟩
      refine never _ (.counted (.unit member spells between known named)) ⟨rest, ?_⟩
      rw [List.append_assoc, List.append_assoc]
    exact Refuses.settles (refuses.script _)
  exact settles.refuses fun _ _ => not_false

/-- A number has one of the openings. -/
theorem refuses_numberWords_unopened
    (never : ∀ opening, Opening form opening → ¬ opening <+: chars) :
    (numberWords form).Refuses whole chars := by
  have noWord : ∀ words ∈ firsts form, (word words).Refuses whole chars :=
    fun words first => refuses_word (plain_firsts form words first) fun w member taken spells =>
      never taken (.word first member spells)
  exact Answers.recursive (Refuses.either (refuses_bigNumber_unopened never)
    (Refuses.either (refuses_hundreds_unopened form never) (refuses_upToNinetyNine form noWord)))

/-- A text that is accepted begins with an opening. -/
theorem opens {t expected : String}
    (accepted : (((numberWords form).label expected).parseValue (.ofString t)).result = .ok v) :
    ∃ opening, Opening form opening ∧ opening <+: t.toList := by
  by_contra none
  have refuses : (numberWords form).Refuses t.toList.toArray t.toList :=
    refuses_numberWords_unopened fun opening opens begins => none ⟨opening, opens, begins⟩
  have settles : ((numberWords form).label expected).Settles t.toList.toArray t.toList
      fun _ _ => False := Settles.label expected refuses.settles
  exact settles.accepted accepted

/-- A beginning of a cardinal bides until the number is there. -/
theorem bides_cardinal {t : String} (accepted : (cardinal.parseValue (.ofString t)).result = .ok v)
    (cut : chars <+: t.toList) : cardinal.Bides whole chars fun v _ => v.IsInt := by
  obtain ⟨opening, opens, begins⟩ := opens accepted
  have meets : ∃ words ∈ firsts .cardinal, Meets words chars := by
    cases opens with
    | word first member spells => exact ⟨_, first, meets_cut member spells begins cut⟩
    | counted counted =>
      refine ⟨teens, by simp [firsts, teensOf], ?_⟩
      cases counted with
      | @hundred one run gap member spells _ =>
        exact meets_cut (ones_subset member) spells ((List.prefix_append run _).trans begins) cut
      | @unit teen _ run _ _ member spells =>
        exact meets_cut member spells ((List.prefix_append run _).trans begins) cut
  obtain ⟨words, first, meets⟩ := meets
  exact (bides_numberWords (.inr (bides_upToThreeNines (.inr
    (bides_upToNinetyNine first meets))))).label "cardinal"

end Parser
end Descent
