import Descent.Proofs.Spoken

/-!
# Numbers in words are phrases

Whatever is accepted as a number in words is a row of words with gaps between them. The words in
front of the last are those of cardinal numbers in either case, or a *hundred* or an *and* in small
letters. The last one shows the form, but for the words for tens: they end ordinals as well.

This holds of every text. It says nothing of which phrases are numbers, and of what they denote.
-/

namespace Descent

open Words

variable {whole : Array Char} {form : NumberForm} {chars taken between rest left : List Char}
  {w : String} {words : List String} {larger : Parser}

/-- What may stand between two words of a phrase. -/
inductive Gap : List Char → Prop where
  | plain {gap : List Char} (between : Break gap) : Gap gap
  | comma {c : Char} {others : List Char} (first : blank c = true)
      (later : ∀ d ∈ others, blank d = true) : Gap (',' :: c :: others)

/-- A blank or a hyphen: behind it a word may begin. -/
def Parting (c : Char) : Prop := blank c = true ∨ c = '-'

instance (c : Char) : Decidable (Parting c) := inferInstanceAs (Decidable (_ ∨ _))

/-- A gap is not empty, and ends in a blank or a hyphen. -/
theorem Gap.ends (gap : Gap between) :
    between ≠ [] ∧ ∀ c ∈ between.getLast?, Parting c := by
  have blanks {c : Char} {others : List Char} (first : blank c = true)
      (later : ∀ d ∈ others, blank d = true) : ∀ d ∈ (c :: others).getLast?, Parting d := by
    intro d last
    rcases List.mem_cons.mp (List.mem_of_getLast? last) with rfl | member
    · exact .inl first
    · exact .inl (later d member)
  cases gap with
  | plain between =>
    cases between with
    | blanks first later => exact ⟨List.cons_ne_nil _ _, blanks first later⟩
    | hyphen => exact ⟨by decide, by rintro c ⟨⟩; exact .inr rfl⟩
  | comma first later =>
    refine ⟨List.cons_ne_nil _ _, ?_⟩
    rw [List.getLast?_cons_cons]
    exact blanks first later

/-- What is behind a gap is shorter. -/
theorem Gap.shorter (gap : Gap between) (rest : List Char) :
    rest.length < (between ++ rest).length := by
  have some : 0 < between.length := List.length_pos_iff.mpr gap.ends.1
  rw [List.length_append]
  omega

/-- What is behind a gap and a word is shorter. -/
theorem Gap.shorter_behind (gap : Gap between) (before word rest : List Char) :
    rest.length < (before ++ (between ++ (word ++ rest))).length := by
  have behind : (word ++ rest).length < (between ++ (word ++ rest)).length := gap.shorter _
  calc rest.length ≤ (word ++ rest).length := by simp
    _ < (between ++ (word ++ rest)).length := behind
    _ ≤ (before ++ (between ++ (word ++ rest))).length := by simp

/-- Nothing in what stands for small letters parts words. -/
theorem Casing.Spells.solid {letters : List Char} (spells : Casing.folded.Spells letters taken)
    (lower : letters.all Char.isLower = true) : ∀ c ∈ taken, ¬ Parting c := by
  unfold Casing.Spells at spells
  induction spells with
  | nil => nofun
  | @cons letter d letters taken first later inductionHypothesis =>
    rw [List.all_cons, Bool.and_eq_true] at lower
    intro c member parting
    rcases List.mem_cons.mp member with rfl | inside
    · obtain ⟨noBlank, noHyphen⟩ := solid_of_takes lower.1 first
      rcases parting with isBlank | rfl
      · exact absurd isBlank (by simp [noBlank])
      · exact noHyphen rfl
    · exact inductionHypothesis lower.2 c inside parting

/-- Words of small letters. -/
def Words.Small (words : List String) : Prop := ∀ w ∈ words, w.toList.all Char.isLower = true

instance (words : List String) : Decidable (Small words) :=
  inferInstanceAs (Decidable (∀ w ∈ words, _))

/-- Such a word stands for itself. -/
theorem Words.Small.spells (small : Small words) (member : w ∈ words) :
    Casing.folded.Spells w.toList w.toList :=
  Casing.spells_lower (small w member)

/-- A word in front of the last. -/
inductive InnerWord : List Char → Prop where
  | counted {w : String} {taken : List Char} (listed : w ∈ teens ∨ w ∈ tens ∨ w ∈ units)
      (spells : Casing.folded.Spells w.toList taken) : InnerWord taken
  | hundred : InnerWord "hundred".toList
  | and : InnerWord "and".toList

/-- A word that ends a number of a form. -/
inductive LastWord (form : NumberForm) : List Char → Prop where
  | counted {w : String} {taken : List Char}
      (listed : w ∈ teensOf form ∨ w ∈ tensOf form ∨ w ∈ tens)
      (spells : Casing.folded.Spells w.toList taken) : LastWord form taken
  | hundred : LastWord form ("hundred".toList ++ endingOf form)
  | unit {w : String} {taken : List Char} (listed : w ∈ units)
      (spells : Casing.folded.Spells w.toList taken) : LastWord form (taken ++ endingOf form)

/-- Words with gaps between them. -/
inductive Phrase (form : NumberForm) : List Char → Prop where
  | last {taken : List Char} (word : LastWord form taken) : Phrase form taken
  | more {taken between rest : List Char} (word : InnerWord taken) (gap : Gap between)
      (later : Phrase form rest) : Phrase form (taken ++ (between ++ rest))

/-- What is left of a text begins behind a gap and a phrase. -/
def Behind (form : NumberForm) (chars rest : List Char) : Prop :=
  ∃ between taken, Gap between ∧ Phrase form taken ∧ chars = between ++ (taken ++ rest)

/-- The last word of a cardinal number may stand in front of others. -/
theorem LastWord.inner (word : LastWord .cardinal taken) : InnerWord taken := by
  cases word with
  | counted listed spells =>
    exact .counted (listed.imp_right fun ten => .inl (or_self_iff.mp ten)) spells
  | hundred => exact .hundred
  | unit listed spells =>
    rw [endingOf, List.append_nil]
    exact .counted (.inr (.inr listed)) spells

/-- A phrase goes on behind a cardinal number. -/
theorem Phrase.joined (first : Phrase .cardinal taken) (gap : Gap between)
    (second : Phrase form rest) : Phrase form (taken ++ (between ++ rest)) := by
  induction first with
  | last word => exact .more word.inner gap second
  | more word inner later inductionHypothesis =>
    rw [List.append_assoc, List.append_assoc]
    exact .more word inner inductionHypothesis

namespace Parser

/-! ## Words and gaps that are read -/

/-- A comma with blanks or a break is read as a gap. -/
theorem settles_gap :
    (choice (chain (literal ",") [spaces]) [wordBreak]).Settles whole chars fun _ rest =>
      ∃ between, Gap between ∧ chars = between ++ rest := by
  refine Settles.either ((settles_exact ",").before ?_) (settles_wordBreak.mono ?_)
  · rintro _ middle ⟨-, rfl⟩
    refine settles_spaces.mono ?_
    rintro _ rest ⟨c, others, first, later, rfl⟩
    exact ⟨_, .comma first later, rfl⟩
  · rintro _ rest ⟨between, gap, divided⟩
    exact ⟨between, .plain gap, divided⟩

/-- A number in one word, which may end a number. -/
abbrev SettlesWord (form : NumberForm) (p : Parser) (whole : Array Char) (chars : List Char) :
    Prop :=
  p.Settles whole chars fun v rest =>
    ∃ n, v = .int n ∧ ∃ taken, chars = taken ++ rest ∧ LastWord form taken

theorem settles_lastWord (plain : Plain words)
    (known : ∀ w ∈ words, w ∈ teensOf form ∨ w ∈ tensOf form ∨ w ∈ tens) (number : Nat → Nat) :
    SettlesWord form (placedWord words number) whole chars := by
  refine (settles_placedWord plain number).mono ?_
  rintro _ rest ⟨n, rfl, w, member, taken, divided, spells⟩
  exact ⟨n, rfl, taken, divided, .counted (known w member) spells⟩

theorem settles_oneToNine (form : NumberForm) : SettlesWord form (oneToNine form) whole chars := by
  have known : ∀ w ∈ onesOf form, w ∈ teensOf form := by cases form <;> decide
  rw [oneToNine_eq]
  exact settles_lastWord (lettered_onesOf form).plain (fun w member => .inl (known w member)) _

theorem settles_upToNineteen (form : NumberForm) :
    SettlesWord form (upToNineteen form) whole chars := by
  rw [upToNineteen_eq]
  exact settles_lastWord (lettered_teensOf form).plain (fun w => .inl) _

/-! ## Numbers below a thousand -/

/-- A number in words is read as a phrase. -/
abbrev SettlesPhrase (form : NumberForm) (p : Parser) (whole : Array Char) (chars : List Char) :
    Prop :=
  p.Settles whole chars fun v rest =>
    ∃ n, v = .int n ∧ ∃ taken, chars = taken ++ rest ∧ Phrase form taken

theorem SettlesWord.phrase {p : Parser} (settles : SettlesWord form p whole chars) :
    SettlesPhrase form p whole chars := by
  refine settles.mono ?_
  rintro v rest ⟨n, value, taken, divided, word⟩
  exact ⟨n, value, taken, divided, .last word⟩

/-- A smaller part is read as a phrase behind a gap, or there is none. -/
abbrev SettlesPart (form : NumberForm) (p : Parser) (whole : Array Char) (chars : List Char) :
    Prop :=
  p.Settles whole chars fun v rest =>
    (v = .null ∧ rest = chars) ∨ (∃ n, v = .int n) ∧ Behind form chars rest

/-- Whatever the text is, a smaller part is read as a phrase behind a gap, or nothing is. -/
abbrev ReadsPart (form : NumberForm) (p : Parser) (whole : Array Char) (chars : List Char) :
    Prop :=
  ∃ v rest, p.Reads whole chars v rest ∧
    ((v = .null ∧ rest = chars) ∨ (∃ n, v = .int n) ∧ Behind form chars rest)

theorem ReadsPart.settles {p : Parser} (part : ReadsPart form p whole chars) :
    SettlesPart form p whole chars := by
  obtain ⟨v, rest, reads, found⟩ := part
  exact reads.settles found

/-- A script that looks up a word of a list goes on with its place. -/
theorem settles_place {name : String} {next : Nat → Script Parser}
    {post : Value → List Char → Prop} (plain : Plain words)
    (others : ∀ n, ∀ w ∈ words, ∀ taken left, chars = taken ++ left →
      Casing.folded.Spells w.toList taken → (script name (next n)).Settles whole left post) :
    (script name (Script.text (word words) >>= fun t => Script.ofExcept (place words t) >>=
      next)).Settles whole chars post := by
  have text : (word words).Settles whole chars fun v rest => ∃ t, v = .text t ∧
      ∃ w ∈ words, ∃ taken, chars = taken ++ rest ∧ t = String.ofList taken ∧
        Casing.folded.Spells w.toList taken := by
    refine (settles_word plain).mono ?_
    rintro _ rest ⟨w, member, taken, divided, rfl, spells⟩
    exact ⟨_, rfl, w, member, taken, divided, rfl, spells⟩
  refine Settles.script_text text ?_
  rintro _ left ⟨w, member, taken, divided, rfl, spells⟩
  obtain ⟨n, found⟩ := place_spelled plain member spells
  exact settles_check found (others n w member taken left divided spells)

theorem settles_tensAndOnes (form : NumberForm) :
    SettlesPhrase form (tensAndOnes form) whole chars := by
  refine settles_place (plain_lists tens (by simp)) ?_
  rintro ten w member taken middle rfl spells
  have one : (choice (chain wordBreak [oneToNine form]) [succeed (.int 0)]).Settles whole middle
      fun v rest => ∃ n, v = .int n ∧ (rest = middle ∨ Behind form middle rest) := by
    refine Settles.either (settles_wordBreak.before ?_)
      (settles_succeed ⟨0, rfl, .inl rfl⟩)
    rintro _ left ⟨gap, between, rfl⟩
    refine (settles_oneToNine form).mono ?_
    rintro _ rest ⟨n, rfl, last, rfl, word⟩
    exact ⟨n, rfl, .inr ⟨gap, last, .plain between, .last word, rfl⟩⟩
  refine Settles.script_int one ?_
  intro n rest tail
  refine Settles.script_done _ (settles_succeed ⟨_, rfl, ?_⟩)
  rcases tail with rfl | ⟨gap, last, between, later, rfl⟩
  · exact ⟨taken, rfl, .last (.counted (.inr (.inr member)) spells)⟩
  · have ten : InnerWord taken := .counted (.inr (.inl member)) spells
    exact ⟨taken ++ (gap ++ last), by simp, .more ten between later⟩

theorem settles_upToNinetyNine (form : NumberForm) :
    SettlesPhrase form (upToNinetyNine form) whole chars := by
  have teens : SettlesPhrase form (upToNineteen form) whole chars :=
    (settles_upToNineteen form).phrase
  cases form with
  | cardinal => exact (settles_tensAndOnes _).either teens
  | ordinal =>
    have tens : SettlesWord .ordinal (placedWord ordinalTens fun n => (n + 2) * 10) whole chars :=
      settles_lastWord (lettered_tensOf .ordinal).plain (fun w member => .inr (.inl member)) _
    exact (settles_tensAndOnes _).choice (tens.phrase.either teens)

/-- Behind a smaller part, or where there is none behind the end of the form, a script goes on. -/
theorem SettlesPart.script {p : Parser} {name : String} {next : Int → Script Parser}
    {post : Value → List Char → Prop} (part : SettlesPart form p whole chars)
    (others : ∀ n rest, chars = endingOf form ++ rest ∨ Behind form chars rest →
      (script name (next n)).Settles whole rest post) :
    (script name (Script.parse p >>= fun v => smallerPart form v >>= next)).Settles whole chars
      post := by
  refine Settles.script_parse part ?_
  rintro _ rest (⟨rfl, rfl⟩ | ⟨⟨n, rfl⟩, behind⟩)
  · cases form with
    | cardinal => exact others 0 rest (.inl rfl)
    | ordinal =>
      have suffix : (script name (Script.parse (literal "th") >>= fun _ => next 0)).Settles whole
          rest post := by
        refine Settles.script_parse (settles_exact "th") ?_
        rintro _ left ⟨-, rfl⟩
        exact others 0 left (.inl rfl)
      exact suffix
  · exact others n rest (.inr behind)

/-- An *and* in front of the smaller part is read, or there is none. -/
theorem settles_joint :
    (optional (chain (literal "and") [wordBreak])).Settles whole chars fun _ left =>
      left = chars ∨ ∃ gap, Break gap ∧ chars = "and".toList ++ (gap ++ left) := by
  refine Settles.optional ((settles_exact "and").before ?_) (.inl rfl)
  rintro _ after ⟨-, rfl⟩
  refine settles_wordBreak.mono ?_
  rintro _ left ⟨gap, between, rfl⟩
  exact .inr ⟨gap, between, rfl⟩

theorem readsPart_behindHundred (form : NumberForm) :
    ReadsPart form (behindHundred form) whole chars := by
  refine Settles.orElse (settles_wordBreak.chain ?_) (reads_succeed _) (.inl ⟨rfl, rfl⟩)
  rintro _ middle ⟨gap, between, rfl⟩
  refine settles_joint.chain ?_
  intro _ left joined
  refine Settles.chain_nil ((settles_upToNinetyNine form).mono ?_)
  rintro _ rest ⟨n, rfl, taken, rfl, phrase⟩
  refine .inr ⟨⟨n, rfl⟩, ?_⟩
  rcases joined with rfl | ⟨second, later, rfl⟩
  · exact ⟨gap, taken, .plain between, phrase, rfl⟩
  · exact ⟨gap, _, .plain between, .more .and (.plain later) phrase, by simp⟩

theorem settles_hundreds (form : NumberForm) :
    SettlesPhrase form (hundreds form) whole chars := by
  refine Settles.script_int (settles_oneToNine .cardinal) ?_
  rintro count _ ⟨first, rfl, word⟩
  refine Settles.script_parse settles_wordBreak ?_
  rintro _ _ ⟨gap, between, rfl⟩
  refine Settles.script_parse (settles_exact "hundred") ?_
  rintro _ _ ⟨-, rfl⟩
  refine (readsPart_behindHundred form).settles.script ?_
  intro n rest tail
  refine Settles.script_done _ (settles_succeed ⟨_, rfl, ?_⟩)
  rcases tail with rfl | ⟨second, later, following, phrase, rfl⟩
  · exact ⟨_, by simp, .more word.inner (.plain between) (.last .hundred)⟩
  · exact ⟨_, by simp, .more word.inner (.plain between) (.more .hundred following phrase)⟩

theorem settles_upToThreeNines (form : NumberForm) :
    SettlesPhrase form (upToThreeNines form) whole chars :=
  (settles_hundreds form).either (settles_upToNinetyNine form)

/-! ## Numbers of any size -/

theorem readsPart_behindUnit (form : NumberForm)
    (inner : ∀ left, left.length ≤ chars.length → SettlesPhrase form larger whole left) :
    ReadsPart form (behindUnit form larger) whole chars := by
  refine Settles.orLater (settles_gap.before ?_)
    (Settles.orElse (settles_wordBreak.chain ?_) (reads_succeed _) (.inl ⟨rfl, rfl⟩))
  · rintro _ middle ⟨gap, between, rfl⟩
    refine (inner middle (by simp)).mono ?_
    rintro _ rest ⟨n, rfl, taken, rfl, phrase⟩
    exact .inr ⟨⟨n, rfl⟩, gap, taken, between, phrase, rfl⟩
  · rintro _ _ ⟨gap, between, rfl⟩
    refine (settles_exact "and").chain ?_
    rintro _ _ ⟨-, rfl⟩
    refine settles_wordBreak.chain ?_
    rintro _ left ⟨second, later, rfl⟩
    refine Settles.chain_nil ((settles_upToThreeNines form).mono ?_)
    rintro _ rest ⟨n, rfl, taken, rfl, phrase⟩
    exact .inr ⟨⟨n, rfl⟩, gap, _, .plain between, .more .and (.plain later) phrase, by simp⟩

theorem settles_bigNumber (form : NumberForm)
    (inner : ∀ left, left.length < chars.length → SettlesPhrase form larger whole left) :
    SettlesPhrase form (bigNumber form larger) whole chars := by
  refine Settles.script_int (settles_upToThreeNines .cardinal) ?_
  rintro count _ ⟨many, rfl, counted⟩
  refine Settles.script_parse settles_wordBreak ?_
  rintro _ _ ⟨gap, between, rfl⟩
  refine settles_place lettered_units.plain ?_
  rintro power w member unit tail rfl spells
  have shorter : tail.length < (many ++ (gap ++ (unit ++ tail))).length :=
    (Gap.plain between).shorter_behind many unit tail
  have part : SettlesPart form (satisfying (fitsBelow (Binary64.tenTo ((power + 1) * 3)))
      (behindUnit form larger)) whole tail := by
    have behind : ReadsPart form (behindUnit form larger) whole tail :=
      readsPart_behindUnit form fun left less => inner left (by omega)
    refine Settles.satisfying (behind.settles.mono ?_)
    rintro v rest (⟨rfl, rfl⟩ | ⟨⟨n, rfl⟩, behind⟩)
    · exact ⟨true, rfl, fun _ => .inl ⟨rfl, rfl⟩⟩
    · obtain ⟨passed, compared⟩ := fitsBelow_part _ (.inr ⟨n, rfl⟩)
      exact ⟨passed, compared, fun _ => .inr ⟨⟨n, rfl⟩, behind⟩⟩
  refine part.script ?_
  intro n rest behind
  refine Settles.script_done _ (settles_succeed ⟨_, rfl, ?_⟩)
  rcases behind with rfl | ⟨second, later, following, phrase, rfl⟩
  · exact ⟨_, by simp, counted.joined (.plain between) (.last (.unit member spells))⟩
  · have listed : InnerWord unit := .counted (.inr (.inr member)) spells
    exact ⟨_, by simp, counted.joined (.plain between) (.more listed following phrase)⟩

/-- Whatever is read as a number in words is a phrase. The induction is on how much is left of the
text: where the rule is used inside itself a large unit was taken. -/
theorem settles_numberWords (form : NumberForm) :
    SettlesPhrase form (numberWords form) whole chars := by
  induction count : chars.length using Nat.strong_induction_on generalizing chars with
  | _ count inductionHypothesis =>
    have inner : ∀ left : List Char, left.length < chars.length →
        SettlesPhrase form (within (numberWordsOver form) chars.length) whole left := by
      intro left shorter
      exact Settles.inside (inductionHypothesis left.length (count ▸ shorter) rfl) shorter
    exact Settles.recursive ((settles_bigNumber form inner).either (settles_upToThreeNines form))

end Parser
end Descent
