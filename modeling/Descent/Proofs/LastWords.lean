import Descent.Proofs.Phrases

/-!
# The last word of a cardinal and of an ordinal

The last word of a number shows which form it has. Only the words for tens do not: where no ones
follow them they are taken as they are in either form. So a text that is accepted as a cardinal
number is accepted as an ordinal just if it ends in a word for tens, and then it has the same
number.

For this the two parsers are followed side by side through a cardinal number. They differ where its
last word is read and nowhere before.
-/

namespace Descent

open Words

variable {whole : Array Char} {form : NumberForm} {chars taken between rest middle text : List Char}
  {words others : List String} {larger grander p q : Parser} {n : Int}

/-! ## Last words -/

namespace Words

/-- The words that end a number of a form, without those for tens that end both. -/
def lastWords : NumberForm → List String
  | .cardinal => teens ++ "hundred" :: units
  | .ordinal => ordinalTeens ++ (ordinalTens ++ ("hundred" :: units).map (· ++ "th"))

theorem small_lastWords (form : NumberForm) : Small (lastWords form) := by
  cases form <;> decide +kernel

theorem small_tens : Small tens := by
  decide +kernel

/-- Cardinal numbers, ordinals and the words for tens have no last word in common. -/
theorem lastWords_disjoint :
    (∀ w ∈ lastWords .cardinal, w ∉ lastWords .ordinal) ∧
      ∀ form, ∀ w ∈ lastWords form, w ∉ tens := by
  refine ⟨by decide +kernel, fun form => ?_⟩
  cases form <;> decide +kernel

end Words

/-- The last word of a text is one of some words, in either case. -/
def EndsIn (words : List String) (text : List Char) : Prop :=
  ∃ front taken, text = front ++ taken ∧ (∀ c ∈ front.getLast?, Parting c) ∧
    ∃ w ∈ words, Casing.folded.Spells w.toList taken

/-- A word on its own is the last one. -/
theorem endsIn_word {w : String} (member : w ∈ words)
    (spells : Casing.folded.Spells w.toList taken) : EndsIn words taken :=
  ⟨[], taken, rfl, nofun, w, member, spells⟩

/-- The last word of what follows a gap is the last word of all. -/
theorem EndsIn.behind (ends : EndsIn words rest) (gap : Gap between) (before : List Char) :
    EndsIn words (before ++ (between ++ rest)) := by
  obtain ⟨some, parting⟩ := gap.ends
  obtain ⟨front, taken, rfl, marked, known⟩ := ends
  refine ⟨before ++ (between ++ front), taken, by simp, ?_, known⟩
  intro c last
  rw [List.getLast?_append, List.getLast?_append] at last
  cases front with
  | nil =>
    obtain ⟨d, mark⟩ := Option.isSome_iff_exists.mp (List.getLast?_isSome.mpr some)
    rw [List.getLast?_nil, Option.none_or, mark, Option.some_or] at last
    exact parting c (mark.trans last)
  | cons d front =>
    obtain ⟨e, mark⟩ :=
      Option.isSome_iff_exists.mp (List.getLast?_isSome.mpr (List.cons_ne_nil d front))
    rw [mark, Option.some_or, Option.some_or] at last
    exact marked c (mark.trans last)

/-- Of two last words of a text the shorter one is all of the other. -/
theorem last_unique {front back : List Char} {w : String} (same : front ++ taken = back ++ text)
    (marked : ∀ c ∈ front.getLast?, Parting c) (lower : w.toList.all Char.isLower = true)
    (spells : Casing.folded.Spells w.toList text) (shorter : taken.length ≤ text.length) :
    taken = text := by
  rcases List.append_eq_append_iff.mp same with ⟨more, -, rfl⟩ | ⟨more, rfl, rfl⟩
  · rw [List.length_append] at shorter
    rw [List.eq_nil_of_length_eq_zero (by omega : more.length = 0), List.nil_append]
  · -- What is behind the front word would have a mark in it.
    rcases List.eq_nil_or_concat more with rfl | ⟨others, c, rfl⟩
    · rfl
    · have parting : Parting c := marked c (by simp)
      exact absurd parting (spells.solid lower c (by simp))

/-- A text has only one last word. -/
theorem EndsIn.unique (first : EndsIn words text) (second : EndsIn others text)
    (lower : Small words) (small : Small others) : ∃ w ∈ words, w ∈ others := by
  obtain ⟨front, taken, rfl, marked, w, member, spells⟩ := first
  obtain ⟨back, known, same, parted, v, listed, stands⟩ := second
  have equal : taken = known := by
    rcases Nat.le_total taken.length known.length with shorter | shorter
    · exact last_unique same marked (small v listed) stands shorter
    · exact (last_unique same.symm parted (lower w member) spells shorter).symm
  subst equal
  rw [String.toList_inj.mp (spells.folded_unique stands)] at member
  exact ⟨v, member, listed⟩

/-- The last word is one of its form or a word for tens. -/
theorem LastWord.endsIn (word : LastWord form taken) :
    EndsIn (lastWords form) taken ∨ EndsIn tens taken := by
  have small : Small ("hundred" :: units) := by decide +kernel
  have suffixed {w : String} {taken : List Char} (listed : w ∈ "hundred" :: units)
      (spells : Casing.folded.Spells w.toList taken) :
      EndsIn (lastWords form) (taken ++ endingOf form) := by
    cases form with
    | cardinal =>
      rw [endingOf, List.append_nil]
      exact endsIn_word (List.mem_append_right _ listed) spells
    | ordinal =>
      have ending : Casing.folded.Spells ['t', 'h'] ['t', 'h'] := Casing.spells_lower (by decide)
      have both := spells.append ending
      have letters : (w ++ "th").toList = w.toList ++ ['t', 'h'] := by
        rw [String.toList_append]
        rfl
      rw [← letters] at both
      refine endsIn_word (List.mem_append_right _ (List.mem_append_right _ ?_)) both
      exact List.mem_map_of_mem listed
  cases word with
  | @counted w _ listed spells =>
    cases form with
    | cardinal =>
      rcases listed with teen | ten
      · exact .inl (endsIn_word (List.mem_append_left _ teen) spells)
      · exact .inr (endsIn_word (or_self_iff.mp ten) spells)
    | ordinal =>
      rcases listed with teen | ordinal | ten
      · exact .inl (endsIn_word (List.mem_append_left _ teen) spells)
      · exact .inl (endsIn_word (List.mem_append_right _ (List.mem_append_left _ ordinal)) spells)
      · exact .inr (endsIn_word ten spells)
  | hundred =>
    exact .inl (suffixed List.mem_cons_self (small.spells List.mem_cons_self))
  | unit listed spells => exact .inl (suffixed (List.mem_cons_of_mem _ listed) spells)

/-- A phrase ends in a word of its form or in a word for tens. -/
theorem Phrase.endsIn (phrase : Phrase form taken) :
    EndsIn (lastWords form) taken ∨ EndsIn tens taken := by
  induction phrase with
  | last word => exact word.endsIn
  | more word gap later inductionHypothesis =>
    exact inductionHypothesis.imp (fun ends => ends.behind gap _) fun ends => ends.behind gap _

/-- The last word of a text is one of some words and stands behind a gap, with which the text
begins. -/
def EndsBehind (words : List String) (text : List Char) : Prop :=
  ∃ between rest, Gap between ∧ EndsIn words rest ∧ text = between ++ rest

theorem EndsBehind.endsIn (ends : EndsBehind words rest) (before : List Char) :
    EndsIn words (before ++ rest) := by
  obtain ⟨between, rest, gap, ends, rfl⟩ := ends
  exact ends.behind gap before

/-- Behind a word the last word is in what follows, or it is the word itself. -/
theorem endsIn_behind_word {w : String} (member : w ∈ words)
    (spells : Casing.folded.Spells w.toList taken) (gap : Gap between)
    (ends : rest = [] ∨ EndsBehind words rest) (before : List Char) :
    EndsIn words (before ++ (between ++ (taken ++ rest))) := by
  rcases ends with rfl | ends
  · rw [List.append_nil]
    exact (endsIn_word member spells).behind gap before
  · have later := ends.endsIn (before ++ (between ++ taken))
    rwa [List.append_assoc, List.append_assoc] at later

namespace Parser

/-! ## Both forms side by side -/

/-- What a parser of cardinals reads to the end of a text ends in a word for cardinals alone, or
else a parser of ordinals reads it as well. -/
abbrev Doubles (p q : Parser) (whole : Array Char) (chars : List Char) : Prop :=
  p.Settles whole chars fun v rest => ∃ n, v = .int n ∧
    (rest = [] → EndsIn (lastWords .cardinal) chars ∨ q.Reads whole chars (.int n) [])

/-- What is found as a smaller part of a cardinal number, if it goes to the end of a text, ends in a
word for cardinals alone, or else a parser of ordinals reads it as well. There may be no smaller
part. -/
def DoublesPart (q : Parser) (whole : Array Char) (chars : List Char) (v : Value)
    (rest : List Char) : Prop :=
  (v = .null ∧ rest = chars) ∨ ∃ n, v = .int n ∧
    (rest = [] → EndsBehind (lastWords .cardinal) chars ∨ q.Reads whole chars (.int n) [])

/-- A script that ends with the number of a smaller part. -/
def withPart (name : String) (form : NumberForm) (p : Parser) (size : Int → Int) : Parser :=
  script name do
    let v ← Script.parse p
    let small ← smallerPart form v
    return succeed (.int (size small))

/-- Where a smaller part is found a script goes on in both forms. -/
theorem DoublesPart.script {v : Value} (doubles : DoublesPart q whole chars v rest)
    (reads : p.Reads whole chars v rest) (name : String) (size : Int → Int) :
    ∃ n, (withPart name .cardinal p size).Reads whole chars (.int n) rest ∧
      (rest = [] → (chars = [] ∨ EndsBehind (lastWords .cardinal) chars) ∨
        (withPart name .ordinal q size).Reads whole chars (.int n) []) := by
  rcases doubles with ⟨rfl, rfl⟩ | ⟨n, rfl, ends⟩
  · refine ⟨size 0, reads.script_parse ((reads_succeed _).script_done _), ?_⟩
    exact fun ended => .inl (.inl ended)
  · refine ⟨size n, reads.script_parse ((reads_succeed _).script_done _), ?_⟩
    intro ended
    rcases ends ended with ends | ordinal
    · exact .inl (.inr ends)
    · exact .inr (ordinal.script_parse ((reads_succeed _).script_done _))

/-- A word of a list of those for cardinals. -/
theorem settles_endsIn (plain : Plain words) (known : ∀ w ∈ words, w ∈ lastWords .cardinal)
    (number : Nat → Nat) :
    (placedWord words number).Settles whole chars fun v rest => ∃ n, v = .int n ∧
      (rest = [] → EndsIn (lastWords .cardinal) chars) := by
  refine (settles_placedWord plain number).mono ?_
  rintro _ rest ⟨n, rfl, w, member, taken, rfl, spells⟩
  refine ⟨n, rfl, ?_⟩
  rintro rfl
  rw [List.append_nil]
  exact endsIn_word (known w member) spells

/-- Without ones a word for tens is the same in both forms. -/
theorem doubles_tensAndOnes :
    Doubles (tensAndOnes .cardinal) (tensAndOnes .ordinal) whole chars := by
  have plain : Plain tens := plain_lists _ (by simp)
  have first : (word tens).Settles whole chars _ := settles_word plain
  rcases first.cases with refuses | ⟨_, middle, name, w, member, taken, rfl, rfl, spells⟩
  · exact Refuses.settles (refuses.script _)
  obtain ⟨ten, found⟩ := place_spelled plain member spells
  have ones : (choice (chain wordBreak [oneToNine .cardinal]) [succeed (.int 0)]).Settles whole
      middle fun v rest => ∃ n, v = .int n ∧ (rest = [] →
        EndsBehind (lastWords .cardinal) middle ∨ middle = [] ∧ n = 0) := by
    refine Settles.either (settles_wordBreak.before ?_)
      (settles_succeed ⟨0, rfl, fun ended => .inr ⟨ended, rfl⟩⟩)
    rintro _ left ⟨gap, between, rfl⟩
    refine (settles_endsIn (plain_lists _ (by simp)) (by decide) _).mono ?_
    rintro _ rest ⟨n, rfl, ends⟩
    exact ⟨n, rfl, fun ended => .inl ⟨gap, left, .plain between, ends ended, rfl⟩⟩
  refine name.settles_text (settles_check found (Settles.script_int ones ?_))
  intro n rest tail
  refine Settles.script_done _ (settles_succeed ⟨_, rfl, ?_⟩)
  intro ended
  rcases tail ended with ends | ⟨rfl, rfl⟩
  · exact .inl (ends.endsIn taken)
  · exact .inr (name.script_text (script_check found
      ((reads_noOnes .ordinal .ended).script_int ((reads_succeed _).script_done _))))

theorem doubles_upToNinetyNine :
    Doubles (upToNinetyNine .cardinal) (upToNinetyNine .ordinal) whole chars := by
  refine Settles.either (doubles_tensAndOnes.mono ?_)
    ((settles_endsIn (plain_lists _ (by simp)) (by decide) _).mono ?_)
  · rintro _ rest ⟨n, rfl, ends⟩
    exact ⟨n, rfl, fun ended => (ends ended).imp_right Reads.choice⟩
  · rintro _ rest ⟨n, rfl, ends⟩
    exact ⟨n, rfl, fun ended => .inl (ends ended)⟩

theorem doubles_behindHundred (whole : Array Char) (chars : List Char) :
    ∃ v rest, (behindHundred .cardinal).Reads whole chars v rest ∧
      DoublesPart (behindHundred .ordinal) whole chars v rest := by
  have nothing {first : Parser} (refuses : first.Refuses whole chars) :
      ∃ v rest, (choice first [succeed .null]).Reads whole chars v rest ∧
        DoublesPart (behindHundred .ordinal) whole chars v rest :=
    ⟨_, _, refuses.either (reads_succeed _), .inl ⟨rfl, rfl⟩⟩
  have breaks : wordBreak.Settles whole chars _ := settles_wordBreak
  rcases breaks.cases with refuses | ⟨_, middle, first, gap, between, rfl⟩
  · exact nothing refuses.chain
  have joint : (optional (chain (literal "and") [wordBreak])).Settles whole middle _ :=
    settles_joint
  rcases joint.cases with refuses | ⟨_, left, second, joined⟩
  · exact nothing (first.chain refuses.chain)
  have small : Doubles (upToNinetyNine .cardinal) (upToNinetyNine .ordinal) whole left :=
    doubles_upToNinetyNine
  rcases small.cases with refuses | ⟨_, rest, reads, n, rfl, ends⟩
  · exact nothing (first.chain (second.chain refuses.chain_nil))
  refine ⟨_, rest, Reads.choice (first.chain (second.chain reads.chain_nil)), .inr ⟨n, rfl, ?_⟩⟩
  intro ended
  rcases ends ended with ends | ordinal
  · left
    rcases joined with rfl | ⟨later, following, rfl⟩
    · exact ⟨gap, left, .plain between, ends, rfl⟩
    · exact ⟨gap, _, .plain between, ends.behind (.plain following) _, rfl⟩
  · exact .inr (Reads.choice (first.chain (second.chain ordinal.chain_nil)))

/-- Where there is a number of hundreds in one form there is one in the other. -/
theorem doubles_hundreds (whole : Array Char) (chars : List Char) :
    (hundreds .cardinal).Refuses whole chars ∧ (hundreds .ordinal).Refuses whole chars ∨
      ∃ n rest, (hundreds .cardinal).Reads whole chars (.int n) rest ∧
        (rest = [] → EndsIn (lastWords .cardinal) chars ∨
          (hundreds .ordinal).Reads whole chars (.int n) []) := by
  have count : (oneToNine .cardinal).Settles whole chars _ := settles_oneToNine .cardinal
  rcases count.cases with refuses | ⟨_, left, counted, k, rfl, taken, rfl, -⟩
  · exact .inl ⟨refuses.script _, refuses.script _⟩
  have breaks : wordBreak.Settles whole left _ := settles_wordBreak
  rcases breaks.cases with refuses | ⟨_, middle, first, gap, between, rfl⟩
  · exact .inl ⟨counted.script_int (refuses.script _), counted.script_int (refuses.script _)⟩
  have hundred : (literal "hundred").Settles whole middle _ := settles_exact "hundred"
  rcases hundred.cases with refuses | ⟨_, tail, second, rfl, rfl⟩
  · exact .inl ⟨counted.script_int (first.script_parse (refuses.script _)),
      counted.script_int (first.script_parse (refuses.script _))⟩
  obtain ⟨v, rest, part, doubles⟩ := doubles_behindHundred whole tail
  obtain ⟨n, reads, ends⟩ := doubles.script part "hundreds" fun small => k * 100 + small
  refine .inr ⟨n, rest, counted.script_int (first.script_parse (second.script_parse reads)), ?_⟩
  intro ended
  rcases ends ended with ends | ordinal
  · have word : "hundred" ∈ lastWords .cardinal := by decide
    have spells := (small_lastWords .cardinal).spells word
    exact .inl (endsIn_behind_word word spells (.plain between) ends taken)
  · exact .inr (counted.script_int (first.script_parse (second.script_parse ordinal)))

theorem doubles_upToThreeNines :
    Doubles (upToThreeNines .cardinal) (upToThreeNines .ordinal) whole chars := by
  rcases doubles_hundreds whole chars with ⟨refuses, others⟩ | ⟨n, rest, reads, ends⟩
  · rcases doubles_upToNinetyNine.cases with none | ⟨_, rest, reads, n, rfl, ends⟩
    · exact Refuses.settles (refuses.either none)
    · exact Reads.settles (refuses.either reads)
        ⟨n, rfl, fun ended => (ends ended).imp_right others.either⟩
  · exact Reads.settles (Reads.choice reads)
      ⟨n, rfl, fun ended => (ends ended).imp_right Reads.choice⟩

/-! ## Numbers of any size -/

/-- Where an *and* comes behind a break no number of any size does. -/
theorem refuses_larger {left : List Char} {v : Value} (between : Break taken)
    (reads : wordBreak.Reads whole (taken ++ left) v left) (refuses : larger.Refuses whole left) :
    (chain (choice (chain (literal ",") [spaces]) [wordBreak]) [larger]).Refuses whole
      (taken ++ left) := by
  have noComma : (literal ",").Refuses whole (taken ++ left) := by
    refine refuses_literal_at rfl ?_
    rintro c head rfl
    cases between with
    | blanks first later =>
      obtain rfl := Option.some.inj head
      exact absurd first (by decide)
    | hyphen => cases head
  have gap : (choice (chain (literal ",") [spaces]) [wordBreak]).Reads whole (taken ++ left) v
      left := Refuses.either noComma.chain reads
  exact gap.before refuses

/-- An *and* with a number below a thousand is found behind a large unit in both forms. No number
of any size comes there instead. -/
theorem doubles_behindUnit_and
    (noLarger : (chain (choice (chain (literal ",") [spaces]) [wordBreak]) [larger]).Refuses whole
      chars)
    (noAnd : ∀ left, left.length < chars.length → "and".toList <+: left →
      grander.Refuses whole left) :
    ∃ v rest, (behindUnit .cardinal larger).Reads whole chars v rest ∧
      DoublesPart (behindUnit .ordinal grander) whole chars v rest := by
  have nothing (refuses : (chain wordBreak
      [literal "and", wordBreak, upToThreeNines .cardinal]).Refuses whole chars) :
      ∃ v rest, (behindUnit .cardinal larger).Reads whole chars v rest ∧
        DoublesPart (behindUnit .ordinal grander) whole chars v rest :=
    ⟨_, _, noLarger.choice (refuses.either (reads_succeed _)), .inl ⟨rfl, rfl⟩⟩
  have breaks : wordBreak.Settles whole chars _ := settles_wordBreak
  rcases breaks.cases with refuses | ⟨_, middle, first, gap, between, rfl⟩
  · exact nothing refuses.chain
  have and : (literal "and").Settles whole middle _ := settles_exact "and"
  rcases and.cases with refuses | ⟨_, left, second, rfl, rfl⟩
  · exact nothing (first.chain refuses.chain)
  have breaks : wordBreak.Settles whole left _ := settles_wordBreak
  rcases breaks.cases with refuses | ⟨_, last, third, after, following, rfl⟩
  · exact nothing (first.chain (second.chain refuses.chain))
  have group : Doubles (upToThreeNines .cardinal) (upToThreeNines .ordinal) whole last :=
    doubles_upToThreeNines
  rcases group.cases with refuses | ⟨_, rest, reads, n, rfl, ends⟩
  · exact nothing (first.chain (second.chain (third.chain refuses.chain_nil)))
  refine ⟨_, rest, noLarger.choice (Reads.choice
    (first.chain (second.chain (third.chain reads.chain_nil)))), .inr ⟨n, rfl, ?_⟩⟩
  intro ended
  rcases ends ended with ends | ordinal
  · exact .inl ⟨gap, _, .plain between, ends.behind (.plain following) _, rfl⟩
  · have noGrander := refuses_larger between first
      (noAnd _ ((Gap.plain between).shorter _) (List.prefix_append _ _))
    exact .inr (noGrander.choice
      (Reads.choice (first.chain (second.chain (third.chain ordinal.chain_nil)))))

/-- What may come behind a large unit is found in both forms. -/
theorem doubles_behindUnit
    (inner : ∀ left, left.length < chars.length → Doubles larger grander whole left)
    (noAnd : ∀ left, left.length < chars.length → "and".toList <+: left →
      grander.Refuses whole left) :
    ∃ v rest, (behindUnit .cardinal larger).Reads whole chars v rest ∧
      DoublesPart (behindUnit .ordinal grander) whole chars v rest := by
  have gaps : (choice (chain (literal ",") [spaces]) [wordBreak]).Settles whole chars _ :=
    settles_gap
  rcases gaps.cases with refuses | ⟨_, middle, first, gap, between, rfl⟩
  · exact doubles_behindUnit_and refuses.chain noAnd
  rcases (inner middle (between.shorter middle)).cases with refuses | ⟨_, rest, reads, n, rfl, ends⟩
  · exact doubles_behindUnit_and (first.before refuses) noAnd
  · refine ⟨_, rest, Reads.choice (first.before reads), .inr ⟨n, rfl, ?_⟩⟩
    intro ended
    rcases ends ended with ends | ordinal
    · exact .inl ⟨gap, middle, between, ends, rfl⟩
    · exact .inr (Reads.choice (first.before ordinal))

/-- A part that fits below a unit does so in both forms. -/
theorem doubles_fitting (unit : Int)
    (found : ∃ v rest, p.Reads whole chars v rest ∧ DoublesPart q whole chars v rest) :
    (satisfying (fitsBelow unit) p).Settles whole chars
      (DoublesPart (satisfying (fitsBelow unit) q) whole chars) := by
  obtain ⟨v, rest, reads, doubles⟩ := found
  rcases doubles with ⟨rfl, rfl⟩ | ⟨n, rfl, ends⟩
  · exact Reads.settles (reads.satisfying rfl) (.inl ⟨rfl, rfl⟩)
  · obtain ⟨passed, compared⟩ := fitsBelow_part unit (.inr ⟨n, rfl⟩)
    cases passed with
    | false => exact Refuses.settles (reads.satisfying_refuses compared)
    | true =>
      refine Reads.settles (reads.satisfying compared) (.inr ⟨n, rfl, fun ended => ?_⟩)
      exact (ends ended).imp_right fun ordinal => ordinal.satisfying compared

/-- A large unit with what comes behind it. -/
theorem doubles_bigNumber
    (inner : ∀ left, left.length < chars.length → Doubles larger grander whole left)
    (noAnd : ∀ left, left.length < chars.length → "and".toList <+: left →
      grander.Refuses whole left) :
    Doubles (bigNumber .cardinal larger) (bigNumber .ordinal grander) whole chars := by
  have count : SettlesPhrase .cardinal (upToThreeNines .cardinal) whole chars :=
    settles_upToThreeNines .cardinal
  rcases count.cases with refuses | ⟨_, left, counted, k, rfl, taken, rfl, -⟩
  · exact Refuses.settles (refuses.script _)
  have breaks : wordBreak.Settles whole left _ := settles_wordBreak
  rcases breaks.cases with refuses | ⟨_, middle, first, gap, between, rfl⟩
  · exact Refuses.settles (counted.script_int (refuses.script _))
  have named : (word units).Settles whole middle _ := settles_word lettered_units.plain
  rcases named.cases with refuses | ⟨_, tail, name, w, member, unit, rfl, rfl, spells⟩
  · exact Refuses.settles (counted.script_int (first.script_parse (refuses.script _)))
  obtain ⟨power, found⟩ := place_spelled lettered_units.plain member spells
  have shorter : tail.length < (taken ++ (gap ++ (unit ++ tail))).length :=
    (Gap.plain between).shorter_behind taken unit tail
  have parts := doubles_fitting (Binary64.tenTo ((power + 1) * 3)) (doubles_behindUnit
    (fun left less => inner left (less.trans shorter))
    fun left less => noAnd left (less.trans shorter))
  rcases parts.cases with refuses | ⟨v, rest, part, doubles⟩
  · exact Refuses.settles (counted.script_int (first.script_parse
      (name.script_text (script_check found (refuses.script _)))))
  obtain ⟨n, reads, ends⟩ := doubles.script part "big_number" fun small =>
    k * (Binary64.tenTo ((power + 1) * 3) : Nat) + small
  refine Reads.settles (counted.script_int (first.script_parse
    (name.script_text (script_check found reads)))) ⟨n, rfl, ?_⟩
  intro ended
  rcases ends ended with ends | ordinal
  · have word : w ∈ lastWords .cardinal :=
      List.mem_append_right _ (List.mem_cons_of_mem _ member)
    exact .inl (endsIn_behind_word word spells (.plain between) ends taken)
  · exact .inr (counted.script_int (first.script_parse
      (name.script_text (script_check found ordinal))))

/-- A number of any size, given what comes behind a large unit. -/
theorem doubles_numberWordsOver
    (inner : ∀ left, left.length < chars.length → Doubles larger grander whole left)
    (noAnd : ∀ left, left.length < chars.length → "and".toList <+: left →
      grander.Refuses whole left) :
    Doubles (numberWordsOver .cardinal larger) (numberWordsOver .ordinal grander) whole chars := by
  have group : Doubles (upToThreeNines .cardinal) (upToThreeNines .ordinal) whole chars :=
    doubles_upToThreeNines
  rcases group.cases with refuses | ⟨_, middle, reads, k, rfl, ends⟩
  · exact Refuses.settles (Refuses.either (refuses.script _) refuses)
  -- Either a number below a thousand is all, or more has to follow it.
  by_cases ended : middle = []
  · subst ended
    have noBreak : wordBreak.Refuses whole [] := refuses_wordBreak nofun
    have noBig (form : NumberForm) (larger : Parser) :
        (bigNumber form larger).Refuses whole chars :=
      reads.script_int (noBreak.script _)
    refine Reads.settles ((noBig .cardinal larger).either reads) ⟨k, rfl, fun _ => ?_⟩
    exact (ends rfl).imp_right (noBig .ordinal grander).either
  · rcases (doubles_bigNumber inner noAnd).cases with refuses | ⟨_, rest, big, n, rfl, bigEnds⟩
    · exact Reads.settles (refuses.either reads) ⟨k, rfl, fun none => absurd none ended⟩
    · exact Reads.settles (Reads.choice big)
        ⟨n, rfl, fun none => (bigEnds none).imp_right Reads.choice⟩

/-- The two forms read cardinal numbers side by side. The induction is on how much is left of the
text, as the rule is used inside itself behind a large unit only. -/
theorem doubles_numberWords :
    Doubles (numberWords .cardinal) (numberWords .ordinal) whole chars := by
  induction count : chars.length using Nat.strong_induction_on generalizing chars with
  | _ count inductionHypothesis =>
    have inner : ∀ left, left.length < chars.length →
        Doubles (within (numberWordsOver .cardinal) chars.length)
          (within (numberWordsOver .ordinal) chars.length) whole left := by
      intro left shorter
      refine Settles.inside ((inductionHypothesis _ (count ▸ shorter) rfl).mono ?_) shorter
      rintro _ rest ⟨n, rfl, ends⟩
      exact ⟨n, rfl, fun ended => (ends ended).imp_right fun reads => reads.inside shorter⟩
    have noAnd : ∀ left, left.length < chars.length → "and".toList <+: left →
        (within (numberWordsOver .ordinal) chars.length).Refuses whole left := by
      rintro _ shorter ⟨rest, rfl⟩
      exact Answers.inside (refuses_numberWords_and .ordinal rest) shorter
    refine Settles.recursive ((doubles_numberWordsOver inner noAnd).mono ?_)
    rintro _ rest ⟨n, rfl, ends⟩
    exact ⟨n, rfl, fun ended => (ends ended).imp_right Answers.recursive⟩

end Parser

open Descent.Parser

/-- A phrase that is all of a text ends it in a word of its form or in a word for tens. -/
theorem endsIn_of_accepted {p : Parser} {t : String} {v : Value}
    (settles : SettlesPhrase form p t.toList.toArray t.toList)
    (accepted : (p.parseValue (.ofString t)).result = .ok v) :
    EndsIn (lastWords form) t.toList ∨ EndsIn tens t.toList := by
  obtain ⟨n, -, taken, divided, phrase⟩ := settles.accepted accepted
  rw [divided, List.append_nil]
  exact phrase.endsIn

/-- A cardinal number that ends in a word for tens is accepted as an ordinal too. -/
theorem ordinal_of_cardinal {t : String} {v : Value} (ten : EndsIn tens t.toList)
    (accepted : (cardinal.parseValue (.ofString t)).result = .ok v) :
    (ordinal.parseValue (.ofString t)).result = .ok v := by
  have doubled : Doubles cardinal (numberWords .ordinal) t.toList.toArray t.toList :=
    doubles_numberWords.label _
  obtain ⟨n, rfl, ends⟩ := doubled.accepted accepted
  rcases ends rfl with cardinalWord | reads
  · obtain ⟨w, last, listed⟩ := cardinalWord.unique ten (small_lastWords .cardinal) small_tens
    exact absurd listed (lastWords_disjoint.2 .cardinal w last)
  · exact Reads.parseValue (Answers.label _ reads)

/-- Only ordinals and texts with a word for tens at the end are accepted as ordinals. Where a text
is accepted as a cardinal number, it is accepted as an ordinal just if it ends in a word for tens,
and the numbers agree. -/
theorem ordinals_accept_cardinals_in_tens (t : String) :
    (∀ v, (ordinal.parseValue (.ofString t)).result = .ok v →
      EndsIn (lastWords .ordinal) t.toList ∨ EndsIn tens t.toList) ∧
    ∀ v, (cardinal.parseValue (.ofString t)).result = .ok v →
      (EndsIn tens t.toList → (ordinal.parseValue (.ofString t)).result = .ok v) ∧
      (¬ EndsIn tens t.toList → ∃ failure,
        (ordinal.parseValue (.ofString t)).result = .error (.rejected failure)) := by
  have ordinals : SettlesPhrase .ordinal ordinal t.toList.toArray t.toList :=
    (settles_numberWords .ordinal).label _
  have cardinals : SettlesPhrase .cardinal cardinal t.toList.toArray t.toList :=
    (settles_numberWords .cardinal).label _
  refine ⟨fun v => endsIn_of_accepted ordinals, fun v accepted =>
    ⟨fun ten => ordinal_of_cardinal ten accepted, fun noTen => ?_⟩⟩
  have ⟨reply, answer, _⟩ := ordinals
  rcases answer.parseValue with ⟨w, -, parsed⟩ | ⟨-, rejected⟩
  · -- Otherwise its last word would be one of either form.
    have cardinalWord := (endsIn_of_accepted cardinals accepted).resolve_right noTen
    have ordinalWord := (endsIn_of_accepted ordinals parsed).resolve_right noTen
    obtain ⟨w, last, listed⟩ :=
      cardinalWord.unique ordinalWord (small_lastWords .cardinal) (small_lastWords .ordinal)
    exact absurd listed (lastWords_disjoint.1 w last)
  · exact rejected

/-- A word for tens alone is accepted in both forms. -/
theorem tens_accepted_in_both_forms :
    (cardinal.parseValue (.ofString "twenty")).result = .ok (.int 20) ∧
      (ordinal.parseValue (.ofString "twenty")).result = .ok (.int 20) := by
  have twenty : SmallText .cardinal "twenty".toList 20 := .tens (k := 0) rfl
  have number : NumberText .cardinal units.length "twenty".toList 20 := .group (.small twenty)
  have accepted := parses_words number "cardinal"
  have ten : EndsIn tens "twenty".toList :=
    endsIn_word (by decide) (small_tens.spells (by decide))
  exact ⟨accepted, ordinal_of_cardinal ten accepted⟩

end Descent
