import Descent.Parser.NumberWords
import Descent.Proofs.Gains
import Descent.Proofs.Numerals

/-!
# Number words end on every text

A word is matched without regard to case and then looked up in its list in small letters. It is
found there, because what stands for a word of small letters has just these as its small form: the
capital sigma, whose small form depends on its neighbours, stands for none of them.

What follows a large unit is read by the rule for numbers of any size again. At that place at least
the words for the count and for the unit were taken, so the rule goes on to shorter texts.
-/

namespace Descent

variable {whole : Array Char} {chars : List Char} {below least more : Nat} {kind : Value → Prop}
  {v : Value} {words : List String} {form : NumberForm}

/-! ## Words in lists -/

/-- What stands for small letters has them as its small form, whatever comes before. -/
theorem Casing.Spells.lowercase {wanted taken : List Char}
    (spells : Casing.folded.Spells wanted taken) (noSigma : 'σ' ∉ wanted)
    (before : List Char) : Text.foldAfter before taken = wanted := by
  unfold Casing.Spells at spells
  induction spells generalizing before with
  | nil => rfl
  | @cons w c wanted taken first later inductionHypothesis =>
    have alone : Text.foldChar c = [w] := takes_folded_eq.mp first
    have rest := inductionHypothesis (fun later => noSigma (List.mem_cons_of_mem w later))
      (c :: before)
    have other : c ≠ 'Σ' := by
      rintro rfl
      have same : 'σ' = w := (List.cons.inj alone).1
      exact noSigma (same ▸ List.mem_cons_self)
    simp [Text.foldAfter, other, alone, rest]

namespace Words

/-- Words in small letters that case folding leaves as they are. -/
def Plain (words : List String) : Prop :=
  ∀ word ∈ words, Text.lowercase word = word ∧ 0 < word.toList.length ∧ 'σ' ∉ word.toList

instance (words : List String) : Decidable (Plain words) :=
  inferInstanceAs (Decidable (∀ word ∈ words, _))

theorem mem_insertLonger {word other : String} :
    other ∈ insertLonger word words ↔ other = word ∨ other ∈ words := by
  induction words with
  | nil => exact List.mem_singleton.trans (or_iff_left List.not_mem_nil).symm
  | cons next rest inductionHypothesis =>
    rw [insertLonger]
    split
    · rw [List.mem_cons, inductionHypothesis, List.mem_cons, or_left_comm]
    · exact List.mem_cons

/-- Sorting words leaves just those that were there. -/
theorem mem_longestFirst {other : String} : other ∈ longestFirst words ↔ other ∈ words := by
  unfold longestFirst
  induction words with
  | nil => exact Iff.rfl
  | cons word rest inductionHypothesis =>
    rw [List.foldr_cons, mem_insertLonger, inductionHypothesis, List.mem_cons]

/-- What stands for a word of a list has the word as its small form. -/
theorem lowercase_spelled {word : String} {taken : List Char} (plain : Plain words)
    (member : word ∈ words) (spells : Casing.folded.Spells word.toList taken) :
    Text.lowercase (String.ofList taken) = word := by
  have noSigma := (plain word member).2.2
  rw [Text.lowercase, String.toList_ofList, spells.lowercase noSigma [], String.ofList_toList]

/-- What stands for a word of a list is found in the list. -/
theorem place_spelled {word : String} {taken : List Char} (plain : Plain words)
    (member : word ∈ words) (spells : Casing.folded.Spells word.toList taken) :
    ∃ n, place words (String.ofList taken) = .ok n := by
  rw [place, lowercase_spelled plain member spells]
  cases index : words.idxOf? word with
  | some n => exact ⟨n, rfl⟩
  | none => exact absurd member (List.idxOf?_eq_none_iff.mp index)

theorem plain_lists :
    ∀ words ∈ [ones, teens, tens, units, ordinalOnes, ordinalTeens, ordinalTens], Plain words := by
  decide +kernel

end Words

namespace Parser

open Value Words

/-- What is taken as one of some words stands for it. -/
theorem settles_word (plain : Plain words) :
    (word words).Settles whole chars fun v rest =>
      ∃ w ∈ words, ∃ taken, chars = taken ++ rest ∧ v = .text (String.ofList taken) ∧
        Casing.folded.Spells w.toList taken := by
  have known : ∀ w ∈ longestFirst words, w ∈ words := fun _ => mem_longestFirst.mp
  unfold word
  cases sorted : longestFirst words with
  | nil => exact Refuses.settles (refuses_failing _ _)
  | cons first others =>
    rw [sorted] at known
    refine (settles_oneOf first others .folded).mono ?_
    rintro v rest ⟨w, listed, taken, divided, value, spells⟩
    have target : Casing.folded.target w = w := (plain w (known w listed)).1
    rw [target] at spells
    exact ⟨w, known w listed, taken, divided, value, spells⟩

/-- One of some words is found where it is looked up. -/
theorem gains_word (plain : Plain words) :
    (word words).Gains whole below 1 (IsText fun t => ∃ n, place words t = .ok n) := by
  intro chars _
  refine (settles_word plain).mono ?_
  rintro _ rest ⟨w, member, taken, rfl, rfl, spells⟩
  obtain ⟨_, some, _⟩ := plain w member
  have length : w.toList.length = taken.length := List.Forall₂.length_eq spells
  refine ⟨?_, _, rfl, place_spelled plain member spells⟩
  rw [List.length_append]
  omega

theorem gains_wordBreak : wordBreak.Gains whole below 1 Any :=
  gains_spaces.either (gains_literal "-" .exact).any

theorem gains_placedWord (plain : Plain words) (number : Nat → Nat) :
    (placedWord words number).Gains whole below 1 IsInt := by
  refine (gains_word plain).map ?_
  rintro _ ⟨t, rfl, n, found⟩
  simp only [found]
  exact ⟨_, rfl, _, rfl⟩

/-! ## Numbers below a thousand -/

theorem gains_oneToNine (form : NumberForm) : (oneToNine form).Gains whole below 1 IsInt := by
  cases form with
  | cardinal => exact gains_placedWord (plain_lists _ (by simp)) _
  | ordinal => exact gains_placedWord (plain_lists _ (by simp)) _

theorem gains_upToNineteen (form : NumberForm) : (upToNineteen form).Gains whole below 1 IsInt := by
  cases form with
  | cardinal => exact gains_placedWord (plain_lists _ (by simp)) _
  | ordinal => exact gains_placedWord (plain_lists _ (by simp)) _

theorem gains_tensAndOnes (form : NumberForm) : (tensAndOnes form).Gains whole below 1 IsInt := by
  have ones : (choice (chain wordBreak [oneToNine form]) [succeed (.int 0)]).Gains whole (below - 1)
      0 IsInt :=
    Gains.either (gains_wordBreak.before ((gains_oneToNine form).atLeast (Nat.zero_le _)))
      (gains_succeed ⟨0, rfl⟩)
  refine Gains.script_text (gains_word (plain_lists _ (by simp))) ?_
  rintro name ⟨ten, found⟩
  refine gains_check found (Gains.script_int ones ?_)
  intro one
  exact (gains_succeed ⟨_, rfl⟩).script_done _

theorem gains_upToNinetyNine (form : NumberForm) :
    (upToNinetyNine form).Gains whole below 1 IsInt := by
  cases form with
  | cardinal => exact (gains_tensAndOnes _).either (gains_upToNineteen _)
  | ordinal =>
    exact (gains_tensAndOnes _).choice
      ((gains_placedWord (plain_lists _ (by simp)) _).either (gains_upToNineteen _))

/-- What was found of a smaller part: nothing, or its number. -/
def IsPart (v : Value) : Prop := v = .null ∨ v.IsInt

/-- The number of a smaller part is there, whether or not the part is. -/
theorem gains_smallerPart {name : String} {next : Int → Script Parser} (part : IsPart v)
    (others : ∀ n, (script name (next n)).Gains whole below more kind) :
    (script name (smallerPart form v >>= next)).Gains whole below more kind := by
  rcases part with rfl | ⟨n, rfl⟩
  · cases form with
    | cardinal => exact others 0
    | ordinal =>
      have suffix : (literal "th").Gains whole below 2 Any := (gains_literal "th" .exact).any
      have rest : (script name (Script.parse (literal "th") >>= fun _ => next 0)).Gains whole below
          more kind := by
        refine Gains.script_parse suffix fun _ _ => ?_
        exact ((others 0).shorter (Nat.sub_le _ _)).atLeast (Nat.sub_le _ _)
      exact rest
  · exact others n

theorem gains_hundreds (form : NumberForm) : (hundreds form).Gains whole below 1 IsInt := by
  have hundred {below : Nat} : (literal "hundred").Gains whole below 7 Any :=
    (gains_literal "hundred" .exact).any
  have and {below : Nat} : (literal "and").Gains whole below 3 Any :=
    (gains_literal "and" .exact).any
  have rest {below : Nat} : (choice (chain wordBreak
      [Parser.optional (chain (literal "and") [wordBreak]), upToNinetyNine form])
      [succeed .null]).Gains whole below 0 IsPart := by
    have joined {below : Nat} : (chain (literal "and") [wordBreak]).Gains whole below 1 Any :=
      and.before (gains_wordBreak.atLeast (Nat.zero_le _))
    refine Gains.either (gains_wordBreak.chain (joined.optional.chain (Gains.chain_nil ?_)))
      (gains_succeed (Or.inl rfl))
    exact (gains_upToNinetyNine form).weaken (Nat.zero_le _) fun _ => Or.inr
  refine Gains.script_int (gains_oneToNine .cardinal) fun count => ?_
  refine Gains.script_parse gains_wordBreak fun _ _ => ?_
  refine Gains.script_parse hundred fun _ _ => ?_
  refine Gains.script_parse rest fun v part => ?_
  exact gains_smallerPart part fun small => (gains_succeed ⟨_, rfl⟩).script_done _

theorem gains_upToThreeNines (form : NumberForm) :
    (upToThreeNines form).Gains whole below 1 IsInt :=
  (gains_hundreds form).either (gains_upToNinetyNine form)

/-! ## Numbers of any size -/

/-- Any number can be held against a large unit. -/
theorem fitsBelow_part (unit : Int) (part : IsPart v) :
    ∃ passed, fitsBelow unit v = .ok passed := by
  rcases part with rfl | ⟨n, rfl⟩
  · exact ⟨true, rfl⟩
  · have compared : fitsBelow unit (.int n) = Comparison.lt.holds (.int n) (.int unit) := rfl
    rw [compared]
    cases order : (Value.int n).order? (.int unit) with
    | some found => exact ⟨Comparison.lt.admits found, by simp [Comparison.holds, order]⟩
    | none => exact ⟨false, by simp [Comparison.holds, order, Value.isNumber]⟩

/-- A large unit takes characters before the rule begins again. -/
theorem gains_bigNumber {larger : Parser} (inner : larger.Gains whole below 1 IsInt) :
    (bigNumber form larger).Gains whole (below + 1) 1 IsInt := by
  have comma {below : Nat} : (literal ",").Gains whole below 1 Any :=
    (gains_literal "," .exact).any
  have and {below : Nat} : (literal "and").Gains whole below 3 Any :=
    (gains_literal "and" .exact).any
  have rest : (choice (chain (choice (chain (literal ",") [spaces]) [wordBreak]) [larger])
      [chain wordBreak [literal "and", wordBreak, upToThreeNines form],
       succeed .null]).Gains whole (below - 2) 0 IsPart := by
    have apart : (choice (chain (literal ",") [spaces]) [wordBreak]).Gains whole (below - 2) 1
        Any :=
      Gains.either (comma.before (gains_spaces.atLeast (Nat.zero_le _))) gains_wordBreak
    refine Gains.choice (apart.before ?_) (Gains.either ?_ (gains_succeed (Or.inl rfl)))
    · exact (inner.shorter (by omega)).weaken (Nat.zero_le _) fun _ => Or.inr
    · refine gains_wordBreak.chain (and.chain (gains_wordBreak.chain (Gains.chain_nil ?_)))
      exact (gains_upToThreeNines form).weaken (Nat.zero_le _) fun _ => Or.inr
  refine Gains.script_int (gains_upToThreeNines .cardinal) fun count => ?_
  refine Gains.script_parse gains_wordBreak fun _ _ => ?_
  refine Gains.script_text (gains_word (plain_lists _ (by simp))) ?_
  rintro name ⟨power, found⟩
  refine gains_check found (Gains.script_parse (rest.satisfying fun v => fitsBelow_part _) ?_)
  intro v part
  exact gains_smallerPart part fun small => (gains_succeed ⟨_, rfl⟩).script_done _

/-- A rule for numbers of any size ends if what is inside it ends on shorter texts. -/
theorem gains_numberWordsOver {larger : Parser} (inner : larger.Gains whole below 1 IsInt) :
    (numberWordsOver form larger).Gains whole (below + 1) 1 IsInt :=
  (gains_bigNumber inner).either (gains_upToThreeNines form)

theorem gains_numberWords (form : NumberForm) : (numberWords form).Gains whole below 1 IsInt :=
  gains_recursive fun _ _ inner => gains_numberWordsOver inner

/-! ## Numerals with a suffix -/

theorem gains_ordinalSuffix (n : Int) : (ordinalSuffix n).Gains whole below 0 Any := by
  have word (t : String) : (literal t).Gains whole below 0 Any :=
    (gains_literal t .exact).weaken (Nat.zero_le _) fun _ _ => trivial
  have either (s t : String) : (oneOf s [t]).Gains whole below 0 Any :=
    Gains.label _ ((word s).either (word t))
  unfold ordinalSuffix
  split
  · exact word "th"
  · split
    · exact word "st"
    · split
      · exact either "nd" "d"
      · split
        · exact either "rd" "d"
        · exact word "th"

theorem gains_natural : natural.Gains whole below 1 IsInt := by
  intro chars _
  refine (settles_natural rfl).mono ?_
  rintro _ rest ⟨n, rfl, row, rfl, digits, _⟩
  have some : 0 < row.length := List.length_pos_iff.mpr digits.some
  refine ⟨?_, n, rfl⟩
  rw [List.length_append]
  omega

theorem gains_shortOrdinal : shortOrdinal.Gains whole below 1 IsInt := by
  refine Gains.script_int gains_natural fun n => ?_
  refine Gains.script_parse (gains_ordinalSuffix n) fun _ _ => ?_
  exact (gains_succeed ⟨n, rfl⟩).script_done _

end Parser
end Descent
