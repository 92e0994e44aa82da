import Descent.Proofs.NumberWords
import Mathlib.Data.List.Nodup

/-!
# Number words on a text

A word of a list is tried before all that are shorter. It is read off a text unless the text begins
with a longer word of the list. Where the letters of a text end, that can be told from the words
alone: what stands for a word lies within the letters, and so the word is a beginning of theirs.

Between words stand some blanks or a hyphen. Neither they nor a comma stand for letters, in either
case.
-/

namespace Descent

variable {whole : Array Char} {chars known letters run taken left rest gap : List Char}
  {words : List String} {w : String} {n : Nat} {casing : Casing}

/-! ## Letters that are stood for -/

namespace Casing

/-- In a folded match a character stands for one letter only. -/
theorem takes_folded_unique {letter other c : Char} (first : folded.takes letter c = true)
    (second : folded.takes other c = true) : letter = other := by
  have same : [letter] = [other] :=
    (takes_folded_iff.mp first).symm.trans (takes_folded_iff.mp second)
  exact (List.cons.inj same).1

namespace Spells

theorem length_eq (spells : casing.Spells letters taken) : letters.length = taken.length :=
  List.Forall₂.length_eq spells

/-- In a folded match characters stand for one word only. -/
theorem folded_unique (first : folded.Spells letters taken) (second : folded.Spells known taken) :
    letters = known := by
  unfold Spells at first second
  induction first generalizing known with
  | nil =>
    cases second with
    | nil => rfl
  | cons head later inductionHypothesis =>
    cases second with
    | cons other others => rw [takes_folded_unique head other, inductionHypothesis others]

theorem append {later : List Char} (first : casing.Spells letters taken)
    (second : casing.Spells known later) : casing.Spells (letters ++ known) (taken ++ later) :=
  List.rel_append first second

/-- Characters in two parts stand for letters in two parts. -/
theorem append_inv {later : List Char} (spells : casing.Spells letters (taken ++ later)) :
    ∃ front back, letters = front ++ back ∧ casing.Spells front taken ∧
      casing.Spells back later :=
  ⟨letters.take taken.length, letters.drop taken.length, (List.take_append_drop _ _).symm,
    List.forall₂_take_append _ _ _ spells, List.forall₂_drop_append _ _ _ spells⟩

/-- What begins with characters that stand for letters is what stands for a word that begins with
the letters. -/
theorem prefix_of_append {later : List Char} (first : folded.Spells letters taken)
    (spells : folded.Spells known (taken ++ later)) : letters <+: known := by
  obtain ⟨front, back, rfl, same, _⟩ := append_inv spells
  rw [folded_unique first same]
  exact List.prefix_append _ _

end Spells
end Casing

/-- A small letter stands for itself. -/
theorem Casing.takes_lower {letter : Char} (lower : letter.isLower = true) :
    folded.takes letter letter = true := by
  have between : (decide (letter.val ≥ 'a'.val) && decide (letter.val ≤ 'z'.val)) = true := lower
  have last : letter.toNat ≤ 0x7A := of_decide_eq_true (Bool.and_eq_true_iff.mp between).2
  have table : ∀ code < 0x7B, (Char.ofNat code).isLower = true →
      folded.takes (Char.ofNat code) (Char.ofNat code) = true := by
    decide +kernel
  exact of_codes (motive := fun letter => letter.isLower = true → folded.takes letter letter = true)
    table (by omega) lower

/-- Small letters stand for themselves. -/
theorem Casing.spells_lower (lower : letters.all Char.isLower = true) :
    folded.Spells letters letters :=
  List.forall₂_same.mpr fun letter inside => takes_lower (List.all_eq_true.mp lower letter inside)

/-- A text does not go on with a letter. -/
def EndsWord (rest : List Char) : Prop :=
  ∀ c ∈ rest.head?, ∀ letter, letter.isLower = true → Casing.folded.takes letter c = false

theorem endsWord_nil : EndsWord [] := nofun

/-- What stands between words stands for itself, and is no letter. -/
theorem endsWord_mark {c : Char} (mark : c ∈ [' ', '\t', '\n', '\r', '-', ','])
    (rest : List Char) : EndsWord (c :: rest) := by
  have table : ([' ', '\t', '\n', '\r', '-', ','].all fun c =>
      Text.foldAfter [] [c] == [c] && !c.isLower) = true := by
    decide +kernel
  obtain ⟨itself, noLetter⟩ : Text.foldAfter [] [c] = [c] ∧ c.isLower = false := by
    simpa using List.all_eq_true.mp table c mark
  rintro _ ⟨⟩ letter lower
  rw [← Bool.not_eq_true]
  intro taken
  have same : [c] = [letter] := itself.symm.trans (Casing.takes_folded_iff.mp taken)
  rw [← (List.cons.inj same).1, noLetter] at lower
  exact Bool.false_ne_true lower

/-- What stands for a letter is neither a blank nor a hyphen. -/
theorem solid_of_takes {letter c : Char} (lower : letter.isLower = true)
    (taken : Casing.folded.takes letter c = true) : blank c = false ∧ c ≠ '-' := by
  have noMark : c ∉ [' ', '\t', '\n', '\r', '-', ','] := by
    intro mark
    have other := endsWord_mark mark [] c rfl letter lower
    rw [other] at taken
    exact Bool.false_ne_true taken
  constructor
  · rw [← Bool.not_eq_true, blank_iff]
    rintro (rfl | rfl | rfl | rfl) <;> exact noMark (by decide)
  · rintro rfl
    exact noMark (by decide)

/-- What stands for a word lies within the letters that a text begins with, and the word begins
what they stand for. -/
theorem Casing.Spells.within_run (spells : folded.Spells letters taken)
    (lower : ∀ letter ∈ letters, letter.isLower = true) (runs : folded.Spells known run)
    (ends : EndsWord rest) (same : run ++ rest = taken ++ left) :
    ∃ more, run = taken ++ more ∧ left = more ++ rest ∧ letters <+: known := by
  rcases List.append_eq_append_iff.mp same with ⟨beyond, rfl, divided⟩ | ⟨more, rfl, divided⟩
  · cases beyond with
    | nil =>
      rw [List.append_nil] at spells ⊢
      exact ⟨[], (List.append_nil _).symm, divided.symm,
        (folded_unique spells runs) ▸ List.prefix_refl _⟩
    | cons c beyond =>
      -- The first character behind the letters would have to stand for one.
      obtain ⟨front, back, rfl, -, later⟩ := append_inv spells
      cases later with
      | @cons letter _ back _ stands _ =>
        have member : letter ∈ front ++ letter :: back := by simp
        have other := ends c (by rw [divided]; rfl) letter (lower letter member)
        rw [other] at stands
        exact absurd stands Bool.false_ne_true
  · exact ⟨more, rfl, divided, prefix_of_append spells runs⟩

namespace Words

/-- Words of small letters, each of them in its list only once. -/
structure Lettered (words : List String) : Prop where
  plain : Plain words
  lower : ∀ word ∈ words, ∀ letter ∈ word.toList, letter.isLower = true
  once : words.Nodup

theorem lettered_lists :
    ∀ words ∈ [ones, teens, tens, units, ordinalOnes, ordinalTeens, ordinalTens],
      Lettered words := by
  have lower : ∀ words ∈ [ones, teens, tens, units, ordinalOnes, ordinalTeens, ordinalTens],
      ∀ word ∈ words, word.toList.all Char.isLower = true := by
    decide +kernel
  have once : ∀ words ∈ [ones, teens, tens, units, ordinalOnes, ordinalTeens, ordinalTens],
      words.Nodup := by
    decide +kernel
  exact fun words listed => ⟨plain_lists words listed,
    fun word member => List.all_eq_true.mp (lower words listed word member), once words listed⟩

/-- A word stands for itself. -/
theorem Lettered.spells (lettered : Lettered words) (member : w ∈ words) :
    Casing.folded.Spells w.toList w.toList :=
  Casing.spells_lower (List.all_eq_true.mpr (lettered.lower w member))

/-- No word of a list begins one of another list. -/
def Apart (words others : List String) : Prop :=
  ∀ word ∈ words, ∀ other ∈ others, ¬ word.toList <+: other.toList

instance (words others : List String) : Decidable (Apart words others) :=
  inferInstanceAs (Decidable (∀ word ∈ words, ∀ other ∈ others, _))

/-- Of two words from two lists, neither begins the other. -/
def Unlike (words others : List String) : Prop := Apart words others ∧ Apart others words

instance (words others : List String) : Decidable (Unlike words others) :=
  inferInstanceAs (Decidable (_ ∧ _))

/-- What stands for a word begins neither with a blank nor with a hyphen. -/
theorem Lettered.solid (lettered : Lettered words) (member : w ∈ words)
    (spells : Casing.folded.Spells w.toList run) (rest : List Char) :
    ∀ c ∈ (run ++ rest).head?, blank c = false ∧ c ≠ '-' := by
  have lower := lettered.lower w member
  have length := (lettered.plain w member).2.1
  generalize w.toList = letters at spells lower length
  cases spells with
  | nil => exact absurd length (Nat.lt_irrefl _)
  | cons stands later =>
    rintro _ ⟨⟩
    exact solid_of_takes (lower _ List.mem_cons_self) stands

/-- No word of a list begins with another one. -/
def PrefixFree (words : List String) : Prop :=
  ∀ word ∈ words, ∀ other ∈ words, word.toList <+: other.toList → word = other

instance (words : List String) : Decidable (PrefixFree words) :=
  inferInstanceAs (Decidable (∀ word ∈ words, ∀ other ∈ words, _))

/-- Words that get no longer. -/
def Descending (words : List String) : Prop :=
  words.Pairwise fun earlier later => later.toList.length ≤ earlier.toList.length

theorem Descending.insertLonger (sorted : Descending words) (word : String) :
    Descending (insertLonger word words) := by
  induction words with
  | nil => exact List.pairwise_singleton _ _
  | cons next rest inductionHypothesis =>
    rw [Words.insertLonger, ← String.length_toList, ← String.length_toList]
    obtain ⟨first, later⟩ := List.pairwise_cons.mp sorted
    split
    next longer =>
      refine List.pairwise_cons.mpr ⟨?_, inductionHypothesis later⟩
      intro other member
      rcases mem_insertLonger.mp member with rfl | member
      · exact Nat.le_of_lt longer
      · exact first other member
    next shorter =>
      refine List.pairwise_cons.mpr ⟨?_, sorted⟩
      intro other member
      have below : next.toList.length ≤ word.toList.length := Nat.le_of_not_lt shorter
      rcases List.mem_cons.mp member with rfl | member
      · exact below
      · exact Nat.le_trans (first other member) below

theorem longestFirst_descending (words : List String) : Descending (longestFirst words) := by
  unfold longestFirst
  induction words with
  | nil => exact List.Pairwise.nil
  | cons word rest inductionHypothesis => exact inductionHypothesis.insertLonger word

/-- A word of a list is looked up in any case. -/
theorem place_listed (lettered : Lettered words) (listed : words[n]? = some w)
    (spells : Casing.folded.Spells w.toList taken) :
    place words (String.ofList taken) = .ok n := by
  obtain ⟨inside, rfl⟩ := List.getElem?_eq_some_iff.mp listed
  have index : words.idxOf? words[n] = some n := by
    refine List.idxOf?_eq_some_iff.mpr ⟨inside, rfl, ?_⟩
    intro earlier before same
    have equal : earlier = n := lettered.once.getElem_inj_iff.mp same
    omega
  rw [place, lowercase_spelled lettered.plain (List.getElem_mem inside) spells, index]

end Words

namespace Parser

open Words

/-! ## Reading a word -/

/-- Of words that get no longer, one is read where no longer one could be. -/
theorem reads_descending {first : String} {more : List String}
    (sorted : Descending (first :: more))
    (plain : Plain (first :: more)) (member : w ∈ first :: more)
    (spells : Casing.folded.Spells w.toList taken)
    (longest : ∀ other ∈ first :: more, w.toList.length < other.toList.length →
      ∀ run left, taken ++ rest = run ++ left → ¬ Casing.folded.Spells other.toList run) :
    (choice (literal first .folded) (more.map (literal · .folded))).Reads whole (taken ++ rest)
      (.text (String.ofList taken)) rest := by
  have target {option : String} (listed : option ∈ first :: more) :
      Casing.folded.target option = option := (plain option listed).1
  by_cases same : w = first
  · subst same
    refine Reads.choice (reads_spelled ?_ rest)
    rwa [target member]
  · have later : w ∈ more := (List.mem_cons.mp member).resolve_left same
    -- The first word is as long as the one that is there, and another one, or it is longer.
    have refuses : (literal first .folded).Refuses whole (taken ++ rest) := by
      refine refuses_spelled ?_
      rw [target List.mem_cons_self]
      intro run left divided stands
      have atLeast : w.toList.length ≤ first.toList.length :=
        (List.pairwise_cons.mp sorted).1 w later
      rcases Nat.lt_or_eq_of_le atLeast with longer | equal
      · exact longest first List.mem_cons_self longer run left divided stands
      · have length : taken.length = run.length := by
          rw [← spells.length_eq, ← stands.length_eq, equal]
        obtain rfl := (List.append_inj divided length).1
        exact same (String.toList_inj.mp (spells.folded_unique stands))
    cases more with
    | nil => exact absurd later List.not_mem_nil
    | cons next others =>
      refine refuses.choice (reads_descending (List.pairwise_cons.mp sorted).2 ?_ later spells ?_)
      · exact fun option listed => plain option (List.mem_cons_of_mem first listed)
      · exact fun other listed => longest other (List.mem_cons_of_mem first listed)
termination_by more.length

/-- A word of a list is read where the text begins with no longer one of the list. -/
theorem reads_word (lettered : Lettered words) (member : w ∈ words)
    (spells : Casing.folded.Spells w.toList taken)
    (longest : ∀ other ∈ words, w.toList.length < other.toList.length →
      ∀ run left, taken ++ rest = run ++ left → ¬ Casing.folded.Spells other.toList run) :
    (word words).Reads whole (taken ++ rest) (.text (String.ofList taken)) rest := by
  have listed : w ∈ longestFirst words := mem_longestFirst.mpr member
  have sorted : Descending (longestFirst words) := longestFirst_descending words
  have known : ∀ option ∈ longestFirst words, option ∈ words := fun _ => mem_longestFirst.mp
  unfold word
  cases found : longestFirst words with
  | nil =>
    rw [found] at listed
    exact absurd listed List.not_mem_nil
  | cons first more =>
    rw [found] at listed sorted known
    refine Answers.label _ (reads_descending sorted ?_ listed spells ?_)
    · exact fun option here => lettered.plain option (known option here)
    · exact fun other here => longest other (known other here)

/-- A word is read where its letters end. -/
theorem reads_word_run (lettered : Lettered words) (member : w ∈ words)
    (spells : Casing.folded.Spells w.toList run) (ends : EndsWord rest) :
    (word words).Reads whole (run ++ rest) (.text (String.ofList run)) rest := by
  refine reads_word lettered member spells ?_
  intro other listed longer taken left same stands
  obtain ⟨_, _, _, begins⟩ := stands.within_run (lettered.lower other listed) spells ends same
  exact absurd begins.length_le (by omega)

/-- A word that no other one begins with is read whatever follows. -/
theorem reads_word_free (lettered : Lettered words) (free : PrefixFree words) (member : w ∈ words)
    (spells : Casing.folded.Spells w.toList run) (rest : List Char) :
    (word words).Reads whole (run ++ rest) (.text (String.ofList run)) rest := by
  refine reads_word lettered member spells ?_
  intro other listed longer taken left same stands
  rcases List.append_eq_append_iff.mp same with ⟨more, rfl, _⟩ | ⟨more, rfl, _⟩
  · have equal := free w member other listed (spells.prefix_of_append stands)
    rw [equal] at longer
    exact Nat.lt_irrefl _ longer
  · have length := spells.length_eq
    rw [List.length_append, ← stands.length_eq] at length
    omega

/-- Letters that begin with no word of a list are refused. -/
theorem refuses_word_run (lettered : Lettered words) (spells : Casing.folded.Spells known run)
    (ends : EndsWord rest) (unlike : ∀ word ∈ words, ¬ word.toList <+: known) :
    (word words).Refuses whole (run ++ rest) := by
  refine (settles_word lettered.plain).refuses ?_
  rintro _ left ⟨w, member, taken, same, _, stands⟩
  obtain ⟨_, _, _, begins⟩ := stands.within_run (lettered.lower w member) spells ends same
  exact unlike w member begins

/-- A word that is not looked for, where no word of the list begins it, is refused. -/
theorem refuses_word_apart {others : List String} (lettered : Lettered words)
    (apart : Apart words others) (member : w ∈ others)
    (spells : Casing.folded.Spells w.toList run) (ends : EndsWord rest) :
    (word words).Refuses whole (run ++ rest) :=
  refuses_word_run lettered spells ends fun word listed => apart word listed w member

/-- Where a word comes that begins none of a list and begins with none, the list is refused. -/
theorem refuses_word_unlike {others : List String} (lettered : Lettered words)
    (unlike : Unlike words others) (member : w ∈ others)
    (spells : Casing.folded.Spells w.toList run) (rest : List Char) :
    (word words).Refuses whole (run ++ rest) := by
  refine (settles_word lettered.plain).refuses ?_
  rintro _ left ⟨found, listed, taken, same, _, stands⟩
  rcases List.append_eq_append_iff.mp same with ⟨more, rfl, _⟩ | ⟨more, rfl, _⟩
  · exact unlike.2 w member found listed (spells.prefix_of_append stands)
  · exact unlike.1 found listed w member (stands.prefix_of_append spells)

/-- The same for a literal. -/
theorem refuses_literal_unlike {wanted : String} {others : List String}
    (unlike : Unlike [wanted] others) (member : w ∈ others) (rest : List Char) :
    (literal wanted).Refuses whole (w.toList ++ rest) := by
  refine refuses_literal ?_
  intro begins
  rcases List.prefix_or_prefix_of_prefix begins (List.prefix_append w.toList rest) with
    first | second
  · exact unlike.1 wanted List.mem_cons_self w member first
  · exact unlike.2 w member wanted List.mem_cons_self second

/-- What is taken of letters stands for a beginning of theirs. -/
theorem settles_word_run (lettered : Lettered words) (spells : Casing.folded.Spells known run)
    (ends : EndsWord rest) :
    (word words).Settles whole (run ++ rest) fun v left =>
      ∃ w ∈ words, ∃ taken more, v = .text (String.ofList taken) ∧ run = taken ++ more ∧
        left = more ++ rest ∧ Casing.folded.Spells w.toList taken := by
  refine (settles_word lettered.plain).mono ?_
  rintro _ left ⟨w, member, taken, same, rfl, stands⟩
  obtain ⟨more, divided, left, _⟩ := stands.within_run (lettered.lower w member) spells ends same
  exact ⟨w, member, taken, more, rfl, divided, left, stands⟩

/-- A word is given as the number of its place. -/
theorem Reads.placed (lettered : Lettered words) (listed : words[n]? = some w)
    (spells : Casing.folded.Spells w.toList run)
    (reads : (word words).Reads whole (run ++ rest) (.text (String.ofList run)) rest)
    (number : Nat → Nat) :
    (placedWord words number).Reads whole (run ++ rest) (.int (number n)) rest := by
  refine reads.map ?_
  simp only [place_listed lettered listed spells]
  rfl

/-- A place is given of what stands for a word. -/
theorem settles_placedWord (plain : Plain words) (number : Nat → Nat) :
    (placedWord words number).Settles whole chars fun v rest =>
      ∃ n, v = .int n ∧ ∃ w ∈ words, ∃ taken, chars = taken ++ rest ∧
        Casing.folded.Spells w.toList taken := by
  refine Settles.map ((settles_word plain).mono ?_)
  rintro _ rest ⟨w, member, taken, divided, rfl, spells⟩
  obtain ⟨n, found⟩ := place_spelled plain member spells
  simp only [found]
  exact ⟨_, rfl, _, rfl, w, member, taken, divided, spells⟩

/-! ## Breaks -/

end Parser

/-- What may stand between two number words: some blanks or a hyphen. -/
inductive Break : List Char → Prop where
  | blanks {c : Char} {others : List Char} (first : blank c = true)
      (later : ∀ d ∈ others, blank d = true) : Break (c :: others)
  | hyphen : Break ['-']

/-- Words end before a break. -/
theorem Break.endsWord (between : Break gap) (rest : List Char) : EndsWord (gap ++ rest) := by
  cases between with
  | @blanks c others first later =>
    refine endsWord_mark ?_ _
    rcases (blank_iff c).mp first with rfl | rfl | rfl | rfl <;> decide
  | hyphen => exact endsWord_mark (by decide) rest

namespace Parser

/-- A break is read to where no blank follows. -/
theorem reads_wordBreak (between : Break gap) (stops : ∀ c ∈ rest.head?, blank c = false) :
    ∃ v, wordBreak.Reads whole (gap ++ rest) v rest := by
  cases between with
  | blanks first later => exact ⟨_, Reads.choice (reads_spaces _ _ rest first later stops)⟩
  | hyphen =>
    have noBlank : spaces.Refuses whole (['-'] ++ rest) := refuses_spaces (by rintro c ⟨⟩; decide)
    exact ⟨_, noBlank.either (reads_literal rfl rest)⟩

theorem reads_break_hundred (whole : Array Char) (between : Break gap) (rest : List Char) :
    ∃ v, wordBreak.Reads whole (gap ++ ("hundred".toList ++ rest)) v
      ("hundred".toList ++ rest) := by
  refine reads_wordBreak between ?_
  rintro c ⟨⟩
  decide

/-- What is read as blanks are some. -/
theorem settles_spaces :
    spaces.Settles whole chars fun _ rest => ∃ c others, blank c = true ∧
      (∀ d ∈ others, blank d = true) ∧ chars = c :: others ++ rest := by
  by_cases first : ∃ c ∈ chars.head?, blank c = true
  · obtain ⟨c, head, first⟩ := first
    obtain ⟨rest, rfl⟩ := List.head?_eq_some_iff.mp head
    have later : ∀ d ∈ rest.takeWhile blank, blank d = true := fun d => List.mem_takeWhile_imp
    refine (reads_blanks first rest).settles ⟨c, _, first, later, ?_⟩
    rw [List.cons_append, dropBlanks, List.takeWhile_append_dropWhile]
  · refine (refuses_spaces ?_).settles
    intro c head
    rw [← Bool.not_eq_true]
    exact fun blank => first ⟨c, head, blank⟩

/-- What is read as a break is one. -/
theorem settles_wordBreak :
    wordBreak.Settles whole chars fun _ rest => ∃ gap, Break gap ∧ chars = gap ++ rest := by
  refine Settles.either (settles_spaces.mono ?_) ((settles_exact "-").mono ?_)
  · rintro _ rest ⟨c, others, first, later, divided⟩
    exact ⟨_, .blanks first later, divided⟩
  · rintro _ rest ⟨-, divided⟩
    exact ⟨_, .hyphen, divided⟩

/-- Where neither a blank nor a hyphen comes there is no break. -/
theorem refuses_wordBreak (solid : ∀ c ∈ chars.head?, blank c = false ∧ c ≠ '-') :
    wordBreak.Refuses whole chars :=
  (refuses_spaces fun c head => (solid c head).1).either
    (refuses_literal_at rfl fun c head => (solid c head).2)

end Parser
end Descent
