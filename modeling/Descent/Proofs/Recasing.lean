import Descent.Proofs.Phrases

/-!
# Numbers in words in either case

Capitals may be put into a number in words and taken out of it, and the number stays the same, with
one exception: a *hundred* and an *and* have to be in small letters. In any other case they are
taken for no words at all, and the text is rejected.

For this a text is followed side by side with what it is without capitals. The parser for cardinal
numbers goes the same way on both, as long as what begins like one of the two words in one case
does so in the other. Accepted texts are of this kind, for they are phrases.
-/

namespace Descent

open Words

variable {whole other : Array Char} {chars taken between rest text : List Char} {c : Char}
  {words : List String} {w : String} {larger p q : Parser} {v : Value}
  {mid post wider : Value → List Char → Prop}

/-! ## Capitals -/

/-- What holds of a character with itself, and of each capital with its small letter, holds of
every character with its small letter. -/
theorem toLower_table {motive : Char → Char → Prop} (same : ∀ c, motive c c)
    (capital : ∀ code < 0x5B, motive (Char.ofNat code) (Char.ofNat code).toLower) (c : Char) :
    motive c c.toLower := by
  by_cases isCapital : c.val ≥ 'A'.val ∧ c.val ≤ 'Z'.val
  · have below : c.toNat ≤ 0x5A := isCapital.2
    exact of_codes (motive := fun c => motive c c.toLower) capital (by omega)
  · have itself : c.toLower = c := dif_neg isCapital
    rw [itself]
    exact same c

theorem foldChar_toLower (c : Char) : Text.foldChar c.toLower = Text.foldChar c :=
  toLower_table (motive := fun c d => Text.foldChar d = Text.foldChar c) (fun _ => rfl)
    (by decide +kernel) c

/-- A blank is no letter. -/
theorem blank_toLower (c : Char) : blank c.toLower = blank c :=
  toLower_table (motive := fun c d => blank d = blank c) (fun _ => rfl) (by decide +kernel) c

/-- The marks between words are no letters. -/
theorem mark_toLower (c : Char) : (c.toLower = '-' ↔ c = '-') ∧ (c.toLower = ',' ↔ c = ',') :=
  toLower_table (motive := fun c d => (d = '-' ↔ c = '-') ∧ (d = ',' ↔ c = ','))
    (fun _ => ⟨Iff.rfl, Iff.rfl⟩) (by decide +kernel) c

/-- A text without capitals. -/
def uncapped (text : List Char) : List Char := text.map Char.toLower

/-- Two texts that are the same but for the case of letters. -/
def Recased (t u : String) : Prop := uncapped t.toList = uncapped u.toList

instance (t u : String) : Decidable (Recased t u) := inferInstanceAs (Decidable (_ = _))

theorem uncapped_append (front back : List Char) :
    uncapped (front ++ back) = uncapped front ++ uncapped back := List.map_append

theorem uncapped_dropBlanks (chars : List Char) :
    uncapped (dropBlanks chars) = dropBlanks (uncapped chars) := by
  have same : blank ∘ Char.toLower = blank := funext blank_toLower
  rw [uncapped, uncapped, dropBlanks, dropBlanks, List.dropWhile_map, same]

/-- Capitals stand for what their small letters stand for. -/
theorem Casing.spells_uncapped {letters : List Char} :
    folded.Spells letters (uncapped taken) ↔ folded.Spells letters taken := by
  have same (letter c : Char) :
      folded.takes letter c.toLower = true ↔ folded.takes letter c = true := by
    rw [takes_folded_eq, takes_folded_eq, foldChar_toLower]
  simp only [Spells, uncapped, List.forall₂_map_right_iff, same]

/-- A word is looked up in either case. -/
theorem Words.place_uncapped (plain : Plain words) (member : w ∈ words)
    (spells : Casing.folded.Spells w.toList taken) :
    place words (String.ofList (uncapped taken)) = place words (String.ofList taken) := by
  rw [place, place, lowercase_spelled plain member spells,
    lowercase_spelled plain member (Casing.spells_uncapped.mpr spells)]

/-! ## Words in small letters -/

namespace Words

/-- The words that are taken in small letters only. -/
def fixedWords : List String := ["hundred", "and"]

/-- The other words in front of the last of a number. -/
def innerWords : List String := teens ++ tens ++ units

theorem small_fixedWords : Small fixedWords := by
  decide +kernel

theorem small_innerWords : Small innerWords := by
  decide +kernel

theorem unlike_fixedWords : Unlike fixedWords innerWords := by
  decide +kernel

theorem prefixFree_fixedWords : PrefixFree fixedWords := by
  decide +kernel

end Words

/-- If a text begins with one of these words in any case, it does so in small letters. -/
def Plainly (text : List Char) : Prop :=
  ∀ w ∈ fixedWords, w.toList <+: uncapped text → w.toList <+: text

instance (text : List Char) : Decidable (Plainly text) :=
  inferInstanceAs (Decidable (∀ w ∈ fixedWords, _))

/-- Behind a blank or a hyphen these words come in small letters only. -/
def Lowered (text : List Char) : Prop :=
  ∀ mark rest, mark :: rest <:+ text → Parting mark → Plainly rest

theorem lowered_nil : Lowered [] := by
  intro mark rest inside
  exact absurd (List.suffix_nil.mp inside) (List.cons_ne_nil _ _)

theorem lowered_cons : Lowered (c :: text) ↔ (Parting c → Plainly text) ∧ Lowered text := by
  constructor
  · intro lowered
    exact ⟨lowered c text (List.suffix_refl _),
      fun mark rest inside => lowered mark rest (inside.trans (List.suffix_cons c text))⟩
  · rintro ⟨first, later⟩ mark rest inside parting
    rcases List.suffix_cons_iff.mp inside with same | inside
    · obtain ⟨rfl, rfl⟩ := List.cons.inj same
      exact first parting
    · exact later mark rest inside parting

instance decidableLowered : (text : List Char) → Decidable (Lowered text)
  | [] => .isTrue lowered_nil
  | _ :: text =>
    have := decidableLowered text
    decidable_of_iff _ lowered_cons.symm

theorem Lowered.suffix (lowered : Lowered text) (inside : rest <:+ text) : Lowered rest :=
  fun mark left last => lowered mark left (last.trans inside)

/-- What comes behind a break is plainly one of these words, or it is none. -/
theorem Lowered.behind (lowered : Lowered (between ++ rest)) (gap : Break between) :
    Plainly rest := by
  obtain ⟨some, parting⟩ := (Gap.plain gap).ends
  obtain ⟨front, mark, rfl⟩ := (List.eq_nil_or_concat between).resolve_left some
  exact lowered mark rest ⟨front, by simp⟩ (parting mark (by simp))

/-! ## Phrases are plain -/

/-- What begins with a blank begins with no word. -/
theorem plainly_blank (isBlank : blank c = true) (rest : List Char) : Plainly (c :: rest) := by
  have letters : ∀ w ∈ fixedWords, ∃ letter others, w.toList = letter :: others ∧
      blank letter = false := by
    simp [fixedWords, blank]
  intro w member begins
  obtain ⟨letter, others, spelled, noBlank⟩ := letters w member
  rw [spelled, uncapped, List.map_cons, List.cons_prefix_cons] at begins
  rw [begins.1, blank_toLower, isBlank] at noBlank
  cases noBlank

/-- Blanks in front of a word leave it as it is. -/
theorem plainly_blanks {blanks : List Char} (all : ∀ d ∈ blanks, blank d = true)
    (plainly : Plainly rest) : Plainly (blanks ++ rest) := by
  cases blanks with
  | nil => exact plainly
  | cons d blanks => exact plainly_blank (all d List.mem_cons_self) _

theorem lowered_blanks {blanks : List Char} (all : ∀ d ∈ blanks, blank d = true)
    (plainly : Plainly rest) (lowered : Lowered rest) : Lowered (blanks ++ rest) := by
  induction blanks with
  | nil => exact lowered
  | cons d blanks inductionHypothesis =>
    have later : ∀ d ∈ blanks, blank d = true := (List.forall_mem_cons.mp all).2
    exact lowered_cons.mpr ⟨fun _ => plainly_blanks later plainly, inductionHypothesis later⟩

/-- Behind a gap there is what was there without it. -/
theorem Gap.lowered (gap : Gap between) (plainly : Plainly rest) (lowered : Lowered rest) :
    Lowered (between ++ rest) := by
  have blanks {c : Char} {others : List Char} (first : blank c = true)
      (later : ∀ d ∈ others, blank d = true) : Lowered (c :: others ++ rest) :=
    lowered_blanks (List.forall_mem_cons.mpr ⟨first, later⟩) plainly lowered
  cases gap with
  | plain between =>
    cases between with
    | blanks first later => exact blanks first later
    | hyphen => exact lowered_cons.mpr ⟨fun _ => plainly, lowered⟩
  | comma first later =>
    exact lowered_cons.mpr ⟨fun parting => absurd parting (by decide), blanks first later⟩

/-- No word has a mark in it. -/
theorem lowered_solid (solid : ∀ c ∈ taken, ¬ Parting c) (lowered : Lowered rest) :
    Lowered (taken ++ rest) := by
  induction taken with
  | nil => exact lowered
  | cons c taken inductionHypothesis =>
    rw [List.forall_mem_cons] at solid
    exact lowered_cons.mpr ⟨fun parting => absurd parting solid.1, inductionHypothesis solid.2⟩

/-- A word in front of the last is one of the list in any case, or one in small letters. -/
theorem InnerWord.listed (word : InnerWord taken) :
    (∃ w ∈ innerWords, Casing.folded.Spells w.toList taken) ∨
      ∃ w ∈ fixedWords, taken = w.toList := by
  cases word with
  | @counted w _ listed spells => exact .inl ⟨w, by simpa [innerWords] using listed, spells⟩
  | hundred => exact .inr ⟨"hundred", by decide, rfl⟩
  | and => exact .inr ⟨"and", by decide, rfl⟩

theorem InnerWord.solid (word : InnerWord taken) : ∀ c ∈ taken, ¬ Parting c := by
  rcases word.listed with ⟨w, member, spells⟩ | ⟨w, member, rfl⟩
  · exact spells.solid (small_innerWords w member)
  · exact (small_fixedWords.spells member).solid (small_fixedWords w member)

/-- Where one of the words that are taken in small letters only seems to come together with another
word, one of the two begins the other. -/
theorem Words.fixed_begins {fixed : String} (member : fixed ∈ fixedWords)
    (spells : Casing.folded.Spells w.toList taken)
    (begins : fixed.toList <+: uncapped (taken ++ rest)) :
    fixed.toList <+: w.toList ∨ w.toList <+: fixed.toList := by
  have itself := small_fixedWords.spells member
  have stands := Casing.spells_uncapped.mpr spells
  rw [uncapped_append] at begins
  rcases List.prefix_or_prefix_of_prefix begins (List.prefix_append _ _) with
    ⟨more, same⟩ | ⟨more, same⟩
  · rw [← same] at stands
    exact .inl (itself.prefix_of_append stands)
  · have both : Casing.folded.Spells fixed.toList (uncapped taken ++ more) := by
      rw [same]
      exact itself
    exact .inr (stands.prefix_of_append both)

/-- What begins with a word of a phrase begins with no *hundred* and no *and* in another case. -/
theorem InnerWord.plainly (word : InnerWord taken) (rest : List Char) :
    Plainly (taken ++ rest) := by
  intro fixed member begins
  rcases word.listed with ⟨w, listed, spells⟩ | ⟨w, listed, rfl⟩
  · rcases fixed_begins member spells begins with begun | begun
    · exact absurd begun (unlike_fixedWords.1 fixed member w listed)
    · exact absurd begun (unlike_fixedWords.2 w listed fixed member)
  · obtain rfl : fixed = w := by
      rcases fixed_begins member (small_fixedWords.spells listed) begins with begun | begun
      · exact prefixFree_fixedWords fixed member w listed begun
      · exact (prefixFree_fixedWords w listed fixed member begun).symm
    exact List.prefix_append _ _

theorem Phrase.plainly (phrase : Phrase .cardinal text) : Plainly text := by
  cases phrase with
  | last word =>
    have alone := word.inner.plainly []
    rwa [List.append_nil] at alone
  | more word gap later => exact word.plainly _

/-- In a cardinal number a *hundred* and an *and* are in small letters. -/
theorem Phrase.lowered (phrase : Phrase .cardinal text) : Lowered text := by
  induction phrase with
  | last word =>
    have alone := lowered_solid word.inner.solid lowered_nil
    rwa [List.append_nil] at alone
  | more word gap later inductionHypothesis =>
    exact lowered_solid word.solid (gap.lowered later.plainly inductionHypothesis)

namespace Parser

/-! ## A text beside the same text without capitals -/

/-- A parser answers on a text as it does on the same text without capitals. What it gives and
leaves satisfies a condition, and is an end of the text. -/
def Alike (p : Parser) (whole other : Array Char) (chars : List Char)
    (post : Value → List Char → Prop) : Prop :=
  ∃ reply, p.Answers whole chars reply ∧
    p.Answers other (uncapped chars) (reply.map fun found => (found.1, uncapped found.2)) ∧
    ∀ v rest, reply = some (v, rest) → rest <:+ chars ∧ post v rest

theorem Refuses.alike (near : p.Refuses whole chars) (far : p.Refuses other (uncapped chars)) :
    p.Alike whole other chars post :=
  ⟨none, near, far, nofun⟩

theorem Reads.alike (near : p.Reads whole chars v rest)
    (far : p.Reads other (uncapped chars) v (uncapped rest)) (last : rest <:+ chars)
    (holds : post v rest) : p.Alike whole other chars post := by
  refine ⟨some (v, rest), near, far, ?_⟩
  rintro _ _ ⟨⟩
  exact ⟨last, holds⟩

theorem Alike.cases (alike : p.Alike whole other chars post) :
    (p.Refuses whole chars ∧ p.Refuses other (uncapped chars)) ∨
      ∃ v rest, p.Reads whole chars v rest ∧ p.Reads other (uncapped chars) v (uncapped rest) ∧
        rest <:+ chars ∧ post v rest := by
  obtain ⟨_ | ⟨v, rest⟩, near, far, holds⟩ := alike
  · exact .inl ⟨near, far⟩
  · exact .inr ⟨v, rest, near, far, holds v rest rfl⟩

theorem Alike.mono (alike : p.Alike whole other chars post)
    (weaken : ∀ v rest, post v rest → wider v rest) : p.Alike whole other chars wider := by
  obtain ⟨reply, near, far, holds⟩ := alike
  exact ⟨reply, near, far, fun v rest same => (holds v rest same).imp_right (weaken v rest)⟩

theorem alike_succeed (holds : post v chars) : (succeed v).Alike whole other chars post :=
  Reads.alike (reads_succeed v) (reads_succeed v) (List.suffix_refl chars) holds

/-- What answers on the texts as another parser does on ends of them. -/
theorem Alike.transfer {middle : List Char} (alike : p.Alike whole other middle post)
    (inside : middle <:+ chars)
    (near : ∀ reply, p.Answers whole middle reply → q.Answers whole chars reply)
    (far : ∀ reply, p.Answers other (uncapped middle) reply →
      q.Answers other (uncapped chars) reply) :
    q.Alike whole other chars post := by
  obtain ⟨reply, later, onward, holds⟩ := alike
  refine ⟨reply, near _ later, far _ onward, ?_⟩
  exact fun v rest same => (holds v rest same).imp_left fun last => last.trans inside

theorem Alike.renamed (alike : p.Alike whole other chars post) (sameRun : q.run = p.run) :
    q.Alike whole other chars post :=
  alike.transfer (List.suffix_refl chars) (fun _ answer => answer.renamed sameRun)
    fun _ answer => answer.renamed sameRun

theorem Alike.label (expected : String) (alike : p.Alike whole other chars post) :
    (p.label expected).Alike whole other chars post :=
  alike.transfer (List.suffix_refl chars) (fun _ answer => answer.label expected)
    fun _ answer => answer.label expected

theorem Alike.bind {next : Value → Parser} (first : p.Alike whole other chars mid)
    (second : ∀ v middle, middle <:+ chars → mid v middle →
      (next v).Alike whole other middle post) :
    (p.bind next).Alike whole other chars post := by
  rcases first.cases with ⟨near, far⟩ | ⟨v, middle, near, far, inside, holds⟩
  · exact Refuses.alike near.bind far.bind
  · exact (second v middle inside holds).transfer inside (fun _ => near.bind) fun _ => far.bind

theorem Alike.chain_nil (alike : p.Alike whole other chars post) :
    (chain p []).Alike whole other chars post :=
  alike.renamed (funext fun s => run_chain_nil p s)

theorem Alike.chain {more : List Parser} (first : p.Alike whole other chars mid)
    (others : ∀ v middle, middle <:+ chars → mid v middle →
      (Parser.chain q more).Alike whole other middle post) :
    (Parser.chain p (q :: more)).Alike whole other chars post := by
  have bound : (p.bind fun _ => Parser.chain q more).Alike whole other chars post :=
    first.bind others
  exact bound.renamed rfl

/-- Two parsers in order, with the value of the second. -/
theorem Alike.before (first : p.Alike whole other chars mid)
    (second : ∀ v middle, middle <:+ chars → mid v middle → q.Alike whole other middle post) :
    (Parser.chain p [q]).Alike whole other chars post :=
  first.chain fun v middle inside holds => (second v middle inside holds).chain_nil

theorem Alike.satisfying {test : Value → Except Fault Bool}
    (alike : p.Alike whole other chars post)
    (decides : ∀ v rest, post v rest → ∃ passed, test v = .ok passed) :
    (satisfying test p).Alike whole other chars post := by
  rcases alike.cases with ⟨near, far⟩ | ⟨v, rest, near, far, last, holds⟩
  · exact Refuses.alike near.satisfying far.satisfying
  · obtain ⟨passed, made⟩ := decides v rest holds
    cases passed with
    | true => exact Reads.alike (near.satisfying made) (far.satisfying made) last holds
    | false => exact Refuses.alike (near.satisfying_refuses made) (far.satisfying_refuses made)

theorem Alike.choice {more : List Parser} (first : p.Alike whole other chars post)
    (others : (choice q more).Alike whole other chars post) :
    (Parser.choice p (q :: more)).Alike whole other chars post := by
  rcases first.cases with ⟨near, far⟩ | ⟨v, rest, near, far, last, holds⟩
  · obtain ⟨reply, later, onward, last⟩ := others
    exact ⟨reply, near.choice later, far.choice onward, last⟩
  · exact Reads.alike (Reads.choice near) (Reads.choice far) last holds

theorem Alike.either (first : p.Alike whole other chars post)
    (second : q.Alike whole other chars post) :
    (Parser.choice p [q]).Alike whole other chars post := by
  rcases second.cases with ⟨near, far⟩ | ⟨v, rest, near, far, last, holds⟩
  · exact first.choice (Refuses.alike near.choice_nil far.choice_nil)
  · exact first.choice (Reads.alike (Reads.choice near) (Reads.choice far) last holds)

theorem Alike.optional (alike : p.Alike whole other chars post) (nothing : post .absent chars) :
    p.optional.Alike whole other chars post :=
  alike.either (alike_succeed nothing)

theorem Alike.script_done (name : String) (alike : p.Alike whole other chars post) :
    (script name (pure p)).Alike whole other chars post :=
  alike.renamed rfl

theorem Alike.script_parse {name : String} {next : Value → Script Parser}
    (first : p.Alike whole other chars mid)
    (others : ∀ v middle, middle <:+ chars → mid v middle →
      (script name (next v)).Alike whole other middle post) :
    (script name (Script.parse p >>= next)).Alike whole other chars post := by
  have bound : (p.bind fun v => script name (next v)).Alike whole other chars post :=
    first.bind others
  exact bound.renamed rfl

theorem Alike.script_int {name : String} {next : Int → Script Parser}
    (first : p.Alike whole other chars fun v _ => v.IsInt)
    (others : ∀ n middle, middle <:+ chars →
      (script name (next n)).Alike whole other middle post) :
    (script name (Script.int p >>= next)).Alike whole other chars post := by
  rcases first.cases with ⟨near, far⟩ | ⟨_, middle, near, far, inside, n, rfl⟩
  · exact Refuses.alike (near.script name) (far.script name)
  · exact (others n middle inside).transfer inside (fun _ => near.script_int)
      fun _ => far.script_int

theorem Alike.recursive {body : Parser → Parser}
    (alike : (body (Parser.within body chars.length)).Alike whole other chars post) :
    (Parser.recursive body).Alike whole other chars post := by
  -- The texts are equally long, so the rule has the same count of itself inside on both.
  have length : (uncapped chars).length = chars.length := List.length_map _
  refine alike.transfer (List.suffix_refl chars) (fun _ => Answers.recursive) fun _ answer => ?_
  rw [← length] at answer
  exact answer.recursive

theorem Alike.inside {body : Parser → Parser} {count : Nat}
    (alike : (Parser.recursive body).Alike whole other chars post) (fewer : chars.length < count) :
    (Parser.within body count).Alike whole other chars post := by
  have less : (uncapped chars).length < count := by rwa [uncapped, List.length_map]
  exact alike.transfer (List.suffix_refl chars) (fun _ answer => answer.inside fewer)
    fun _ answer => answer.inside less

/-! ## Words and marks -/

/-- A literal that a text begins with in any case only if it does so as it is. -/
theorem alike_exact {wanted : String} (small : uncapped wanted.toList = wanted.toList)
    (plainly : wanted.toList <+: uncapped chars → wanted.toList <+: chars) :
    (literal wanted).Alike whole other chars fun _ rest => chars = wanted.toList ++ rest := by
  by_cases begins : wanted.toList <+: chars
  · obtain ⟨rest, rfl⟩ := begins
    refine Reads.alike (reads_literal rfl rest) ?_ (List.suffix_append _ _) rfl
    rw [uncapped_append, small]
    exact reads_literal rfl _
  · exact Refuses.alike (refuses_literal begins) (refuses_literal fun same => begins (plainly same))

/-- A mark is no letter. -/
theorem alike_mark {wanted : String} {mark : Char} (letters : wanted.toList = [mark])
    (noLetter : ∀ c : Char, c.toLower = mark ↔ c = mark) :
    (literal wanted).Alike whole other chars fun _ rest => chars = wanted.toList ++ rest := by
  have itself : mark.toLower = mark := (noLetter mark).mpr rfl
  refine alike_exact ?_ ?_
  · rw [letters, uncapped, List.map_singleton, itself]
  · rw [letters]
    rcases chars with _ | ⟨c, chars⟩
    · exact id
    · rw [uncapped, List.map_cons, List.cons_prefix_cons, List.cons_prefix_cons]
      exact fun same => ⟨((noLetter c).mp same.1.symm).symm, List.nil_prefix⟩

theorem alike_spaces :
    spaces.Alike whole other chars fun _ rest => ∃ gap, Break gap ∧ chars = gap ++ rest := by
  by_cases first : ∃ c ∈ chars.head?, blank c = true
  · obtain ⟨c, head, first⟩ := first
    obtain ⟨later, rfl⟩ := List.head?_eq_some_iff.mp head
    have divided : c :: later = c :: later.takeWhile blank ++ dropBlanks later :=
      congrArg (c :: ·) List.takeWhile_append_dropWhile.symm
    have far : spaces.Reads other (uncapped (c :: later)) (.text " ")
        (uncapped (dropBlanks later)) := by
      rw [uncapped_dropBlanks]
      exact reads_blanks ((blank_toLower c).trans first) _
    exact Reads.alike (reads_blanks first later) far ⟨_, divided.symm⟩
      ⟨_, .blanks first fun d => List.mem_takeWhile_imp, divided⟩
  · have solid : ∀ c ∈ chars.head?, blank c = false := by
      intro c head
      rw [← Bool.not_eq_true]
      exact fun blank => first ⟨c, head, blank⟩
    refine Refuses.alike (refuses_spaces solid) (refuses_spaces ?_)
    rw [uncapped, List.head?_map]
    intro _ head
    obtain ⟨c, first, rfl⟩ := Option.map_eq_some_iff.mp head
    exact (blank_toLower c).trans (solid c first)

theorem alike_wordBreak :
    wordBreak.Alike whole other chars fun _ rest => ∃ gap, Break gap ∧ chars = gap ++ rest := by
  refine Alike.either alike_spaces ((alike_mark rfl fun c => (mark_toLower c).1).mono ?_)
  exact fun _ rest divided => ⟨_, .hyphen, divided⟩

/-- A word is read from a text and from the same text without capitals, or from neither. -/
def ReadsWord (p : Parser) (words : List String) (whole other : Array Char) (chars : List Char) :
    Prop :=
  (p.Refuses whole chars ∧ p.Refuses other (uncapped chars)) ∨
    ∃ w ∈ words, ∃ taken rest, chars = taken ++ rest ∧ Casing.folded.Spells w.toList taken ∧
      p.Reads whole chars (.text (String.ofList taken)) rest ∧
      p.Reads other (uncapped chars) (.text (String.ofList (uncapped taken))) (uncapped rest)

/-- A literal that is matched in any case. -/
theorem readsWord_literal (target : Casing.folded.target w = w) :
    ReadsWord (literal w .folded) [w] whole other chars := by
  by_cases found : ∃ taken rest, chars = taken ++ rest ∧ Casing.folded.Spells w.toList taken
  · obtain ⟨taken, rest, rfl, spells⟩ := found
    refine .inr ⟨w, List.mem_singleton_self w, taken, rest, rfl, spells, ?_, ?_⟩
    · exact reads_spelled (target.symm ▸ spells) rest
    · rw [uncapped_append]
      exact reads_spelled (target.symm ▸ Casing.spells_uncapped.mpr spells) (uncapped rest)
  · refine .inl ⟨refuses_spelled ?_, refuses_spelled ?_⟩
    · rw [target]
      exact fun taken rest divided spells => found ⟨taken, rest, divided, spells⟩
    · rw [target]
      intro taken rest divided spells
      obtain ⟨front, back, rfl, rfl, rfl⟩ := List.map_eq_append_iff.mp divided
      exact found ⟨front, back, rfl, Casing.spells_uncapped.mp spells⟩

/-- A choice between literals that are matched in any case. -/
theorem readsWord_choice {first : String} {more : List String}
    (target : ∀ w ∈ first :: more, Casing.folded.target w = w) :
    ReadsWord (choice (literal first .folded) (more.map (literal · .folded))) (first :: more) whole
      other chars := by
  induction more generalizing first with
  | nil =>
    have only : ReadsWord (literal first .folded) [first] whole other chars :=
      readsWord_literal (target first List.mem_cons_self)
    rcases only with ⟨near, far⟩ | ⟨w, member, taken, rest, divided, spells, near, far⟩
    · exact .inl ⟨near.choice_nil, far.choice_nil⟩
    · exact .inr ⟨w, member, taken, rest, divided, spells, Reads.choice near, Reads.choice far⟩
  | cons next more inductionHypothesis =>
    have head : ReadsWord (literal first .folded) [first] whole other chars :=
      readsWord_literal (target first List.mem_cons_self)
    rcases head with ⟨near, far⟩ | ⟨w, member, taken, rest, divided, spells, near, far⟩
    · rcases inductionHypothesis fun w listed => target w (List.mem_cons_of_mem first listed) with
        ⟨later, onward⟩ | ⟨w, member, taken, rest, divided, spells, later, onward⟩
      · exact .inl ⟨near.choice later, far.choice onward⟩
      · exact .inr ⟨w, List.mem_cons_of_mem first member, taken, rest, divided, spells,
          near.choice later, far.choice onward⟩
    · obtain rfl := List.mem_singleton.mp member
      exact .inr ⟨w, List.mem_cons_self, taken, rest, divided, spells, Reads.choice near,
        Reads.choice far⟩

theorem readsWord (plain : Plain words) : ReadsWord (word words) words whole other chars := by
  have known : ∀ w ∈ longestFirst words, w ∈ words := fun _ => mem_longestFirst.mp
  unfold word
  cases sorted : longestFirst words with
  | nil => exact .inl ⟨refuses_failing _ _, refuses_failing _ _⟩
  | cons first more =>
    rw [sorted] at known
    rcases readsWord_choice fun w listed => (plain w (known w listed)).1 with
      ⟨near, far⟩ | ⟨w, member, taken, rest, divided, spells, near, far⟩
    · exact .inl ⟨Answers.label _ near, Answers.label _ far⟩
    · exact .inr ⟨w, known w member, taken, rest, divided, spells, Answers.label _ near,
        Answers.label _ far⟩

theorem alike_placedWord (plain : Plain words) (number : Nat → Nat) :
    (placedWord words number).Alike whole other chars fun v _ => v.IsInt := by
  have read : ReadsWord (word words) words whole other chars := readsWord plain
  rcases read with ⟨near, far⟩ | ⟨w, member, taken, rest, rfl, spells, near, far⟩
  · exact Refuses.alike near.map far.map
  · obtain ⟨n, found⟩ := place_spelled plain member spells
    have same := (place_uncapped plain member spells).trans found
    refine Reads.alike (near.map ?_) (far.map ?_) (List.suffix_append _ _) ⟨(number n : Nat), rfl⟩
    · simp only [found]
      rfl
    · simp only [same]
      rfl

/-- A script that looks up a word of a list goes on with its place. -/
theorem alike_place {name : String} {next : Nat → Script Parser} (plain : Plain words)
    (others : ∀ n left, left <:+ chars → (script name (next n)).Alike whole other left post) :
    (script name (Script.text (word words) >>= fun t => Script.ofExcept (place words t) >>=
      next)).Alike whole other chars post := by
  have read : ReadsWord (word words) words whole other chars := readsWord plain
  rcases read with ⟨near, far⟩ | ⟨w, member, taken, rest, rfl, spells, near, far⟩
  · exact Refuses.alike (near.script name) (far.script name)
  · obtain ⟨n, found⟩ := place_spelled plain member spells
    have same := (place_uncapped plain member spells).trans found
    exact (others n rest (List.suffix_append _ _)).transfer (List.suffix_append _ _)
      (fun _ answer => near.script_text (script_check found answer))
      fun _ answer => far.script_text (script_check same answer)

/-! ## Numbers below a thousand -/

theorem alike_tensAndOnes :
    (tensAndOnes .cardinal).Alike whole other chars fun v _ => v.IsInt := by
  refine alike_place (plain_lists tens (by simp)) ?_
  intro ten middle _
  have ones : (choice (chain wordBreak [oneToNine .cardinal]) [succeed (.int 0)]).Alike whole other
      middle fun v _ => v.IsInt := by
    refine Alike.either (alike_wordBreak.before fun _ left _ _ => ?_) (alike_succeed ⟨0, rfl⟩)
    exact alike_placedWord (plain_lists _ (by simp)) _
  exact ones.script_int fun one rest _ => Alike.script_done _ (alike_succeed ⟨_, rfl⟩)

theorem alike_upToNinetyNine :
    (upToNinetyNine .cardinal).Alike whole other chars fun v _ => v.IsInt :=
  alike_tensAndOnes.either (alike_placedWord (plain_lists _ (by simp)) _)

/-- Behind a smaller part, or where there is none, a script goes on with its number. -/
theorem Alike.script_part {name : String} {next : Int → Script Parser}
    (part : p.Alike whole other chars fun v _ => IsPart v)
    (others : ∀ n rest, (script name (next n)).Alike whole other rest post) :
    (script name (Script.parse p >>= fun v => smallerPart .cardinal v >>= next)).Alike whole other
      chars post := by
  refine part.script_parse ?_
  rintro _ rest _ (rfl | ⟨n, rfl⟩)
  · exact others 0 rest
  · exact others n rest

theorem alike_behindHundred (lowered : Lowered chars) :
    (behindHundred .cardinal).Alike whole other chars fun v _ => IsPart v := by
  refine Alike.either (alike_wordBreak.chain ?_) (alike_succeed (.inl rfl))
  rintro _ middle inside ⟨gap, between, rfl⟩
  have and : (optional (chain (literal "and") [wordBreak])).Alike whole other middle
      fun _ _ => True := by
    refine Alike.optional ?_ trivial
    refine (alike_exact rfl (lowered.behind between "and" (by decide))).before fun _ left _ _ => ?_
    exact alike_wordBreak.mono fun _ _ _ => trivial
  refine and.chain fun _ left _ _ => ?_
  exact (alike_upToNinetyNine.mono fun _ _ => .inr).chain_nil

theorem alike_hundreds (lowered : Lowered chars) :
    (hundreds .cardinal).Alike whole other chars fun v _ => v.IsInt := by
  refine Alike.script_int (alike_placedWord (plain_lists ones (by simp)) _) ?_
  intro count left inside
  refine Alike.script_parse alike_wordBreak ?_
  rintro _ middle _ ⟨gap, between, rfl⟩
  -- Only behind a break is the *hundred* looked for, and there it is in small letters or missing.
  have plainly : Plainly middle := (lowered.suffix inside).behind between
  refine Alike.script_parse (alike_exact rfl (plainly "hundred" (by decide))) ?_
  rintro _ tail _ rfl
  have later : Lowered tail :=
    lowered.suffix ((List.suffix_append _ _).trans ((List.suffix_append _ _).trans inside))
  refine (alike_behindHundred later).script_part fun small rest => ?_
  exact Alike.script_done _ (alike_succeed ⟨_, rfl⟩)

theorem alike_upToThreeNines (lowered : Lowered chars) :
    (upToThreeNines .cardinal).Alike whole other chars fun v _ => v.IsInt :=
  (alike_hundreds lowered).either alike_upToNinetyNine

/-! ## Numbers of any size -/

theorem alike_behindUnit (lowered : Lowered chars)
    (inner : ∀ left, left <:+ chars → larger.Alike whole other left fun v _ => v.IsInt) :
    (behindUnit .cardinal larger).Alike whole other chars fun v _ => IsPart v := by
  have comma : (chain (literal ",") [spaces]).Alike whole other chars fun _ _ => True := by
    refine (alike_mark rfl fun c => (mark_toLower c).2).before fun _ left _ _ => ?_
    exact alike_spaces.mono fun _ _ _ => trivial
  have gap := comma.either (alike_wordBreak.mono fun _ _ _ => trivial)
  refine Alike.choice (gap.before fun _ left inside _ => (inner left inside).mono fun _ _ => .inr)
    (Alike.either (alike_wordBreak.chain ?_) (alike_succeed (.inl rfl)))
  rintro _ middle inside ⟨gap, between, rfl⟩
  refine (alike_exact rfl (lowered.behind between "and" (by decide))).chain fun _ left last _ => ?_
  refine alike_wordBreak.chain fun _ tail within _ => ?_
  have later : Lowered tail := lowered.suffix (within.trans (last.trans inside))
  exact ((alike_upToThreeNines later).mono fun _ _ => .inr).chain_nil

theorem alike_bigNumber (lowered : Lowered chars)
    (inner : ∀ left, left.length < chars.length → Lowered left →
      larger.Alike whole other left fun v _ => v.IsInt) :
    (bigNumber .cardinal larger).Alike whole other chars fun v _ => v.IsInt := by
  refine (alike_upToThreeNines lowered).script_int ?_
  intro count left inside
  refine Alike.script_parse alike_wordBreak ?_
  rintro _ middle _ ⟨gap, between, rfl⟩
  refine alike_place lettered_units.plain ?_
  intro power tail last
  have ended : tail <:+ chars := last.trans ((List.suffix_append _ _).trans inside)
  have shorter : tail.length < chars.length := by
    calc tail.length ≤ middle.length := last.length_le
      _ < (gap ++ middle).length := (Gap.plain between).shorter _
      _ ≤ chars.length := inside.length_le
  have part := alike_behindUnit (lowered.suffix ended) fun left within =>
    inner left (Nat.lt_of_le_of_lt within.length_le shorter) (lowered.suffix (within.trans ended))
  refine (part.satisfying fun _ _ => fitsBelow_part _).script_part fun small rest => ?_
  exact Alike.script_done _ (alike_succeed ⟨_, rfl⟩)

/-- The induction is on how much is left of the text, as the rule is used inside itself behind a
large unit only. -/
theorem alike_numberWords (lowered : Lowered chars) :
    (numberWords .cardinal).Alike whole other chars fun v _ => v.IsInt := by
  induction count : chars.length using Nat.strong_induction_on generalizing chars with
  | _ count inductionHypothesis =>
    have inner : ∀ left, left.length < chars.length → Lowered left →
        (within (numberWordsOver .cardinal) chars.length).Alike whole other left
          fun v _ => v.IsInt := by
      intro left shorter later
      exact (inductionHypothesis left.length (count ▸ shorter) later rfl).inside shorter
    exact Alike.recursive ((alike_bigNumber lowered inner).either (alike_upToThreeNines lowered))

/-- A whole text and the same text without capitals are parsed to the same values. -/
theorem Alike.parses_iff {t : String}
    (alike : p.Alike t.toList.toArray (uncapped t.toList).toArray t.toList post) :
    (p.parseValue (.ofString t)).result = .ok v ↔
      (p.parseValue (.ofString (String.ofList (uncapped t.toList)))).result = .ok v := by
  obtain ⟨reply, near, far, -⟩ := alike
  rw [← String.toList_ofList (l := uncapped t.toList)] at far
  rcases near.parseValue with ⟨w, rfl, parsed⟩ | ⟨unended, failure, rejected⟩
  · rw [parsed, Reads.parseValue far]
  · rcases far.parseValue with ⟨w, found, -⟩ | ⟨-, other, refused⟩
    · obtain ⟨⟨u, rest⟩, rfl, same⟩ := Option.map_eq_some_iff.mp found
      obtain rfl := List.map_eq_nil_iff.mp (congrArg Prod.snd same)
      exact absurd rfl (unended u)
    · rw [rejected, refused]
      exact ⟨nofun, nofun⟩

end Parser

open Descent.Parser

/-- What is accepted as a cardinal number has each *hundred* and each *and* in small letters. -/
theorem lowered_of_accepted {t : String}
    (accepted : (cardinal.parseValue (.ofString t)).result = .ok v) : Lowered t.toList := by
  have cardinals : SettlesPhrase .cardinal cardinal t.toList.toArray t.toList :=
    (settles_numberWords .cardinal).label _
  obtain ⟨n, -, taken, divided, phrase⟩ := cardinals.accepted accepted
  rw [divided, List.append_nil]
  exact phrase.lowered

/-- Other texts are rejected. -/
theorem rejected_of_not_lowered {t : String} (capital : ¬ Lowered t.toList) :
    ∃ failure, (cardinal.parseValue (.ofString t)).result = .error (.rejected failure) := by
  have cardinals : SettlesPhrase .cardinal cardinal t.toList.toArray t.toList :=
    (settles_numberWords .cardinal).label _
  obtain ⟨reply, answer, -⟩ := cardinals
  rcases answer.parseValue with ⟨v, -, accepted⟩ | ⟨-, rejected⟩
  · exact absurd (lowered_of_accepted accepted) capital
  · exact rejected

/-- A cardinal number in words keeps its value when the case of letters is changed, as long as no
*hundred* and no *and* gets a capital. With one it is rejected. -/
theorem recased_cardinals_agree (t u : String) (recased : Recased t u)
    (accepted : (cardinal.parseValue (.ofString t)).result = .ok v) :
    (Lowered u.toList → (cardinal.parseValue (.ofString u)).result = .ok v) ∧
      (¬ Lowered u.toList →
        ∃ failure, (cardinal.parseValue (.ofString u)).result = .error (.rejected failure)) := by
  have alike {t : String} (lowered : Lowered t.toList) :
      cardinal.Alike t.toList.toArray (uncapped t.toList).toArray t.toList fun v _ => v.IsInt :=
    (alike_numberWords lowered).label _
  refine ⟨fun lowered => ?_, rejected_of_not_lowered⟩
  -- Both texts are compared with the one that they are without capitals.
  have same := (alike (lowered_of_accepted accepted)).parses_iff.mp accepted
  rw [recased] at same
  exact (alike lowered).parses_iff.mpr same

-- Capitals in the words for a count do no harm, and in a hundred they do.
theorem recased_cardinals_agree_hundred :
    (cardinal.parseValue (.ofString "ONE-hundred and FORTY-two")).result = .ok (.int 142) ∧
      ∃ failure, (cardinal.parseValue (.ofString "one-hundred And forty-two")).result =
        .error (.rejected failure) := by
  have forty : tens[2]? = some "forty" := rfl
  have two : (onesOf .cardinal)[1]? = some "two" := rfl
  have small : SmallText .cardinal "forty-two".toList 42 := .tensAndOnes forty (.inl rfl) two
  have number : NumberText .cardinal units.length "one-hundred and forty-two".toList 142 :=
    .group (.hundredAnd (k := 0) rfl (.inl rfl) (.inl rfl) small (by decide))
  have accepted := parses_words number "cardinal"
  exact ⟨(recased_cardinals_agree _ "ONE-hundred and FORTY-two" (by decide) accepted).1 (by decide),
    (recased_cardinals_agree _ "one-hundred And forty-two" (by decide) accepted).2 (by decide)⟩

/-- A hundred is accepted in small letters and rejected in capitals. -/
theorem capital_hundred_rejected :
    Recased "one hundred" "one HUNDRED" ∧
      (cardinal.parseValue (.ofString "one hundred")).result = .ok (.int 100) ∧
      ∃ failure, (cardinal.parseValue (.ofString "one HUNDRED")).result =
        .error (.rejected failure) := by
  have number : NumberText .cardinal units.length "one hundred".toList 100 :=
    .group (.hundred (k := 0) rfl (.inr rfl))
  exact ⟨by decide, parses_words number "cardinal", rejected_of_not_lowered (by decide)⟩

end Descent
