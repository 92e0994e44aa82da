import Descent.Proofs.Leaves
import Descent.Proofs.NumberTexts

/-!
# Numbers in words on a text

The parser tries the largest things first. It is not misled by this: no number below a thousand
has a large unit anywhere in its words, no number below a hundred goes on with a hundred behind its
first word, and no number begins with an *and*.

What comes behind a number below a thousand is the end of the text or a large unit. What comes
behind a large unit is read by the rule for numbers of any size itself.
-/

namespace Descent

open Words

variable {whole : Array Char} {form : NumberForm} {text rest : List Char} {n k count power : Nat}
  {w : String}

/-- A single space or hyphen is a break. -/
theorem Break.mark {mark : Char} (marked : mark = '-' ∨ mark = ' ') : Break [mark] := by
  rcases marked with rfl | rfl
  · exact .hyphen
  · exact .blanks (by decide) nofun

namespace Parser

/-- A single space or hyphen is read as a break. -/
theorem reads_mark (whole : Array Char) {mark : Char} (marked : mark = '-' ∨ mark = ' ')
    (rest : List Char) (solid : ∀ c ∈ rest.head?, blank c = false ∧ c ≠ '-') :
    ∃ v, wordBreak.Reads whole (mark :: rest) v rest :=
  reads_wordBreak (Break.mark marked) fun c head => (solid c head).1

/-- A space in front of a large unit is read as a break. -/
theorem reads_unitBreak (whole : Array Char) {unit : String} (known : unit ∈ units)
    (more : List Char) :
    ∃ v, wordBreak.Reads whole (' ' :: (unit.toList ++ more)) v (unit.toList ++ more) :=
  reads_mark whole (.inr rfl) _ (lettered_units.solid known (lettered_units.spells known) more)

theorem oneToNine_eq (form : NumberForm) :
    oneToNine form = placedWord (onesOf form) (· + 1) := by
  cases form <;> rfl

theorem upToNineteen_eq (form : NumberForm) :
    upToNineteen form = placedWord (teensOf form) id := by
  cases form <;> rfl

theorem Refuses.oneToNine {chars : List Char}
    (refuses : (word (onesOf form)).Refuses whole chars) :
    (oneToNine form).Refuses whole chars := by
  rw [oneToNine_eq]
  exact refuses.map

theorem Refuses.upToNineteen {chars : List Char}
    (refuses : (word (teensOf form)).Refuses whole chars) :
    (upToNineteen form).Refuses whole chars := by
  rw [upToNineteen_eq]
  exact refuses.map

/-- Where a large unit comes there is no other word. -/
theorem refuses_word_unit {unit : String} (known : unit ∈ units) (rest : List Char) :
    ∀ words ∈ counting, (word words).Refuses whole (unit.toList ++ rest) :=
  fun words listed => refuses_word_unlike (lettered_counting words listed)
    (unlike_units words (by simp [listed])) known (lettered_units.spells known) rest

/-- Where an *and* comes there is no word. -/
theorem refuses_word_and (rest : List Char) :
    ∀ words ∈ counting, (word words).Refuses whole ("and".toList ++ rest) := by
  intro words listed
  have spells : Casing.folded.Spells "and".toList "and".toList := Casing.spells_lower (by decide)
  exact refuses_word_unlike (lettered_counting words listed) (unlike_and words listed)
    List.mem_cons_self spells rest

/-- Where no word comes there is no number below a hundred. -/
theorem refuses_upToNinetyNine {chars : List Char} (form : NumberForm)
    (refuses : ∀ words ∈ firsts form, (word words).Refuses whole chars) :
    (upToNinetyNine form).Refuses whole chars := by
  have noTens : (tensAndOnes form).Refuses whole chars :=
    Refuses.script _ (refuses tens (by simp [firsts]))
  have noTeens : (upToNineteen form).Refuses whole chars :=
    Refuses.upToNineteen (refuses _ (by simp [firsts]))
  cases form with
  | cardinal => exact noTens.either noTeens
  | ordinal =>
    exact noTens.choice ((refuses ordinalTens (by simp [firsts, tensOf])).map.either noTeens)

/-- Where no word comes there is no number below a thousand. -/
theorem refuses_upToThreeNines {chars : List Char} (form : NumberForm)
    (refuses : ∀ words ∈ counting, (word words).Refuses whole chars) :
    (upToThreeNines form).Refuses whole chars := by
  have noOnes : (oneToNine .cardinal).Refuses whole chars :=
    Refuses.oneToNine (refuses ones (by decide))
  refine Refuses.either (noOnes.script _) (refuses_upToNinetyNine form ?_)
  exact fun words first => refuses words (firsts_counting form words first)

/-- No number begins with an *and*. -/
theorem refuses_numberWords_and (form : NumberForm) (rest : List Char) :
    (numberWords form).Refuses whole ("and".toList ++ rest) := by
  have refuses (form : NumberForm) :
      (upToThreeNines form).Refuses whole ("and".toList ++ rest) :=
    refuses_upToThreeNines form (refuses_word_and rest)
  exact Answers.recursive (Refuses.either ((refuses .cardinal).script _) (refuses form))

/-! ## Numbers below a hundred -/

theorem reads_oneToNine {run : List Char} (listed : (onesOf form)[n]? = some w)
    (spells : Casing.folded.Spells w.toList run) (ends : EndsWord rest) :
    (oneToNine form).Reads whole (run ++ rest) (.int (n + 1 : Nat)) rest := by
  have lettered := lettered_onesOf form
  have member := List.mem_of_getElem? listed
  rw [oneToNine_eq]
  exact (reads_word_run lettered member spells ends).placed lettered listed spells _

theorem reads_upToNineteen {run : List Char} (listed : (teensOf form)[n]? = some w)
    (spells : Casing.folded.Spells w.toList run) (ends : EndsWord rest) :
    (upToNineteen form).Reads whole (run ++ rest) (.int n) rest := by
  have lettered := lettered_teensOf form
  have member := List.mem_of_getElem? listed
  rw [upToNineteen_eq]
  exact (reads_word_run lettered member spells ends).placed lettered listed spells _

/-- A word for tens is read, and then what there is of ones. -/
theorem reads_tensAndOnes {left : List Char} {m : Int} (listed : tens[k]? = some w)
    (ends : EndsWord rest)
    (ones : (choice (chain wordBreak [oneToNine form]) [succeed (.int 0)]).Reads whole rest (.int m)
      left) :
    (tensAndOnes form).Reads whole (w.toList ++ rest) (.int ((k + 2) * 10 + m)) left := by
  have lettered : Lettered tens := lettered_tensOf .cardinal
  have member := List.mem_of_getElem? listed
  have spells := lettered.spells member
  exact (reads_word_run lettered member spells ends).script_text
    (script_check (place_listed lettered listed spells)
      (ones.script_int ((reads_succeed _).script_done _)))

/-- Behind a number below a thousand come no ones. -/
theorem reads_noOnes (form : NumberForm) (after : AfterGroup rest) :
    (choice (chain wordBreak [oneToNine form]) [succeed (.int 0)]).Reads whole rest (.int 0)
      rest := by
  have refuses : (chain wordBreak [oneToNine form]).Refuses whole rest := by
    cases after with
    | ended => exact Refuses.chain (refuses_wordBreak nofun)
    | @unit unit known more =>
      obtain ⟨v, between⟩ := reads_unitBreak whole known more
      exact between.before
        (Refuses.oneToNine (refuses_word_unit known more _ (by cases form <;> decide)))
  exact refuses.either (reads_succeed _)

/-- A number below a hundred is read to its end. -/
theorem reads_small (small : SmallText form text n) (after : AfterGroup rest) :
    (upToNinetyNine form).Reads whole (text ++ rest) (.int n) rest := by
  have ends := after.endsWord
  have lettered : Lettered tens := lettered_tensOf .cardinal
  obtain ⟨fromTeens, fromOrdinalTeens, fromOrdinalTens, apart⟩ := apart_tens
  cases small with
  | @word w n listed =>
    have member := List.mem_of_getElem? listed
    have spells := (lettered_teensOf form).spells member
    have reads : (upToNineteen form).Reads whole (w.toList ++ rest) (.int n) rest :=
      reads_upToNineteen listed spells ends
    cases form with
    | cardinal =>
      have noTens : (word tens).Refuses whole (w.toList ++ rest) :=
        refuses_word_apart lettered fromTeens member spells ends
      exact Refuses.either (noTens.script _) reads
    | ordinal =>
      have noTens : (word tens).Refuses whole (w.toList ++ rest) :=
        refuses_word_apart lettered fromOrdinalTeens member spells ends
      have noOther : (word ordinalTens).Refuses whole (w.toList ++ rest) :=
        refuses_word_apart (lettered_tensOf .ordinal) apart member spells ends
      exact Refuses.choice (noTens.script _) (noOther.map.either reads)
  | @tens w k listed =>
    cases form with
    | cardinal => exact Reads.choice (reads_tensAndOnes listed ends (reads_noOnes .cardinal after))
    | ordinal =>
      have known : Lettered ordinalTens := lettered_tensOf .ordinal
      have member := List.mem_of_getElem? listed
      have spells := known.spells member
      have noTens : (word tens).Refuses whole (w.toList ++ rest) :=
        refuses_word_apart lettered fromOrdinalTens member spells ends
      have reads : (placedWord ordinalTens fun n => (n + 2) * 10).Reads whole (w.toList ++ rest)
          (.int ((k + 2) * 10 : Nat)) rest :=
        (reads_word_run known member spells ends).placed known listed spells _
      exact Refuses.choice (noTens.script _) (Reads.choice reads)
  | @tensAndOnes ten one k n mark tens marked ones =>
    have member := List.mem_of_getElem? ones
    have spells := (lettered_onesOf form).spells member
    have solid := (lettered_onesOf form).solid member spells rest
    obtain ⟨v, between⟩ := reads_mark whole marked _ solid
    have both : (choice (chain wordBreak [oneToNine form]) [succeed (.int 0)]).Reads whole
        (mark :: (one.toList ++ rest)) (.int (n + 1 : Nat)) rest :=
      Reads.choice (between.before (reads_oneToNine ones spells ends))
    have first : EndsWord (mark :: (one.toList ++ rest)) :=
      endsWord_mark (by rcases marked with rfl | rfl <;> decide) _
    rw [List.append_assoc, List.cons_append]
    have reads := reads_tensAndOnes tens first both
    cases form with
    | cardinal => exact Reads.choice reads
    | ordinal => exact Reads.choice reads

/-! ## Numbers below a thousand -/

/-- There is no number of hundreds where the text begins with a word, unless the word is one below
ten and a hundred comes behind it. -/
theorem refuses_hundreds {known run : List Char} (form : NumberForm)
    (lower : ∀ letter ∈ known, letter.isLower = true) (spells : Casing.folded.Spells known run)
    (ends : EndsWord rest)
    (behind : ∀ one ∈ ones, one.toList = known → wordBreak.Settles whole rest fun _ left =>
      (literal "hundred").Refuses whole left) :
    (hundreds form).Refuses whole (run ++ rest) := by
  have lettered : Lettered ones := lettered_onesOf .cardinal
  have count : (placedWord ones (· + 1)).Settles whole (run ++ rest) fun v left =>
      ∃ n, v = .int n ∧ ∃ one ∈ ones, ∃ taken more, run = taken ++ more ∧ left = more ++ rest ∧
        Casing.folded.Spells one.toList taken := by
    refine Settles.map ((settles_word_run lettered spells ends).mono ?_)
    rintro _ left ⟨one, member, taken, more, rfl, divided, left, stands⟩
    obtain ⟨n, found⟩ := place_spelled lettered.plain member stands
    simp only [found]
    exact ⟨_, rfl, _, rfl, one, member, taken, more, divided, left, stands⟩
  have noHundred {left : List Char} (between : wordBreak.Settles whole left fun _ middle =>
      (literal "hundred").Refuses whole middle) {next : Value → Value → Script Parser} :
      (script "hundreds" do
        let v ← Script.parse wordBreak
        let w ← Script.parse (literal "hundred")
        next v w).Settles whole left fun _ _ => False :=
    Settles.script_parse between fun _ _ refuses => Refuses.settles (refuses.script _)
  have settles : (hundreds form).Settles whole (run ++ rest) fun _ _ => False := by
    refine Settles.script_int count ?_
    rintro n left ⟨one, member, taken, more, rfl, rfl, stands⟩
    cases more with
    | nil =>
      rw [List.append_nil] at spells
      exact noHundred (behind one member (stands.folded_unique spells))
    | cons c more =>
      -- Within the letters there is no break.
      obtain ⟨front, back, rfl, _, later⟩ := spells.append_inv
      refine noHundred (Refuses.settles (refuses_wordBreak ?_))
      cases later with
      | cons letter others =>
        rintro _ ⟨⟩
        exact solid_of_takes (lower _ (by simp)) letter
  exact settles.refuses fun _ _ => not_false

/-- Behind a number below a thousand comes no hundred. -/
theorem settles_noHundred (after : AfterGroup rest) :
    wordBreak.Settles whole rest fun _ left => (literal "hundred").Refuses whole left := by
  cases after with
  | ended => exact Refuses.settles (refuses_wordBreak nofun)
  | @unit unit known more =>
    obtain ⟨v, between⟩ := reads_unitBreak whole known more
    exact Reads.settles between
      (refuses_literal_unlike (unlike_units _ List.mem_cons_self) known more)

/-- What a parser of smaller parts may find: a number, or nothing but the end of the form. -/
inductive FindsPart (form : NumberForm) (p : Parser) (whole : Array Char) :
    List Char → Nat → List Char → Prop where
  | number {chars rest : List Char} {n : Nat} (reads : p.Reads whole chars (.int n) rest) :
      FindsPart form p whole chars n rest
  | nothing {rest : List Char}
      (reads : p.Reads whole (endingOf form ++ rest) .null (endingOf form ++ rest)) :
      FindsPart form p whole (endingOf form ++ rest) 0 rest

/-- A script goes on with the number of the smaller part, which is zero where there is none. -/
theorem FindsPart.script {p : Parser} {chars : List Char} {name : String} {reply : Reply}
    {next : Int → Script Parser} (part : FindsPart form p whole chars n rest)
    (others : (script name (next n)).Answers whole rest reply) :
    (script name (Script.parse p >>= fun v => smallerPart form v >>= next)).Answers whole chars
      reply := by
  cases part with
  | number reads => exact reads.script_parse others
  | nothing reads =>
    refine reads.script_parse ?_
    cases form with
    | cardinal => exact others
    | ordinal =>
      have suffix : (literal "th").Reads whole (['t', 'h'] ++ rest) (.text "th") rest :=
        reads_literal rfl rest
      exact suffix.script_parse others

/-- What may come behind a hundred: a number below a hundred with or without an *and*. -/
def behindHundred (form : NumberForm) : Parser :=
  choice (chain wordBreak [optional (chain (literal "and") [wordBreak]), upToNinetyNine form])
    [succeed .null]

/-- A number below a hundred is read behind a hundred. -/
theorem reads_joint {between : List Char}
    (joint : between = " and ".toList ∨ between = " ".toList) (small : SmallText form text n)
    (after : AfterGroup rest) :
    (behindHundred form).Reads whole (between ++ (text ++ rest)) (.int n) rest := by
  obtain ⟨w, member, more, rfl, _, _⟩ := small.starts after.endsWord
  have solid := lettered_starters.solid member (lettered_starters.spells member) (more ++ rest)
  rw [← List.append_assoc] at solid
  obtain ⟨v, last⟩ := reads_mark whole (.inr rfl) (w.toList ++ more ++ rest) solid
  have reads : (chain (upToNinetyNine form) []).Reads whole (w.toList ++ more ++ rest) (.int n)
      rest := (reads_small small after).chain_nil
  rcases joint with rfl | rfl
  · obtain ⟨u, first⟩ := reads_mark whole (.inr rfl) ("and ".toList ++ (w.toList ++ more ++ rest))
      (by rintro c ⟨⟩; decide)
    have linked : (chain (literal "and") [wordBreak]).Reads whole
        ("and".toList ++ ' ' :: (w.toList ++ more ++ rest)) v (w.toList ++ more ++ rest) :=
      (reads_literal rfl _).before last
    exact Reads.choice (first.chain (Reads.chain (Reads.choice linked) reads))
  · have noAnd : (chain (literal "and") [wordBreak]).Refuses whole (w.toList ++ more ++ rest) := by
      rw [List.append_assoc]
      exact Refuses.chain (refuses_literal_unlike and_unlike member _)
    exact Reads.choice (last.chain (noAnd.optional.chain reads))

/-- Where no break comes there is no smaller part behind a hundred. -/
theorem reads_behindHundred {chars : List Char} (form : NumberForm)
    (noBreak : wordBreak.Refuses whole chars) :
    (behindHundred form).Reads whole chars .null chars :=
  Refuses.either (Refuses.chain noBreak) (reads_succeed _)

/-- Where the text ends or the suffix begins there is no break. -/
theorem refuses_wordBreak_suffix {chars : List Char} (head : ∀ c ∈ chars.head?, c = 't') :
    wordBreak.Refuses whole chars :=
  refuses_wordBreak fun c first => by rw [head c first]; decide

/-- Where nothing but the end of a form comes behind a hundred there is no smaller part. -/
theorem finds_nothing (form : NumberForm) (after : AfterGroup rest) :
    FindsPart form (behindHundred form) whole (endingOf form ++ rest) 0 rest := by
  refine .nothing ?_
  cases form with
  | ordinal => exact reads_behindHundred _ (refuses_wordBreak_suffix (by rintro c ⟨⟩; rfl))
  | cardinal =>
    cases after with
    | ended => exact reads_behindHundred _ (refuses_wordBreak nofun)
    | @unit unit known more =>
      obtain ⟨v, between⟩ := reads_unitBreak whole known more
      have noAnd : (literal "and").Refuses whole (unit.toList ++ more) :=
        refuses_literal_unlike (unlike_units _ (by simp)) known more
      have noSmall : (upToNinetyNine .cardinal).Refuses whole (unit.toList ++ more) :=
        refuses_upToNinetyNine .cardinal fun words first =>
          refuses_word_unit known more words (firsts_counting .cardinal words first)
      refine Refuses.either (between.chain ?_) (reads_succeed _)
      exact Reads.chain (Refuses.chain noAnd).optional (Refuses.chain noSmall)

/-- A hundred is read with what comes behind it. -/
theorem reads_hundreds {run gap tail : List Char} (listed : ones[k]? = some w)
    (spells : Casing.folded.Spells w.toList run) (between : Break gap)
    (part : FindsPart form (behindHundred form) whole tail n rest) :
    (hundreds form).Reads whole (run ++ (gap ++ ("hundred".toList ++ tail)))
      (.int ((k + 1) * 100 + n : Nat)) rest := by
  have ends : EndsWord (gap ++ ("hundred".toList ++ tail)) := between.endsWord _
  obtain ⟨v, apart⟩ := reads_break_hundred whole between tail
  have count : (oneToNine .cardinal).Reads whole (run ++ (gap ++ ("hundred".toList ++ tail)))
      (.int (k + 1 : Nat)) (gap ++ ("hundred".toList ++ tail)) :=
    reads_oneToNine listed spells ends
  exact count.script_int (apart.script_parse ((reads_literal rfl tail).script_parse
    (part.script ((reads_succeed _).script_done _))))

/-- A number below a thousand is read to its end. -/
theorem reads_group (group : GroupText form text n) (after : AfterGroup rest) :
    (upToThreeNines form).Reads whole (text ++ rest) (.int n) rest := by
  have lettered : Lettered ones := lettered_onesOf .cardinal
  cases group with
  | small small =>
    obtain ⟨w, member, more, rfl, ends, alone⟩ := small.starts after.endsWord
    refine Refuses.either ?_ (reads_small small after)
    rw [List.append_assoc]
    refine refuses_hundreds form (lettered_starters.lower w member)
      (lettered_starters.spells member) ends ?_
    intro one below same
    obtain rfl := String.toList_inj.mp same
    rw [alone below]
    exact settles_noHundred after
  | hundred listed marked =>
    have spells := lettered.spells (List.mem_of_getElem? listed)
    rw [List.append_assoc, List.cons_append, List.append_assoc, ← Nat.add_zero (_ * 100)]
    exact Reads.choice
      (reads_hundreds listed spells (Break.mark marked) (finds_nothing form after))
  | hundredAnd listed marked joint small =>
    have spells := lettered.spells (List.mem_of_getElem? listed)
    rw [List.append_assoc, List.cons_append, List.append_assoc, List.append_assoc]
    exact Reads.choice (reads_hundreds listed spells (Break.mark marked)
      (.number (reads_joint joint small after)))

/-- The same at the end of the text. -/
theorem reads_lastGroup (group : GroupText form text n) :
    (upToThreeNines form).Reads whole text (.int n) [] := by
  have reads : (upToThreeNines form).Reads whole (text ++ []) (.int n) [] :=
    reads_group group .ended
  rwa [List.append_nil] at reads

/-! ## Numbers of any size -/

/-- Where no large unit is there is no number of them. -/
theorem refuses_bigNumber {larger : Parser} (form : NumberForm) (noUnit : NoUnit text) :
    (bigNumber form larger).Refuses whole text := by
  have count : (upToThreeNines .cardinal).Settles whole text fun v left =>
      ∃ n, v = .int n ∧ left <:+ text := by
    have gains : (upToThreeNines .cardinal).Settles whole text fun v left =>
        left.length + 1 ≤ text.length ∧ v.IsInt :=
      gains_upToThreeNines .cardinal text (Nat.lt_succ_self _)
    refine (gains.suffix (Built.upToThreeNines .cardinal)).mono ?_
    rintro v left ⟨⟨_, n, rfl⟩, suffix⟩
    exact ⟨n, rfl, suffix⟩
  have settles : (bigNumber form larger).Settles whole text fun _ _ => False := by
    refine Settles.script_int count ?_
    rintro n left suffix
    have between : wordBreak.Settles whole left fun v tail =>
        tail.length + 1 ≤ left.length ∧ v.Any := gains_wordBreak left (Nat.lt_succ_self _)
    refine Settles.script_parse (between.suffix Built.wordBreak) ?_
    rintro _ tail ⟨_, further⟩
    have refuses : (word units).Refuses whole tail := by
      refine (settles_word lettered_units.plain).refuses ?_
      rintro _ rest ⟨unit, known, taken, rfl, _, spells⟩
      have inside : taken <:+: text :=
        (List.prefix_append taken rest).isInfix.trans (further.trans suffix).isInfix
      exact noUnit unit known taken inside spells
    exact Refuses.settles (refuses.script _)
  exact settles.refuses fun _ _ => not_false

/-- A number that is smaller than a unit passes the test. -/
theorem fitsBelow_lt {unit : Int} {m : Int} (smaller : m < unit) :
    fitsBelow unit (.int m) = .ok true := by
  have compared : (Value.int m).order? (.int unit) = some (compare m unit) := by
    simp [Value.order?, Value.numberOrder?, Value.quotient?, Value.Exact.order]
  have below : compare m unit = .lt := Int.compare_eq_lt.mpr smaller
  change Comparison.lt.holds (.int m) (.int unit) = .ok true
  simp only [Comparison.holds, compared, below]
  rfl

theorem FindsPart.satisfying {p : Parser} {chars : List Char} {unit : Int}
    (part : FindsPart form p whole chars n rest) (smaller : (n : Int) < unit) :
    FindsPart form (satisfying (fitsBelow unit) p) whole chars n rest := by
  cases part with
  | number reads => exact .number (reads.satisfying (fitsBelow_lt smaller))
  | nothing reads => exact .nothing (reads.satisfying rfl)

theorem tenTo_unit (power : Nat) : Binary64.tenTo ((power + 1) * 3) = 1000 ^ (power + 1) := by
  rw [Binary64.tenTo, Nat.mul_comm]
  exact Nat.pow_mul 10 3 (power + 1)

/-- What may come behind a large unit: a smaller number behind a comma or a break, or a number below
a thousand behind an *and*. -/
def behindUnit (form : NumberForm) (larger : Parser) : Parser :=
  choice (chain (choice (chain (literal ",") [spaces]) [wordBreak]) [larger])
    [chain wordBreak [literal "and", wordBreak, upToThreeNines form], succeed .null]

/-- A large unit is read with what comes behind it. -/
theorem reads_bigNumber {larger : Parser} {tail : List Char}
    (many : GroupText .cardinal text k) (named : units[power]? = some w)
    (smaller : n < 1000 ^ (power + 1))
    (part : FindsPart form (behindUnit form larger) whole tail n rest) :
    (bigNumber form larger).Reads whole (text ++ ' ' :: (w.toList ++ tail))
      (.int (k * 1000 ^ (power + 1) + n : Nat)) rest := by
  have known := List.mem_of_getElem? named
  have spells := lettered_units.spells known
  have free : PrefixFree units := by decide +kernel
  have count : (upToThreeNines .cardinal).Reads whole (text ++ ' ' :: (w.toList ++ tail)) (.int k)
      (' ' :: (w.toList ++ tail)) := reads_group many (.unit known tail)
  obtain ⟨v, between⟩ := reads_unitBreak whole known tail
  have unit : (word units).Reads whole (w.toList ++ tail) (.text (String.ofList w.toList)) tail :=
    reads_word_free lettered_units free known spells tail
  have below : (n : Int) < (Binary64.tenTo ((power + 1) * 3) : Nat) := by
    rw [tenTo_unit]
    exact_mod_cast smaller
  have value : (k : Int) * (Binary64.tenTo ((power + 1) * 3) : Nat) + n =
      (k * 1000 ^ (power + 1) + n : Nat) := by
    rw [tenTo_unit, Int.natCast_add, Int.natCast_mul]
  refine count.script_int (between.script_parse (unit.script_text
    (script_check (place_listed lettered_units named spells) ?_)))
  refine (part.satisfying below).script ?_
  rw [value]
  exact (reads_succeed _).script_done _

/-- Where neither a comma nor a break comes there is no smaller part behind a large unit. -/
theorem reads_noSmaller {larger : Parser} {chars : List Char} (form : NumberForm)
    (head : ∀ c ∈ chars.head?, c = 't') :
    (behindUnit form larger).Reads whole chars .null chars := by
  have noBreak : wordBreak.Refuses whole chars := refuses_wordBreak_suffix head
  have noComma : (literal ",").Refuses whole chars :=
    refuses_literal_at rfl fun c first => by rw [head c first]; decide
  refine Refuses.choice ?_ ?_
  · exact Refuses.chain (Refuses.either (Refuses.chain noComma) noBreak)
  · exact Refuses.either (Refuses.chain noBreak) (reads_succeed .null)

theorem finds_noSmaller {larger : Parser} (form : NumberForm) :
    FindsPart form (behindUnit form larger) whole (endingOf form) 0 [] := by
  rw [← List.append_nil (endingOf form)]
  refine .nothing (reads_noSmaller form ?_)
  cases form with
  | cardinal => nofun
  | ordinal =>
    rintro c ⟨⟩
    rfl

/-- A number is read to its end. The rule for what follows a large unit is the rule itself, on the
shorter text that is left. -/
theorem reads_numberWords (number : NumberText form count text n) :
    (numberWords form).Reads whole text (.int n) [] := by
  -- What is left behind a large unit is shorter.
  have fewer (text unit mark left : List Char) :
      left.length < (text ++ ' ' :: (unit ++ (mark ++ left))).length := by
    simp only [List.length_append, List.length_cons]
    omega
  induction number with
  | @group count text n group =>
    exact Answers.recursive
      (Refuses.either (refuses_bigNumber form group.noUnit) (reads_lastGroup group))
  | @unit count power k text unit below many counted named =>
    exact Answers.recursive (Reads.choice
      (reads_bigNumber many named (Nat.pow_pos (by decide)) (finds_noSmaller form)))
  | @comma count power k n text later unit below many counted named smaller remains inside =>
    have stops : ∀ c ∈ later.head?, blank c = false := fun c head => (smaller.solid c head).1
    have comma : (chain (literal ",") [spaces]).Reads whole (", ".toList ++ later) (.text " ")
        later :=
      (reads_literal rfl (' ' :: later)).before
        (reads_spaces ' ' [] later (by decide) nofun stops)
    refine Answers.recursive (Reads.choice
      (reads_bigNumber many named smaller.lt (.number (Reads.choice ?_))))
    exact (Reads.choice comma).before (inside.inside (fewer text unit.toList ", ".toList later))
  | @and count power k n text last unit below many counted named group remains =>
    have smaller : n < 1000 ^ (power + 1) :=
      Nat.lt_of_lt_of_le group.lt (Nat.le_self_pow (Nat.succ_ne_zero power) 1000)
    obtain ⟨u, first⟩ := reads_mark whole (.inr rfl) ("and ".toList ++ last)
      (by rintro c ⟨⟩; decide)
    have solid := group.solid []
    rw [List.append_nil] at solid
    obtain ⟨v, second⟩ := reads_mark whole (.inr rfl) last solid
    have reads : (chain (upToThreeNines form) []).Reads whole last (.int n) [] :=
      (reads_lastGroup group).chain_nil
    have noComma : (chain (literal ",") [spaces]).Refuses whole (" and ".toList ++ last) :=
      Refuses.chain (refuses_literal_at rfl (by rintro c ⟨⟩; decide))
    refine Answers.recursive (Reads.choice
      (reads_bigNumber many named smaller (.number (Refuses.choice ?_ (Reads.choice ?_)))))
    · -- Without a comma the rule is tried at the *and*.
      refine Reads.before (Refuses.either noComma first) ?_
      exact Answers.inside (refuses_numberWords_and form (' ' :: last))
        (fewer text unit.toList [' '] _)
    · exact first.chain (Reads.chain (reads_literal rfl _) (second.chain reads))

/-- A whole text that gives a number in words is parsed to the number. -/
theorem parses_words {t : String} (number : NumberText form count t.toList n)
    (expected : String) :
    (((numberWords form).label expected).parseValue (.ofString t)).result = .ok (.int n) :=
  Reads.parseValue ((reads_numberWords number).label expected)

end Parser

/-- Every number below the fifteenth power of a thousand has a cardinal in words, and it is parsed
from each of its cardinals. -/
theorem cardinals_are_read (n : Nat) (small : n < 10 ^ 45) :
    NumberText .cardinal units.length (inWords .cardinal n).toList n ∧
      ∀ t : String, NumberText .cardinal units.length t.toList n →
        (Parser.cardinal.parseValue (.ofString t)).result = .ok (.int n) := by
  refine ⟨?_, fun t number => Parser.parses_words number "cardinal"⟩
  rw [inWords, String.toList_ofList]
  exact numberText_wordsOver .cardinal (Nat.le_refl _) small

/-- A number in the millions, with a comma, an *and* and a space in front of the hundred. -/
theorem cardinals_are_read_million :
    1_002_316 < 10 ^ 45 ∧
      (Parser.cardinal.parseValue
        (.ofString "one million, two thousand and three hundred sixteen")).result =
          .ok (.int 1_002_316) := by
  have small : 1_002_316 < 10 ^ 45 := by decide
  have one : GroupText .cardinal "one".toList 1 := .small (.word rfl)
  have two : GroupText .cardinal "two".toList 2 := .small (.word rfl)
  have sixteen : SmallText .cardinal "sixteen".toList 16 := .word rfl
  have last : GroupText .cardinal "three hundred sixteen".toList 316 :=
    .hundredAnd (k := 2) rfl (.inr rfl) (.inr rfl) sixteen (by decide)
  have thousands : NumberText .cardinal 1 "two thousand and three hundred sixteen".toList 2_316 :=
    .and Nat.zero_lt_one two (by decide) rfl last (by decide)
  have below : 1 < units.length := by decide
  have number : NumberText .cardinal units.length
      "one million, two thousand and three hundred sixteen".toList 1_002_316 :=
    .comma below one (by decide) rfl thousands (by decide)
  exact ⟨small, (cardinals_are_read 1_002_316 small).2 _ number⟩

/-- Every number below the fifteenth power of a thousand is parsed from its ordinal in words, and
from every other ordinal that it has. -/
theorem ordinals_are_read (n : Nat) (small : n < 10 ^ 45) :
    (Parser.ordinal.parseValue (.ofString (inWords .ordinal n))).result = .ok (.int n) ∧
      ∀ t : String, NumberText .ordinal units.length t.toList n →
        (Parser.ordinal.parseValue (.ofString t)).result = .ok (.int n) := by
  have number : NumberText .ordinal units.length (inWords .ordinal n).toList n := by
    rw [inWords, String.toList_ofList]
    exact numberText_wordsOver .ordinal (Nat.le_refl _) small
  exact ⟨Parser.parses_words number "ordinal", fun t number => Parser.parses_words number "ordinal"⟩

/-- An ordinal whose last word is a hundred, and one with an *and* and a space between its words. -/
theorem ordinals_are_read_thousands :
    66_200 < 10 ^ 45 ∧
      (Parser.ordinal.parseValue (.ofString "sixty-six thousand, two-hundredth")).result =
        .ok (.int 66_200) ∧
      66_081 < 10 ^ 45 ∧
      (Parser.ordinal.parseValue (.ofString "sixty-six thousand and eighty first")).result =
        .ok (.int 66_081) := by
  have inHundreds : 66_200 < 10 ^ 45 := by decide
  have inTens : 66_081 < 10 ^ 45 := by decide
  have words : inWords .ordinal 66_200 = "sixty-six thousand, two-hundredth" := by decide
  have sixty : Words.tens[4]? = some "sixty" := rfl
  have six : (onesOf .cardinal)[5]? = some "six" := rfl
  have eighty : Words.tens[6]? = some "eighty" := rfl
  have first : (onesOf .ordinal)[0]? = some "first" := rfl
  have many : GroupText .cardinal "sixty-six".toList 66 :=
    .small (.tensAndOnes sixty (.inl rfl) six)
  have last : GroupText .ordinal "eighty first".toList 81 :=
    .small (.tensAndOnes eighty (.inr rfl) first)
  have below : 0 < units.length := by decide
  have number : NumberText .ordinal units.length "sixty-six thousand and eighty first".toList
      66_081 :=
    .and below many (by decide) rfl last (by decide)
  rw [← words]
  exact ⟨inHundreds, (ordinals_are_read 66_200 inHundreds).1, inTens,
    (ordinals_are_read 66_081 inTens).2 _ number⟩

end Descent
