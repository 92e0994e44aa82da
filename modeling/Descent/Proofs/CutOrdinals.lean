import Descent.Proofs.GivingUp
import Descent.Proofs.Phrases
import Descent.Proofs.Unfinished

/-!
# Ordinals that are cut short

An ordinal asks for its suffix where no smaller part can be read, and the end of the input that was
met in the smaller part is forgotten. It waits as long as the text is cut within its first word,
within its first count and what is counted, or within the suffix behind that. Behind a count it
waits as well if what the count leaves is a beginning of a large unit. Everywhere else it decides:
it reads what is there as an ordinal, or it gives up. It gives up if it is cut within the *and*
behind its hundreds.
-/

namespace Descent

open Words

variable {whole : Array Char} {chars full b row gap run rest left name : List Char}
  {words : List String} {w one teen unit t : String} {v : Value} {p : Parser}

/-- A text ends within a break, a large unit and the suffix of an ordinal. -/
def UnitCut (rest : List Char) : Prop :=
  ∃ gap unit name, Break gap ∧ unit ∈ units ∧ Casing.folded.Spells unit.toList name ∧
    rest <+: gap ++ (name ++ "th".toList)

/-- A beginning of an ordinal is waited for: nothing but a beginning of the suffix comes behind a
count and what is counted, if they are there; or what a count leaves of it is a beginning of a large
unit and the suffix. -/
inductive Awaited (b : List Char) : Prop where
  | opening (short : ∀ lead part, Counted lead → b = lead ++ part → part <+: "th".toList)
  | counting {n : Int} {rest : List Char}
      (count : (Parser.upToThreeNines .cardinal).Reads b.toArray b (.int n) rest)
      (cut : UnitCut rest)

/-! ## Words that are cut -/

theorem EndsWord.cut (ends : EndsWord row) (begins : b <+: row) : EndsWord b :=
  fun c head => ends c (head?_cut begins c head)

/-- A beginning of a break is a break, unless nothing is there of it. -/
theorem Break.cut (between : Break gap) (begins : b <+: gap) (nonempty : b ≠ []) :
    Break b := by
  cases b with
  | nil => exact absurd rfl nonempty
  | cons c b =>
    cases between with
    | blanks first later =>
      obtain ⟨rfl, inside⟩ := List.cons_prefix_cons.mp begins
      exact .blanks first fun d member => later d (inside.subset member)
    | hyphen =>
      obtain ⟨rfl, inside⟩ := List.cons_prefix_cons.mp begins
      rw [List.prefix_nil.mp inside]
      exact .hyphen

/-- Of words none of which begins another, only one is there at the beginning of a text. -/
theorem Words.PrefixFree.run_unique {other : String} {taken : List Char} (free : PrefixFree words)
    (member : w ∈ words) (listed : other ∈ words) (spells : Casing.folded.Spells w.toList run)
    (same : Casing.folded.Spells other.toList taken) (begins : run <+: full)
    (starts : taken <+: full) : run = taken := by
  have one : w = other := by
    rcases List.prefix_or_prefix_of_prefix begins starts with ⟨more, rfl⟩ | ⟨more, rfl⟩
    · exact free w member other listed (spells.prefix_of_append same)
    · exact (free other listed w member (same.prefix_of_append spells)).symm
  subst one
  have length : run.length = taken.length := spells.length_eq.symm.trans same.length_eq
  rw [List.prefix_iff_eq_take.mp begins, List.prefix_iff_eq_take.mp starts, length]

namespace Parser

/-- A literal is read from a text that is cut behind it, or waited for. -/
theorem bides_literal_cut {wanted : String} (cut : b <+: wanted.toList ++ rest) :
    (literal wanted).Bides whole b fun _ left => left <+: rest := by
  have agrees : b <+: wanted.toList ∨ wanted.toList <+: b :=
    List.prefix_or_prefix_of_prefix cut (List.prefix_append _ _)
  have spells : Casing.exact.Spells (Casing.exact.target wanted).toList wanted.toList :=
    Casing.spells_exact_iff.mpr rfl
  refine ((settles_literal wanted .exact).mono ?_).failsOr (bides_literal spells agrees)
  rintro _ left ⟨taken, rfl, _, same⟩
  rw [Casing.spells_exact_iff.mp same] at cut
  exact (List.prefix_append_right_inj wanted.toList).mp cut

/-- A break is read as far as it is there, or waited for. -/
theorem bides_wordBreak_cut (between : Break gap) (stops : ∀ c ∈ rest.head?, blank c = false)
    (cut : b <+: gap ++ rest) : wordBreak.Bides whole b fun _ left => left <+: rest := by
  rcases prefix_append_cases cut with shorter | ⟨back, rfl, later⟩
  · by_cases nonempty : b = []
    · subst nonempty
      have noBlank : spaces.Refuses whole [] := refuses_spaces nofun
      have hyphen : (literal "-").Bides whole [] fun _ left => left <+: rest :=
        (bides_literal_cut List.nil_prefix).mono fun _ left nothing =>
          (List.prefix_nil.mp nothing) ▸ List.nil_prefix
      exact bides_either Built.spaces (Built.literal _ _) noBlank.settles hyphen.settles
        (.inr hyphen)
    · obtain ⟨v, reads⟩ : ∃ v, wordBreak.Reads whole (b ++ []) v [] :=
        reads_wordBreak (between.cut shorter nonempty) nofun
      rw [List.append_nil] at reads
      exact reads.failsOr List.nil_prefix
  · obtain ⟨v, reads⟩ : ∃ v, wordBreak.Reads whole (gap ++ back) v back :=
      reads_wordBreak between fun c head => stops c (head?_cut later c head)
    exact reads.failsOr later

/-- A word that begins no other one is read from a text that is cut behind it, or waited for. -/
theorem bides_word_cut (plain : Plain words) (free : PrefixFree words) (member : w ∈ words)
    (spells : Casing.folded.Spells w.toList run) (cut : b <+: run ++ rest) :
    (word words).Bides whole b fun v left =>
      ∃ taken, v = .text (String.ofList taken) ∧ (∃ n, place words (String.ofList taken) = .ok n) ∧
        left <+: rest := by
  have meets : Meets words b := meets_cut member spells (List.prefix_append run rest) cut
  refine (bides_word plain meets).mono ?_
  rintro _ left ⟨other, listed, taken, rfl, rfl, same⟩
  obtain rfl := free.run_unique member listed spells same (List.prefix_append run rest)
    ((List.prefix_append taken left).trans cut)
  exact ⟨run, rfl, place_spelled plain listed same, (List.prefix_append_right_inj run).mp cut⟩

/-! ## Ordinals that are cut -/

/-- The suffix is waited for, where there is no smaller part. -/
theorem bides_suffix {name : String} {post : Value → List Char → Prop}
    {next : Int → Script Parser} (cut : b <+: "th".toList)
    (others : ∀ left, (script name (next 0)).Bides whole left post) :
    (script name (smallerPart .ordinal .null >>= next)).Bides whole b post := by
  have suffix : (literal "th").Bides whole b fun _ left => left <+: [] :=
    bides_literal_cut (by rwa [List.append_nil])
  have rest : (script name (Script.parse (literal "th") >>= fun _ => next 0)).Bides whole b post :=
    suffix.script_parse fun _ left _ => others left
  exact rest

/-- No blank stands where the word for a large unit begins. -/
theorem unit_stops (known : unit ∈ units) (named : Casing.folded.Spells unit.toList name)
    (tail : List Char) : ∀ c ∈ (name ++ tail).head?, blank c = false :=
  fun c head => (lettered_units.solid known named tail c head).1

theorem head?_suffix (cut : b <+: "th".toList) : ∀ c ∈ b.head?, c = 't' := by
  intro c head
  exact (Option.some.inj (head?_cut cut c head)).symm

/-- An ordinal does not give up within a number of hundreds, nor within the suffix. -/
theorem bides_hundreds_cut (member : one ∈ ones) (spells : Casing.folded.Spells one.toList run)
    (between : Break gap) (cut : b <+: run ++ (gap ++ ("hundred".toList ++ "th".toList))) :
    (hundreds .ordinal).Bides whole b fun v _ => v.IsInt := by
  have plain : Plain ones := (lettered_onesOf .cardinal).plain
  have free : PrefixFree ones := by decide +kernel
  have count : (placedWord ones (· + 1)).Bides whole b fun v left =>
      ∃ n, v = .int n ∧ left <+: gap ++ ("hundred".toList ++ "th".toList) := by
    refine FailsOr.map ((bides_word_cut plain free member spells cut).mono ?_)
    rintro _ left ⟨taken, rfl, ⟨n, found⟩, later⟩
    simp only [found]
    exact ⟨_, rfl, _, rfl, later⟩
  refine count.script_int ?_
  rintro n _ later
  refine (bides_wordBreak_cut between (by rintro c ⟨⟩; decide) later).script_parse ?_
  rintro _ _ later
  refine (bides_literal_cut later).script_parse ?_
  rintro _ part later
  have rest : (behindHundred .ordinal).Bides whole part fun v left => v = .null ∧ left = part :=
    (reads_behindHundred .ordinal (refuses_wordBreak_suffix (head?_suffix later))).failsOr
      ⟨rfl, rfl⟩
  refine rest.script_parse ?_
  rintro _ _ ⟨rfl, rfl⟩
  exact bides_suffix later fun left => FailsOr.script_done _ ((reads_succeed _).failsOr ⟨_, rfl⟩)

/-- The same of a large unit, once the count of it does not give up. -/
theorem bides_bigNumber_cut {larger : Parser} (between : Break gap) (known : unit ∈ units)
    (named : Casing.folded.Spells unit.toList name)
    (count : (upToThreeNines .cardinal).Bides whole b fun v left =>
      ∃ n, v = .int n ∧ left <+: gap ++ (name ++ "th".toList)) :
    (bigNumber .ordinal larger).Bides whole b fun _ _ => True := by
  have free : PrefixFree units := by decide +kernel
  refine count.script_int ?_
  rintro n _ later
  refine (bides_wordBreak_cut between (unit_stops known named _) later).script_parse ?_
  rintro _ _ later
  have named : (word units).Bides whole _ fun v left => ∃ t, v = .text t ∧
      (∃ power, place units t = .ok power) ∧ left <+: "th".toList :=
    (bides_word_cut lettered_units.plain free known named later).mono
      fun _ _ ⟨_, value, found, later⟩ => ⟨_, value, found, later⟩
  refine named.script_text ?_
  rintro t part ⟨⟨power, found⟩, later⟩
  have rest : (satisfying (fitsBelow (Binary64.tenTo ((power + 1) * 3) : Nat))
      (behindUnit .ordinal larger)).Bides whole part fun v left => v = .null ∧ left = part :=
    ((reads_noSmaller .ordinal (head?_suffix later)).satisfying rfl).failsOr ⟨rfl, rfl⟩
  refine failsOr_check found (rest.script_parse ?_)
  rintro _ _ ⟨rfl, rfl⟩
  exact bides_suffix later fun left => FailsOr.script_done _ ((reads_succeed _).failsOr trivial)

/-- Neither of a large unit and a *hundred* begins the other. -/
theorem hundred_unlike_unit (known : unit ∈ units) (named : Casing.folded.Spells unit.toList name)
    (tail : List Char) :
    ¬ "hundred".toList <+: name ++ tail ∧ ¬ name ++ tail <+: "hundred".toList := by
  have unlike : Unlike ["hundred"] units := unlike_units _ List.mem_cons_self
  have itself : Casing.folded.Spells "hundred".toList "hundred".toList :=
    Casing.spells_lower (by decide)
  have shorter : ¬ name <+: "hundred".toList := by
    rintro ⟨more, same⟩
    have longer : Casing.folded.Spells "hundred".toList (name ++ more) := by rwa [same]
    exact unlike.2 unit known _ List.mem_cons_self (named.prefix_of_append longer)
  constructor
  · intro begins
    rcases List.prefix_or_prefix_of_prefix begins (List.prefix_append name tail) with
      ⟨more, rfl⟩ | within
    · exact unlike.1 _ List.mem_cons_self unit known (itself.prefix_of_append named)
    · exact shorter within
  · exact fun begins => shorter ((List.prefix_append name tail).trans begins)

/-- The count of a large unit is read, where what comes behind it is cut. -/
theorem reads_count_cut {n : Nat} (listed : teens[n]? = some teen)
    (spells : Casing.folded.Spells teen.toList run) (between : Break gap) (known : unit ∈ units)
    (named : Casing.folded.Spells unit.toList name) (cut : b <+: gap ++ (name ++ "th".toList)) :
    (upToThreeNines .cardinal).Reads whole (run ++ b) (.int n) b := by
  have lettered : Lettered teens := lettered_teensOf .cardinal
  have member := List.mem_of_getElem? listed
  have ends : EndsWord b := (between.endsWord _).cut cut
  have noHundred : wordBreak.Settles whole b fun _ left =>
      (literal "hundred").Refuses whole left := by
    have breaks : wordBreak.Bides whole b _ :=
      bides_wordBreak_cut between (unit_stops known named _) cut
    refine breaks.settles.mono fun _ left later => ?_
    exact refuses_literal fun begins => (hundred_unlike_unit known named _).1 (begins.trans later)
  have noHundreds : (hundreds .cardinal).Refuses whole (run ++ b) :=
    refuses_hundreds .cardinal (lettered.lower teen member) spells ends fun _ _ _ => noHundred
  have noTens : (word tens).Refuses whole (run ++ b) :=
    refuses_word_apart (lettered_tensOf .cardinal) apart_tens.1 member spells ends
  exact noHundreds.either (Refuses.either (noTens.script _)
    (reads_upToNineteen listed spells ends))

/-- The count is waited for, where it begins with no other one. -/
theorem bides_count_cut (member : teen ∈ teens) (spells : Casing.folded.Spells teen.toList run)
    (alone : ∀ other ∈ teens, other.toList <+: teen.toList → other = teen) (cut : b <+: run) :
    (upToThreeNines .cardinal).Bides whole b fun v left => ∃ n, v = .int n ∧ left = [] := by
  have lettered : Lettered teens := lettered_teensOf .cardinal
  have noTens : (tensAndOnes .cardinal).Refuses whole b := by
    refine Refuses.script _ (refuses_word (lettered_tensOf .cardinal).plain ?_)
    intro ten listed taken same begins
    obtain ⟨more, rfl⟩ := begins.trans cut
    exact apart_tens.1 ten listed teen member (same.prefix_of_append spells)
  have noHundreds : (hundreds .cardinal).Refuses whole b := by
    obtain ⟨more, rfl⟩ := cut
    obtain ⟨front, back, divided, first, _⟩ := spells.append_inv
    have lower : ∀ letter ∈ front, letter.isLower = true := fun letter inside =>
      lettered.lower teen member letter (divided ▸ List.mem_append_left back inside)
    have refuses : (hundreds .cardinal).Refuses whole (b ++ []) :=
      refuses_hundreds .cardinal lower first endsWord_nil fun _ _ _ =>
        Refuses.settles (refuses_wordBreak nofun)
    rwa [List.append_nil] at refuses
  have settles : (upToNineteen .cardinal).Settles whole b fun v left =>
      ∃ n, v = .int n ∧ left = [] := by
    refine (settles_placedWord lettered.plain id).mono ?_
    rintro _ left ⟨n, rfl, other, listed, taken, rfl, same⟩
    obtain ⟨more, rfl⟩ := cut
    rw [List.append_assoc] at spells
    obtain rfl := alone other listed (same.prefix_of_append spells)
    have length := spells.length_eq.symm.trans same.length_eq
    rw [List.length_append, List.length_append] at length
    exact ⟨n, rfl, List.length_eq_zero_iff.mp (by omega)⟩
  have bides : (upToNineteen .cardinal).Bides whole b fun v left =>
      ∃ n, v = .int n ∧ left = [] :=
    settles.failsOr (bides_upToNineteen ⟨teen, member, run, spells, .inl cut⟩)
  have small : (upToNinetyNine .cardinal).Bides whole b fun v left => ∃ n, v = .int n ∧ left = [] :=
    bides_either (Built.tensAndOnes _) (Built.upToNineteen _) noTens.settles settles (.inr bides)
  exact bides_either (Built.hundreds _) (Built.upToNinetyNine _) noHundreds.settles small.settles
    (.inr small)

/-- An ordinal that is cut before the end of its first count, or within the suffix there, is waited
for. -/
theorem bides_ordinal (accepted : (ordinal.parseValue (.ofString t)).result = .ok v)
    (cut : b <+: t.toList)
    (short : ∀ lead part, Counted lead → b = lead ++ part → part <+: "th".toList) :
    ordinal.Bides whole b fun v _ => v.IsInt := by
  obtain ⟨opening, opens, begins⟩ := opens accepted
  refine FailsOr.label "ordinal" (bides_numberWords ?_)
  cases opens with
  | word first member spells =>
    exact .inr (bides_upToThreeNines
      (.inr (bides_upToNinetyNine first (meets_cut member spells begins cut))))
  | counted counted =>
    have near : b <+: opening ++ "th".toList := by
      rcases List.prefix_or_prefix_of_prefix cut begins with shorter | ⟨part, rfl⟩
      · exact shorter.trans (List.prefix_append opening _)
      · exact (List.prefix_append_right_inj opening).mpr (short opening part counted rfl)
    cases counted with
    | hundred member spells between =>
      rw [List.append_assoc, List.append_assoc] at near
      exact .inr (bides_upToThreeNines (.inl (bides_hundreds_cut member spells between near)))
    | @unit teen unit run gap name member spells between known named =>
      rw [List.append_assoc, List.append_assoc] at near
      rcases prefix_append_cases near with within | ⟨back, rfl, later⟩
      · -- A count that begins with another one has the word for its ordinal behind it.
        have table : ∀ teen ∈ teens, teen ++ "th" ∈ ordinalTeens ∨
            ∀ other ∈ teens, other.toList <+: teen.toList → other = teen := by
          decide +kernel
        rcases table teen member with ordinal | alone
        · have ordinals : Lettered ordinalTeens := lettered_teensOf .ordinal
          have suffix : Casing.folded.Spells "th".toList "th".toList :=
            Casing.spells_lower (by decide)
          have spelled : Casing.folded.Spells (teen ++ "th").toList (run ++ "th".toList) := by
            rw [String.toList_append]
            exact spells.append suffix
          have meets : Meets ordinalTeens b :=
            ⟨_, ordinal, _, spelled, .inl (within.trans (List.prefix_append run _))⟩
          exact .inr (bides_upToThreeNines
            (.inr (bides_upToNinetyNine (by simp [firsts, teensOf]) meets)))
        · refine .inl fun larger => bides_bigNumber_cut between known named ?_
          refine (bides_count_cut member spells alone within).mono ?_
          rintro _ _ ⟨n, rfl, rfl⟩
          exact ⟨n, rfl, List.nil_prefix⟩
      · obtain ⟨n, listed⟩ := List.getElem?_of_mem member
        refine .inl fun larger => bides_bigNumber_cut between known named ?_
        exact (reads_count_cut listed spells between known named later).failsOr ⟨n, rfl, later⟩

/-! ## Ordinals that are given up -/

/-- No word begins as an *and* does. -/
theorem unlike_a : ∀ words ∈ units :: counting, ∀ w ∈ words,
    (w.toList.head?.any fun letter => !Casing.folded.takes letter 'a') = true := by
  decide +kernel

theorem givesUp_word_a (listed : words ∈ units :: counting) (rest : List Char) :
    (word words).GivesUp whole ('a' :: rest) := by
  have plain : Plain words := by
    rcases List.mem_cons.mp listed with rfl | listed
    · exact lettered_units.plain
    · exact (lettered_counting words listed).plain
  refine givesUp_word plain fun w member => ?_
  have other := unlike_a words listed w member
  cases letters : w.toList with
  | nil =>
    rw [letters] at other
    exact absurd other Bool.false_ne_true
  | cons letter others =>
    rw [letters] at other
    exact .here (by simpa using other)

/-- A part of an *and* begins with its first letter. -/
theorem and_begins (some : b ≠ []) (cut : b <+: "and".toList) : ∃ more, b = 'a' :: more := by
  cases b with
  | nil => exact absurd rfl some
  | cons c more =>
    obtain ⟨same, _⟩ : c = 'a' ∧ more <+: ['n', 'd'] := List.cons_prefix_cons.mp cut
    exact ⟨more, congrArg (· :: more) same⟩

/-- A break comes to its end at an *and*. -/
theorem reads_break_and (between : Break gap) (more : List Char) :
    ∃ v, wordBreak.Reads whole (gap ++ 'a' :: more) v ('a' :: more) :=
  reads_wordBreak between (by rintro c ⟨⟩; decide)

/-- No break comes behind a part of an *and*. -/
theorem refuses_and_cut (cut : b <+: "and".toList) :
    (chain (literal "and") [wordBreak]).Refuses whole b := by
  have nothing : (literal "and").Settles whole b fun _ left => left = [] := by
    refine (settles_literal "and" .exact).mono ?_
    rintro _ left ⟨taken, divided, _, same⟩
    rw [divided, Casing.spells_exact_iff.mp same] at cut
    have length : "and".toList.length + left.length ≤ "and".toList.length := by
      rw [← List.length_append]
      exact cut.length_le
    exact List.length_eq_zero_iff.mp (by omega)
  have none : (chain (literal "and") [wordBreak]).Settles whole b fun _ _ => False :=
    nothing.before fun _ left ended => ended ▸ Refuses.settles (refuses_wordBreak nofun)
  exact none.refuses fun _ _ => not_false

/-- Within an *and* behind a hundred there is no smaller part yet. -/
theorem reads_and_cut (form : NumberForm) (between : Break gap) (some : b ≠ [])
    (cut : b <+: "and".toList) :
    (behindHundred form).Reads whole (gap ++ b) .null (gap ++ b) := by
  obtain ⟨more, rfl⟩ := and_begins some cut
  obtain ⟨v, reads⟩ := reads_break_and between more
  have noSmall : (upToNinetyNine form).Refuses whole ('a' :: more) := by
    refine refuses_upToNinetyNine form fun words first => ?_
    have listed := firsts_counting form words first
    exact (givesUp_word_a (List.mem_cons_of_mem units listed) more).refuses
  refine Refuses.either (reads.chain ?_) (reads_succeed _)
  exact Reads.chain (refuses_and_cut cut).optional (Refuses.chain noSmall)

/-- A count with something behind it is no ordinal below a hundred. -/
theorem givesUp_upToNinetyNine_count (member : teen ∈ teens)
    (spells : Casing.folded.Spells teen.toList run) (apart : Break gap) (tail : List Char) :
    (upToNinetyNine .ordinal).GivesUp whole (run ++ (gap ++ tail)) := by
  have table : ∀ words ∈ firsts .ordinal, Apart words teens := by decide +kernel
  refine givesUp_upToNinetyNine fun words first => ?_
  have lettered : Lettered words := lettered_counting words (firsts_counting .ordinal words first)
  have ends := apart.endsWord tail
  have unlike : ∀ w ∈ words, ¬ w.toList <+: teen.toList :=
    fun w listed => table words first w listed teen member
  cases apart with
  | blanks => exact givesUp_word_run lettered spells ends unlike
  | hyphen => exact givesUp_word_run lettered spells ends unlike

section And

variable {between : List Char} (member : one ∈ ones)
  (spells : Casing.folded.Spells one.toList run) (apart : Break gap)

include member spells apart

/-- Behind hundreds and a part of an *and* comes no large unit. -/
theorem givesUp_bigNumber_and (joint : Break between) (some : b ≠ []) (cut : b <+: "and".toList)
    (larger : Parser) : (bigNumber .ordinal larger).GivesUp whole
      (run ++ (gap ++ ("hundred".toList ++ (between ++ b)))) := by
  obtain ⟨k, listed⟩ := List.getElem?_of_mem member
  have noPart : (behindHundred .cardinal).Reads whole (between ++ b) .null (between ++ b) :=
    reads_and_cut .cardinal joint some cut
  have count : (upToThreeNines .cardinal).Reads whole
      (run ++ (gap ++ ("hundred".toList ++ (between ++ b)))) (.int ((k + 1) * 100 + 0 : Nat))
      (between ++ b) :=
    Reads.choice (reads_hundreds listed spells apart (.nothing noPart))
  obtain ⟨more, rfl⟩ := and_begins some cut
  obtain ⟨v, reads⟩ := reads_break_and joint more
  exact count.script_fails (reads.script_fails
    ((givesUp_word_a List.mem_cons_self more).script _))

/-- Behind hundreds and a part of an *and* comes no suffix. -/
theorem givesUp_hundreds_and (joint : Break between) (some : b ≠ []) (cut : b <+: "and".toList) :
    (hundreds .ordinal).GivesUp whole (run ++ (gap ++ ("hundred".toList ++ (between ++ b)))) := by
  obtain ⟨k, listed⟩ := List.getElem?_of_mem member
  have count : (oneToNine .cardinal).Reads whole
      (run ++ (gap ++ ("hundred".toList ++ (between ++ b)))) (.int (k + 1 : Nat))
      (gap ++ ("hundred".toList ++ (between ++ b))) :=
    reads_oneToNine listed spells (apart.endsWord _)
  obtain ⟨v, reads⟩ := reads_break_hundred whole apart (between ++ b)
  have suffix : (literal "th").GivesUp whole (between ++ b) := by
    refine givesUp_literal ?_
    cases joint with
    | @blanks c others first _ =>
      exact .here (beq_eq_false_iff_ne.mpr (by rintro rfl; exact absurd first (by decide)))
    | hyphen => exact .here rfl
  exact count.script_fails (reads.script_fails ((reads_literal rfl _).script_fails
    ((reads_and_cut .ordinal joint some cut).script_fails (suffix.script _))))

/-- An ordinal is given up if it is cut within the *and* behind its hundreds. -/
theorem givesUp_ordinal_and (joint : Break between) (some : b ≠ []) (cut : b <+: "and".toList) :
    ordinal.GivesUp whole (run ++ (gap ++ ("hundred".toList ++ (between ++ b)))) := by
  refine Fails.label "ordinal" (givesUp_numberWords ?_ ?_ ?_)
  · exact givesUp_bigNumber_and member spells apart joint some cut
  · exact givesUp_hundreds_and member spells apart joint some cut
  · exact givesUp_upToNinetyNine_count (ones_subset member) spells apart _

end And

/-! ## Ordinals that are decided -/

/-- A smaller part is there, or the suffix is missed: a script that goes on with it decides. -/
theorem decides_part {name : String} {next : Int → Script Parser}
    {post : Value → List Char → Prop} (uncut : ¬ chars <+: "th".toList)
    (part : p.Decides whole chars fun v left => (v = .null ∧ left = chars) ∨ ∃ n, v = .int n)
    (others : ∀ n left, (script name (next n)).Decides whole left post) :
    (script name (Script.parse p >>= fun v => smallerPart .ordinal v >>= next)).Decides whole chars
      post := by
  refine part.script_parse ?_
  rintro _ left (⟨rfl, rfl⟩ | ⟨n, rfl⟩)
  · have suffix : (script name (Script.parse (literal "th") >>= fun _ => next 0)).Decides whole left
        post := (decides_exact uncut).script_parse fun _ later _ => others 0 later
    exact suffix
  · exact others n left

/-- Behind a hundred and something else than a beginning of the suffix hundreds are decided. -/
theorem decides_hundreds (member : one ∈ ones) (spells : Casing.folded.Spells one.toList run)
    (apart : Break gap) (uncut : ¬ rest <+: "th".toList) :
    (hundreds .ordinal).Decides whole (run ++ (gap ++ ("hundred".toList ++ rest)))
      fun _ _ => True := by
  obtain ⟨k, listed⟩ := List.getElem?_of_mem member
  have count : (oneToNine .cardinal).Decides whole (run ++ (gap ++ ("hundred".toList ++ rest)))
      fun v left => ∃ n, v = .int n ∧ left = gap ++ ("hundred".toList ++ rest) :=
    (reads_oneToNine listed spells (apart.endsWord _)).failsOr ⟨_, rfl, rfl⟩
  refine count.script_int ?_
  rintro n _ rfl
  obtain ⟨v, reads⟩ := reads_break_hundred whole apart rest
  have between : wordBreak.Decides whole (gap ++ ("hundred".toList ++ rest))
      fun _ left => left = "hundred".toList ++ rest := reads.failsOr rfl
  refine between.script_parse ?_
  rintro _ _ rfl
  have hundred : (literal "hundred").Decides whole ("hundred".toList ++ rest)
      fun _ left => left = rest := (reads_literal rfl rest).failsOr rfl
  refine hundred.script_parse ?_
  rintro _ rest rfl
  obtain ⟨w, left, smaller, found⟩ : ReadsPart .ordinal (behindHundred .ordinal) whole rest :=
    readsPart_behindHundred .ordinal
  refine decides_part uncut (smaller.failsOr (found.imp_right And.left)) fun n later => ?_
  exact FailsOr.script_done _ ((reads_succeed _).failsOr trivial)

/-- Where a count of a large unit comes there are no hundreds. -/
theorem givesUp_hundreds_unit (member : teen ∈ teens)
    (spells : Casing.folded.Spells teen.toList run) (between : Break gap) (known : unit ∈ units)
    (named : Casing.folded.Spells unit.toList name) (tail : List Char) :
    (hundreds .ordinal).GivesUp whole (run ++ (gap ++ (name ++ tail))) := by
  have lettered : Lettered ones := lettered_onesOf .cardinal
  have lower := (lettered_teensOf .cardinal).lower teen member
  have first : (word ones).Decides whole (run ++ (gap ++ (name ++ tail))) fun v left =>
      ∃ w ∈ ones, ∃ taken more, v = .text (String.ofList taken) ∧ run = taken ++ more ∧
        left = more ++ (gap ++ (name ++ tail)) ∧ Casing.folded.Spells w.toList taken :=
    (settles_word_run lettered spells (between.endsWord _)).failsOr
      (decides_word lettered fun w listed => between.uncut (lettered.lower w listed))
  have count : (placedWord ones (· + 1)).Decides whole (run ++ (gap ++ (name ++ tail)))
      fun v left => ∃ n, v = .int n ∧ ∃ taken more, run = taken ++ more ∧
        left = more ++ (gap ++ (name ++ tail)) := by
    refine FailsOr.map (first.mono ?_)
    rintro _ left ⟨w, listed, taken, more, rfl, divided, left, same⟩
    obtain ⟨n, found⟩ := place_spelled lettered.plain listed same
    simp only [found]
    exact ⟨_, rfl, _, rfl, taken, more, divided, left⟩
  have decides : (hundreds .ordinal).Decides whole (run ++ (gap ++ (name ++ tail)))
      fun _ _ => False := by
    refine count.script_int ?_
    rintro n _ ⟨taken, more, rfl, rfl⟩
    cases more with
    | nil =>
      obtain ⟨v, reads⟩ : ∃ v, wordBreak.Reads whole (gap ++ (name ++ tail)) v (name ++ tail) :=
        reads_wordBreak between (unit_stops known named tail)
      have hundred := hundred_unlike_unit known named tail
      have none : (literal "hundred").GivesUp whole (name ++ tail) :=
        (decides_exact hundred.2).fails (refuses_literal hundred.1)
      exact (reads.script_fails (none.script _)).failsOr
    | cons c more =>
      -- Within the letters there is no break.
      obtain ⟨front, back, divided, _, later⟩ := spells.append_inv
      have solid : blank c = false ∧ c ≠ '-' := by
        cases later with
        | cons stands _ => exact solid_of_takes (lower _ (by simp [divided])) stands
      have none : wordBreak.GivesUp whole (c :: (more ++ (gap ++ (name ++ tail)))) := by
        apply (decides_wordBreak c _).fails
        apply refuses_wordBreak
        rintro _ ⟨⟩
        exact solid
      exact (none.script _).failsOr
  exact decides.resolve_right nofun

/-- A count is read where a word below twenty comes with something behind it. -/
theorem reads_count (whole : Array Char) (member : teen ∈ teens)
    (spells : Casing.folded.Spells teen.toList run) (between : Break gap) (tail : List Char) :
    ∃ v left, (upToThreeNines .cardinal).Reads whole (run ++ (gap ++ tail)) v left ∧
      (∃ n, v = .int n) ∧ ∃ taken, run ++ (gap ++ tail) = taken ++ left := by
  obtain ⟨n, listed⟩ := List.getElem?_of_mem member
  have phrase {q : Parser} (settles : SettlesPhrase .cardinal q whole (run ++ (gap ++ tail))) :
      q.Settles whole (run ++ (gap ++ tail)) fun v left =>
        (∃ n, v = .int n) ∧ ∃ taken, run ++ (gap ++ tail) = taken ++ left :=
    settles.mono fun _ _ ⟨n, same, taken, divided, _⟩ => ⟨⟨n, same⟩, taken, divided⟩
  refine (phrase (settles_hundreds .cardinal)).orLater ?_
  have teens : (upToNineteen .cardinal).Reads whole (run ++ (gap ++ tail)) (.int n)
      (gap ++ tail) := reads_upToNineteen listed spells (between.endsWord tail)
  obtain ⟨v, left, reads, found⟩ :=
    (phrase (settles_tensAndOnes .cardinal)).orElse teens ⟨⟨n, rfl⟩, run, rfl⟩
  exact ⟨v, left, Reads.choice reads, found⟩

/-- Behind a count and something else than a beginning of a large unit with the suffix the number of
a large unit is decided. -/
theorem decides_bigNumber {larger : Parser}
    (inner : ∀ left, left.length < chars.length → SettlesPhrase .ordinal larger whole left)
    (count : (upToThreeNines .cardinal).Decides whole chars fun v left => ∃ n, v = .int n ∧
      left.length ≤ chars.length ∧ ¬ UnitCut left) :
    (bigNumber .ordinal larger).Decides whole chars fun _ _ => True := by
  refine count.script_int ?_
  rintro n rest ⟨fewer, uncut⟩
  have far {gap name : List Char} {unit : String} (between : Break gap) (known : unit ∈ units)
      (named : Casing.folded.Spells unit.toList name) : ¬ rest <+: gap ++ (name ++ "th".toList) :=
    fun cut => uncut ⟨gap, unit, name, between, known, named, cut⟩
  cases rest with
  | nil =>
    have thousand : "thousand" ∈ units := List.mem_cons_self
    exact absurd List.nil_prefix (far .hyphen thousand (lettered_units.spells thousand))
  | cons c rest =>
    refine (decides_wordBreak c rest).script_parse ?_
    rintro _ left ⟨gap, between, divided⟩
    rw [divided] at far fewer
    have word : (word units).Decides whole left fun v tail => ∃ t, v = .text t ∧
        (∃ power, place units t = .ok power) ∧ ∃ unit ∈ units, ∃ name, left = name ++ tail ∧
          Casing.folded.Spells unit.toList name := by
      refine FailsOr.mono (decides_word lettered_units ?_) ?_
      · rintro unit known ⟨name, named, begins⟩
        refine far between known named ((List.prefix_append_right_inj gap).mpr ?_)
        exact begins.trans (List.prefix_append name _)
      · rintro _ tail ⟨unit, known, name, divided, rfl, named⟩
        exact ⟨_, rfl, place_spelled lettered_units.plain known named, unit, known, name, divided,
          named⟩
    refine word.script_text ?_
    rintro t tail ⟨⟨power, found⟩, unit, known, name, rfl, named⟩
    have uncut : ¬ tail <+: "th".toList := by
      intro begins
      refine far between known named ((List.prefix_append_right_inj gap).mpr ?_)
      exact (List.prefix_append_right_inj name).mpr begins
    have shorter : tail.length < (gap ++ (name ++ tail)).length :=
      (Gap.plain between).shorter_behind [] name tail
    obtain ⟨v, later, reads, part⟩ : ReadsPart .ordinal (behindUnit .ordinal larger) whole tail :=
      readsPart_behindUnit .ordinal fun left less => inner left (by omega)
    obtain ⟨passed, tested⟩ := fitsBelow_part (Binary64.tenTo ((power + 1) * 3) : Nat)
      (part.imp And.left And.left)
    refine failsOr_check found (decides_part uncut
      (decides_satisfying reads tested (part.imp_right And.left)) fun n later => ?_)
    exact FailsOr.script_done _ ((reads_succeed _).failsOr trivial)

/-- Behind a count an ordinal is decided where hundreds are, and where the count leaves something
else than a beginning of a large unit. -/
theorem decides_counted {tail : List Char} (member : teen ∈ teens)
    (spells : Casing.folded.Spells teen.toList run) (between : Break gap)
    (hundred : (hundreds .ordinal).Decides whole (run ++ (gap ++ tail)) fun _ _ => True)
    (uncut : ∀ n left, (upToThreeNines .cardinal).Reads whole (run ++ (gap ++ tail)) (.int n) left →
      ¬ UnitCut left) :
    ordinal.Decides whole (run ++ (gap ++ tail)) fun _ _ => True := by
  obtain ⟨_, left, reads, ⟨n, rfl⟩, taken, divided⟩ :=
    reads_count whole member spells between tail
  have fewer : left.length ≤ (run ++ (gap ++ tail)).length := by
    rw [divided, List.length_append]
    exact Nat.le_add_left _ _
  have count : (upToThreeNines .cardinal).Decides whole (run ++ (gap ++ tail)) fun v left =>
      ∃ n, v = .int n ∧ left.length ≤ (run ++ (gap ++ tail)).length ∧ ¬ UnitCut left :=
    reads.failsOr ⟨n, rfl, fewer, uncut n left reads⟩
  have inner : ∀ later : List Char, later.length < (run ++ (gap ++ tail)).length →
      SettlesPhrase .ordinal
        (Parser.within (numberWordsOver .ordinal) (run ++ (gap ++ tail)).length) whole later :=
    fun _ shorter => Settles.inside (settles_numberWords .ordinal) shorter
  have small : (upToNinetyNine .ordinal).Decides whole (run ++ (gap ++ tail)) fun _ _ => True :=
    (givesUp_upToNinetyNine_count member spells between tail).failsOr
  exact FailsOr.label "ordinal" (FailsOr.recursive
    (decides_either (decides_bigNumber inner count) (decides_either hundred small)))

/-- An ordinal that is not awaited is decided. -/
theorem decides_ordinal (decided : ¬ Awaited b) :
    ordinal.Decides b.toArray b fun _ _ => True := by
  have opened : ¬ ∀ lead part, Counted lead → b = lead ++ part → part <+: "th".toList :=
    fun short => decided (.opening short)
  have uncut : ∀ n rest, (upToThreeNines .cardinal).Reads b.toArray b (.int n) rest →
      ¬ UnitCut rest := fun n rest count cut => decided (.counting count cut)
  simp only [Classical.not_forall] at opened
  obtain ⟨lead, part, counted, rfl, beyond⟩ := opened
  cases counted with
  | hundred member spells between =>
    simp only [List.append_assoc] at uncut ⊢
    exact decides_counted (ones_subset member) spells between
      (decides_hundreds member spells between beyond) uncut
  | unit member spells between known named =>
    simp only [List.append_assoc] at uncut ⊢
    exact decides_counted member spells between
      (givesUp_hundreds_unit member spells between known named part).failsOr uncut

/-- An ordinal that is awaited does not give up. -/
theorem bides_awaited (awaited : Awaited b)
    (accepted : (ordinal.parseValue (.ofString t)).result = .ok v) (cut : b <+: t.toList) :
    ordinal.Bides b.toArray b fun v _ => v.IsInt := by
  cases awaited with
  | opening short => exact bides_ordinal accepted cut short
  | counting count cut =>
    obtain ⟨gap, unit, name, between, known, named, cut⟩ := cut
    refine FailsOr.label "ordinal" (bides_numberWords (.inl fun larger => ?_))
    exact bides_bigNumber_cut between known named (count.failsOr ⟨_, rfl, cut⟩)

end Parser
end Descent
