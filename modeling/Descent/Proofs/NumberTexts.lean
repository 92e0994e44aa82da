import Descent.Proofs.Wording

/-!
# Numbers in words

The words of a number are given by a grammar. A large unit stands behind the number of how many of
it there are, and in front of a smaller part, if there is one. An ordinal differs from a cardinal
at its end only: there it has another word, or a suffix to a hundred or a large unit. A number has
several texts, since there may be a hyphen or a space, a comma or an *and*; one of them is made for
every number.

A number below a thousand has no large unit anywhere in its words, and a number below a hundred goes
on with nothing where its first word is one below ten.
-/

namespace Descent

namespace Words

/-- The words up to nine that may end a number of a form. -/
def onesOf : NumberForm → List String
  | .cardinal => ones
  | .ordinal => ordinalOnes

/-- The words up to nineteen that may end a number of a form. -/
def teensOf : NumberForm → List String
  | .cardinal => teens
  | .ordinal => ordinalTeens

/-- The words for tens that may end a number of a form. -/
def tensOf : NumberForm → List String
  | .cardinal => tens
  | .ordinal => ordinalTens

/-- What a number of a form adds to a hundred or a large unit at its end. -/
def endingOf : NumberForm → List Char
  | .cardinal => []
  | .ordinal => ['t', 'h']

end Words

/-! ## The grammar of number words -/

open Words

/-- A number below a hundred in words. -/
inductive SmallText (form : NumberForm) : List Char → Nat → Prop where
  | word {w : String} {n : Nat} (listed : (teensOf form)[n]? = some w) :
      SmallText form w.toList n
  | tens {w : String} {k : Nat} (listed : (tensOf form)[k]? = some w) :
      SmallText form w.toList ((k + 2) * 10)
  | tensAndOnes {ten one : String} {k n : Nat} {mark : Char}
      (tens : Words.tens[k]? = some ten) (marked : mark = '-' ∨ mark = ' ')
      (ones : (onesOf form)[n]? = some one) :
      SmallText form (ten.toList ++ mark :: one.toList) ((k + 2) * 10 + (n + 1))

/-- A number below a thousand in words. -/
inductive GroupText (form : NumberForm) : List Char → Nat → Prop where
  | small {text : List Char} {n : Nat} (small : SmallText form text n) : GroupText form text n
  | hundred {one : String} {k : Nat} {mark : Char} (ones : Words.ones[k]? = some one)
      (marked : mark = '-' ∨ mark = ' ') :
      GroupText form (one.toList ++ mark :: ("hundred".toList ++ endingOf form)) ((k + 1) * 100)
  | hundredAnd {one : String} {text between : List Char} {k n : Nat} {mark : Char}
      (ones : Words.ones[k]? = some one) (marked : mark = '-' ∨ mark = ' ')
      (joint : between = " and ".toList ∨ between = " ".toList) (small : SmallText form text n)
      (remains : 0 < n) :
      GroupText form (one.toList ++ mark :: ("hundred".toList ++ (between ++ text)))
        ((k + 1) * 100 + n)

/-- A number in words in which the first so many large units may occur, each with a smaller part
behind it. -/
inductive NumberText (form : NumberForm) : Nat → List Char → Nat → Prop where
  | group {count : Nat} {text : List Char} {n : Nat} (group : GroupText form text n) :
      NumberText form count text n
  | unit {count power k : Nat} {text : List Char} {unit : String} (below : power < count)
      (many : GroupText .cardinal text k) (counted : 0 < k) (named : units[power]? = some unit) :
      NumberText form count (text ++ ' ' :: (unit.toList ++ endingOf form))
        (k * 1000 ^ (power + 1))
  | comma {count power k n : Nat} {text later : List Char} {unit : String} (below : power < count)
      (many : GroupText .cardinal text k) (counted : 0 < k) (named : units[power]? = some unit)
      (smaller : NumberText form power later n) (remains : 0 < n) :
      NumberText form count (text ++ ' ' :: (unit.toList ++ (", ".toList ++ later)))
        (k * 1000 ^ (power + 1) + n)
  | and {count power k n : Nat} {text last : List Char} {unit : String} (below : power < count)
      (many : GroupText .cardinal text k) (counted : 0 < k) (named : units[power]? = some unit)
      (group : GroupText form last n) (remains : 0 < n) :
      NumberText form count (text ++ ' ' :: (unit.toList ++ (" and ".toList ++ last)))
        (k * 1000 ^ (power + 1) + n)

namespace Words

/-! ## Number words of every number -/

/-- The words of a number below a hundred. -/
def smallWords (form : NumberForm) (n : Nat) : List Char :=
  if n < 20 then ((teensOf form).getD n "").toList
  else if n % 10 = 0 then ((tensOf form).getD (n / 10 - 2) "").toList
  else (tens.getD (n / 10 - 2) "").toList ++ '-' :: ((onesOf form).getD (n % 10 - 1) "").toList

/-- The words of a number below a thousand. -/
def groupWords (form : NumberForm) (n : Nat) : List Char :=
  if n < 100 then smallWords form n
  else
    (ones.getD (n / 100 - 1) "").toList ++ '-' :: ("hundred".toList ++
      if n % 100 = 0 then endingOf form else " and ".toList ++ smallWords form (n % 100))

/-- The words of a number that so many large units are enough for. -/
def wordsOver (form : NumberForm) : Nat → Nat → List Char
  | 0, n => groupWords form n
  | power + 1, n =>
    let many := n / 1000 ^ (power + 1)
    let rest := n % 1000 ^ (power + 1)
    if many = 0 then wordsOver form power n
    else
      groupWords .cardinal many ++ ' ' :: ((units.getD power "").toList ++
        if rest = 0 then endingOf form else ", ".toList ++ wordsOver form power rest)

/-- A number in words, with hyphens and commas and with an *and* behind a hundred. -/
def inWords (form : NumberForm) (n : Nat) : String :=
  String.ofList (wordsOver form units.length n)

example : inWords .ordinal 1_042_300 = "one million, forty-two thousand, three-hundredth" := by
  decide

end Words

variable {whole : Array Char} {form : NumberForm} {text rest : List Char} {n k count power : Nat}
  {words : List String} {w : String}

theorem listed_getD (inside : n < words.length) : words[n]? = some (words.getD n "") := by
  rw [List.getD_eq_getElem?_getD, List.getElem?_eq_getElem inside, Option.getD_some]

theorem length_teensOf (form : NumberForm) : (teensOf form).length = 20 := by
  cases form <;> rfl

theorem length_tensOf (form : NumberForm) : (tensOf form).length = 8 := by
  cases form <;> rfl

theorem length_onesOf (form : NumberForm) : (onesOf form).length = 9 := by
  cases form <;> rfl

theorem smallText_smallWords (form : NumberForm) (small : n < 100) :
    SmallText form (smallWords form n) n := by
  have inTens : n / 10 - 2 < 8 := by omega
  unfold smallWords
  split
  next below => exact .word (listed_getD (by rwa [length_teensOf]))
  next atLeast =>
    split
    next even =>
      have value : (n / 10 - 2 + 2) * 10 = n := by omega
      have tens := SmallText.tens (listed_getD (length_tensOf form ▸ inTens))
      rwa [value] at tens
    next odd =>
      have value : (n / 10 - 2 + 2) * 10 + (n % 10 - 1 + 1) = n := by omega
      have inOnes : n % 10 - 1 < 9 := by omega
      have ten : tens[n / 10 - 2]? = some _ := listed_getD inTens
      have one : (onesOf form)[n % 10 - 1]? = some _ := listed_getD (length_onesOf form ▸ inOnes)
      have both : SmallText form _ _ := .tensAndOnes ten (.inl rfl) one
      rwa [value] at both

theorem groupText_groupWords (form : NumberForm) (small : n < 1000) :
    GroupText form (groupWords form n) n := by
  have inOnes : n / 100 - 1 < 9 := by omega
  unfold groupWords
  split
  next below => exact .small (smallText_smallWords form below)
  next atLeast =>
    have listed : ones[n / 100 - 1]? = some _ := listed_getD inOnes
    split
    next even =>
      have value : (n / 100 - 1 + 1) * 100 = n := by omega
      have hundred : GroupText form _ _ := .hundred listed (.inl rfl)
      rwa [value] at hundred
    next odd =>
      have value : (n / 100 - 1 + 1) * 100 + n % 100 = n := by omega
      have both := GroupText.hundredAnd listed (.inl rfl) (.inl rfl)
        (smallText_smallWords form (Nat.mod_lt n (by decide))) (by omega)
      rwa [value] at both

/-- More large units may be allowed. -/
theorem NumberText.mono (number : NumberText form count text n) {more : Nat}
    (fewer : count ≤ more) : NumberText form more text n := by
  cases number with
  | group group => exact .group group
  | unit below many counted named => exact .unit (by omega) many counted named
  | comma below many counted named smaller remains =>
    exact .comma (by omega) many counted named smaller remains
  | and below many counted named group remains =>
    exact .and (by omega) many counted named group remains

/-- Every number below the power of a thousand that comes behind so many large units has words. -/
theorem numberText_wordsOver (form : NumberForm) (known : count ≤ units.length)
    (small : n < 1000 ^ (count + 1)) : NumberText form count (wordsOver form count n) n := by
  induction count generalizing n with
  | zero => exact .group (groupText_groupWords form (by simpa using small))
  | succ power inductionHypothesis =>
    have fewer : power ≤ units.length := by omega
    have positive : 0 < 1000 ^ (power + 1) := Nat.pow_pos (by decide)
    rw [wordsOver]
    split
    next none =>
      have below : n < 1000 ^ (power + 1) := (Nat.div_eq_zero_iff_lt positive).mp none
      exact (inductionHypothesis fewer below).mono (by omega)
    next occurs =>
      have value : n / 1000 ^ (power + 1) * 1000 ^ (power + 1) + n % 1000 ^ (power + 1) = n := by
        rw [Nat.mul_comm, Nat.div_add_mod]
      have many : GroupText .cardinal (groupWords .cardinal (n / 1000 ^ (power + 1)))
          (n / 1000 ^ (power + 1)) := by
        refine groupText_groupWords .cardinal (Nat.div_lt_of_lt_mul ?_)
        rwa [← Nat.pow_succ]
      have named : units[power]? = some (units.getD power "") := listed_getD known
      split
      next even =>
        have unit : NumberText form (power + 1) _ _ :=
          .unit (Nat.lt_succ_self power) many (Nat.pos_of_ne_zero occurs) named
        rw [even, Nat.add_zero] at value
        rwa [value] at unit
      next odd =>
        have below : n % 1000 ^ (power + 1) < 1000 ^ (power + 1) := Nat.mod_lt n positive
        have both := NumberText.comma (Nat.lt_succ_self power) many (Nat.pos_of_ne_zero occurs)
          named (inductionHypothesis fewer below) (Nat.pos_of_ne_zero odd)
        rwa [value] at both

/-! ## Sizes -/

theorem SmallText.lt (small : SmallText form text n) : n < 100 := by
  cases small with
  | word listed =>
    have inside := (List.getElem?_eq_some_iff.mp listed).1
    rw [length_teensOf] at inside
    omega
  | tens listed =>
    have inside := (List.getElem?_eq_some_iff.mp listed).1
    rw [length_tensOf] at inside
    omega
  | tensAndOnes ten _ one =>
    have inTens : _ < 8 := (List.getElem?_eq_some_iff.mp ten).1
    have inOnes := (List.getElem?_eq_some_iff.mp one).1
    rw [length_onesOf] at inOnes
    omega

theorem GroupText.lt (group : GroupText form text n) : n < 1000 := by
  cases group with
  | small small => exact Nat.lt_trans small.lt (by decide)
  | hundred one =>
    have inOnes : _ < 9 := (List.getElem?_eq_some_iff.mp one).1
    omega
  | hundredAnd one _ _ small =>
    have inOnes : _ < 9 := (List.getElem?_eq_some_iff.mp one).1
    have below := small.lt
    omega

/-- A number is below the power of a thousand that comes behind its large units. -/
theorem NumberText.lt (number : NumberText form count text n) : n < 1000 ^ (count + 1) := by
  have wider {power count : Nat} (below : power < count) :
      1000 ^ (power + 2) ≤ 1000 ^ (count + 1) := Nat.pow_le_pow_right (by decide) (by omega)
  -- So many of a unit and something smaller than the unit are less than a thousand of it.
  have room {k power rest : Nat} (many : k < 1000) (smaller : rest < 1000 ^ (power + 1)) :
      k * 1000 ^ (power + 1) + rest < 1000 ^ (power + 2) := by
    calc k * 1000 ^ (power + 1) + rest < (k + 1) * 1000 ^ (power + 1) := by
          rw [Nat.succ_mul]
          omega
      _ ≤ 1000 * 1000 ^ (power + 1) := Nat.mul_le_mul_right _ many
      _ = 1000 ^ (power + 2) := (Nat.pow_succ').symm
  have thousand (power : Nat) : 1000 ≤ 1000 ^ (power + 1) :=
    Nat.le_self_pow (Nat.succ_ne_zero power) 1000
  induction number with
  | group group => exact Nat.lt_of_lt_of_le group.lt (thousand _)
  | unit below many =>
    exact Nat.lt_of_lt_of_le (room many.lt (Nat.pow_pos (by decide))) (wider below)
  | comma below many _ _ _ _ smaller =>
    exact Nat.lt_of_lt_of_le (room many.lt smaller) (wider below)
  | and below many _ _ group =>
    exact Nat.lt_of_lt_of_le (room many.lt (Nat.lt_of_lt_of_le group.lt (thousand _))) (wider below)

/-! ## Words that come where others are tried -/

namespace Words

/-- All lists of words but that of the large units. -/
def counting : List (List String) := [ones, teens, tens, ordinalOnes, ordinalTeens, ordinalTens]

/-- The lists with the words that numbers below a hundred of a form begin with. -/
def firsts (form : NumberForm) : List (List String) := [tens, tensOf form, teensOf form]

/-- All these words of both forms. -/
def starters : List String := teens ++ tens ++ ordinalTeens ++ ordinalTens

theorem lettered_counting : ∀ words ∈ counting, Lettered words := by
  intro words listed
  refine lettered_lists words ?_
  revert words
  decide

theorem firsts_counting (form : NumberForm) : ∀ words ∈ firsts form, words ∈ counting := by
  cases form <;> decide

theorem lettered_onesOf (form : NumberForm) : Lettered (onesOf form) := by
  cases form <;> exact lettered_counting _ (by decide)

theorem lettered_teensOf (form : NumberForm) : Lettered (teensOf form) := by
  cases form <;> exact lettered_counting _ (by decide)

theorem lettered_tensOf (form : NumberForm) : Lettered (tensOf form) := by
  cases form <;> exact lettered_counting _ (by decide)

theorem lettered_units : Lettered units := lettered_lists _ (by decide)

theorem lettered_starters : Lettered starters := by
  have plain : Plain starters := by decide +kernel
  have lower : ∀ w ∈ starters, w.toList.all Char.isLower = true := by decide +kernel
  exact ⟨plain, fun w member => List.all_eq_true.mp (lower w member), by decide +kernel⟩

/-- No other word looks like a large unit. -/
theorem unlike_units : ∀ words ∈ ["hundred"] :: ["and"] :: counting, Unlike words units := by
  decide +kernel

/-- No word looks like an *and*. -/
theorem unlike_and : ∀ words ∈ counting, Unlike words ["and"] := by
  decide +kernel

theorem and_unlike : Unlike ["and"] starters := by
  decide +kernel

/-- A word for tens begins no other word, and an ordinal one none that is tried after it. -/
theorem apart_tens : Apart tens teens ∧ Apart tens ordinalTeens ∧ Apart tens ordinalTens ∧
    Apart ordinalTens ordinalTeens := by
  decide +kernel

end Words

/-- A number below a thousand is at the end of the text or in front of a large unit. -/
inductive AfterGroup : List Char → Prop where
  | ended : AfterGroup []
  | unit {unit : String} (known : unit ∈ units) (more : List Char) :
      AfterGroup (' ' :: (unit.toList ++ more))

theorem AfterGroup.endsWord (after : AfterGroup rest) : EndsWord rest := by
  cases after with
  | ended => exact endsWord_nil
  | unit known more => exact endsWord_mark (by decide) _

/-- A number below a hundred begins with a word. If that is one below ten then it is all. -/
theorem SmallText.starts (small : SmallText form text n) (ends : EndsWord rest) :
    ∃ w ∈ starters, ∃ more, text = w.toList ++ more ∧ EndsWord (more ++ rest) ∧
      (w ∈ ones → more = []) := by
  cases small with
  | word listed =>
    refine ⟨_, ?_, [], (List.append_nil _).symm, ends, fun _ => rfl⟩
    have member := List.mem_of_getElem? listed
    cases form <;> simp_all [starters, teensOf]
  | tens listed =>
    refine ⟨_, ?_, [], (List.append_nil _).symm, ends, fun _ => rfl⟩
    have member := List.mem_of_getElem? listed
    cases form <;> simp_all [starters, tensOf]
  | @tensAndOnes ten one k n mark tens marked ones =>
    have member := List.mem_of_getElem? tens
    have apart : ∀ w ∈ Words.tens, w ∉ Words.ones := by decide
    refine ⟨ten, ?_, _, rfl, ?_, fun below => absurd below (apart ten member)⟩
    · simp_all [starters]
    · exact endsWord_mark (by rcases marked with rfl | rfl <;> decide) _

/-! ## Where no large unit is -/

/-- Nothing in a text stands for a large unit. -/
def NoUnit (text : List Char) : Prop :=
  ∀ unit ∈ units, ∀ taken, taken <:+: text → ¬ Casing.folded.Spells unit.toList taken

/-- What lies in one of two parts with a mark between them, or else has the mark in it. -/
theorem infix_of_marked {before after taken : List Char} {mark : Char} (other : mark ∉ taken)
    (inside : taken <:+: before ++ mark :: after) : taken <:+: before ∨ taken <:+: after := by
  -- What begins at the mark is nothing.
  have atMark {part : List Char} (noMark : mark ∉ part) (begins : part <+: mark :: after) :
      part = [] := by
    cases part with
    | nil => rfl
    | cons c part =>
      obtain ⟨rfl, _⟩ := List.cons_prefix_cons.mp begins
      exact absurd List.mem_cons_self noMark
  rcases List.infix_append_iff.mp inside with first | second | ⟨front, back, rfl, ends, begins⟩
  · exact .inl first
  · rcases List.infix_cons_iff.mp second with begins | later
    · rw [atMark other begins]
      exact .inl List.nil_infix
    · exact .inr later
  · have nothing := atMark (fun member => other (List.mem_append_right front member)) begins
    rw [nothing, List.append_nil]
    exact .inl ends.isInfix

theorem NoUnit.marked {before after : List Char} {mark : Char} (first : NoUnit before)
    (second : NoUnit after) (marked : mark = '-' ∨ mark = ' ') :
    NoUnit (before ++ mark :: after) := by
  intro unit known taken inside spells
  have other : mark ∉ taken := by
    intro member
    obtain ⟨front, back, rfl⟩ := List.append_of_mem member
    obtain ⟨letters, wanted, same, _, later⟩ := spells.append_inv
    cases later with
    | @cons letter _ _ _ stands _ =>
      have lower := lettered_units.lower unit known letter (by rw [same]; simp)
      obtain ⟨noBlank, noHyphen⟩ := solid_of_takes lower stands
      rcases marked with rfl | rfl
      · exact noHyphen rfl
      · exact absurd noBlank (by decide)
  rcases infix_of_marked other inside with inFirst | inSecond
  · exact first unit known taken inFirst spells
  · exact second unit known taken inSecond spells

/-- The words of numbers below a thousand have no large unit in them. -/
theorem noUnit_words : ∀ words ∈ ["hundred", "hundredth", "and"] :: counting, ∀ w ∈ words,
    NoUnit w.toList := by
  have table : ∀ words ∈ ["hundred", "hundredth", "and"] :: counting, ∀ w ∈ words,
      w.toList.all Char.isLower = true ∧ ∀ unit ∈ units, ¬ unit.toList <:+: w.toList := by
    decide +kernel
  intro words listed w member unit known taken inside spells
  obtain ⟨lower, apart⟩ := table words listed w member
  have itself : Casing.folded.Spells taken taken :=
    Casing.spells_lower (List.all_eq_true.mpr fun letter within =>
      List.all_eq_true.mp lower letter (inside.subset within))
  have same : unit.toList = taken := spells.folded_unique itself
  exact apart unit known (same ▸ inside)

theorem SmallText.noUnit (small : SmallText form text n) : NoUnit text := by
  have word {words : List String} {w : String} {n : Nat} (listed : words ∈ counting)
      (member : words[n]? = some w) : NoUnit w.toList :=
    noUnit_words words (List.mem_cons_of_mem _ listed) w (List.mem_of_getElem? member)
  cases small with
  | word listed => exact word (by cases form <;> decide) listed
  | tens listed => exact word (by cases form <;> decide) listed
  | tensAndOnes tens marked ones =>
    exact (word (by decide) tens).marked (word (by cases form <;> decide) ones) marked

theorem GroupText.noUnit (group : GroupText form text n) : NoUnit text := by
  have one {w : String} {k : Nat} (member : ones[k]? = some w) : NoUnit w.toList :=
    noUnit_words ones (by decide) w (List.mem_of_getElem? member)
  have other (w : String) (listed : w ∈ ["hundred", "hundredth", "and"]) : NoUnit w.toList :=
    noUnit_words _ List.mem_cons_self w listed
  cases group with
  | small small => exact small.noUnit
  | hundred listed marked =>
    refine (one listed).marked ?_ marked
    cases form with
    | cardinal => exact other "hundred" (by decide)
    | ordinal => exact other "hundredth" (by decide)
  | hundredAnd listed marked joint small =>
    refine (one listed).marked ?_ marked
    rcases joint with rfl | rfl
    · exact (other "hundred" (by decide)).marked
        ((other "and" (by decide)).marked small.noUnit (.inr rfl)) (.inr rfl)
    · exact (other "hundred" (by decide)).marked small.noUnit (.inr rfl)

/-- No number begins with a blank or a hyphen. -/
theorem GroupText.solid (group : GroupText form text n) (rest : List Char) :
    ∀ c ∈ (text ++ rest).head?, blank c = false ∧ c ≠ '-' := by
  cases group with
  | small small =>
    obtain ⟨w, member, more, rfl, -, -⟩ := small.starts endsWord_nil
    rw [List.append_assoc]
    exact lettered_starters.solid member (lettered_starters.spells member) _
  | hundred listed marked =>
    have member := List.mem_of_getElem? listed
    rw [List.append_assoc]
    exact (lettered_onesOf .cardinal).solid member ((lettered_onesOf .cardinal).spells member) _
  | hundredAnd listed marked joint small =>
    have member := List.mem_of_getElem? listed
    rw [List.append_assoc]
    exact (lettered_onesOf .cardinal).solid member ((lettered_onesOf .cardinal).spells member) _

theorem NumberText.solid (number : NumberText form count text n) :
    ∀ c ∈ text.head?, blank c = false ∧ c ≠ '-' := by
  cases number with
  | group group =>
    have solid := group.solid []
    rwa [List.append_nil] at solid
  | unit below many => exact many.solid _
  | comma below many => exact many.solid _
  | and below many => exact many.solid _

end Descent
