import Descent.Proofs.Wording

/-!
# Numerals with a suffix, strictly and loosely

Two parsers read a numeral with the suffix of an ordinal. The strict one asks for a suffix that
belongs to the number; the loose one takes any of four suffixes behind a whole number with or
without a sign. After numbers in two and three the strict one also takes a `d` alone, which is none
of the four. On all other texts that the strict parser accepts the two agree.
-/

namespace Descent

namespace Words

/-- The suffixes in full, of two letters each. -/
def fullSuffixes : List String := ["th", "st", "nd", "rd"]

/-- The suffixes that belong to a number. -/
def suffixesOf (n : Int) : List String :=
  if n % 100 = 11 ∨ n % 100 = 12 ∨ n % 100 = 13 then ["th"]
  else if n % 10 = 1 then ["st"]
  else if n % 10 = 2 then ["nd", "d"]
  else if n % 10 = 3 then ["rd", "d"]
  else ["th"]

/-- What belongs to a number is a suffix in full, or a `d` alone. -/
theorem suffixesOf_known {n : Int} {suffix : String} (belongs : suffix ∈ suffixesOf n) :
    suffix ∈ fullSuffixes ∨ suffix = "d" := by
  have all : ∀ choices ∈ [["th"], ["st"], ["nd", "d"], ["rd", "d"]], ∀ suffix ∈ choices,
      suffix ∈ fullSuffixes ∨ suffix = "d" := by
    decide
  unfold suffixesOf at belongs
  split_ifs at belongs <;> exact all _ (by decide) suffix belongs

/-- No suffix begins with a digit. -/
theorem endsWhole_suffix {suffix : String} (known : suffix ∈ fullSuffixes ∨ suffix = "d")
    (rest : List Char) : EndsWhole (suffix.toList ++ rest) := by
  have letters : ∀ suffix ∈ "d" :: fullSuffixes, ∃ c others, suffix.toList = c :: others ∧
      c.isDigit = false := by
    simp [fullSuffixes]
  obtain ⟨c, others, spelled, letter⟩ := letters suffix (List.mem_cons.mpr known.symm)
  rw [spelled]
  rintro d ⟨⟩
  exact letter

end Words

/-- A numeral whose suffix is a `d` alone. -/
def Contracted (text : List Char) : Prop := ∃ row, Digits row ∧ text = row ++ ['d']

variable {whole : Array Char} {chars rest row : List Char} {option wanted suffix : String}
  {more : List String} {n : Int} {limit : Option Nat}

/-- The digits in front of what is none are all that a text begins with. -/
theorem Digits.unique {other left : List Char} (digits : Digits row) (ends : EndsWhole rest)
    (others : Digits other) (stops : EndsWhole left) (same : row ++ rest = other ++ left) :
    row = other := by
  have first : (row ++ rest).span Char.isDigit = (row, rest) :=
    Decimal.span_digits digits.all ends
  have second : (other ++ left).span Char.isDigit = (other, left) :=
    Decimal.span_digits others.all stops
  rw [same, second] at first
  exact (congrArg Prod.fst first).symm

namespace Parser

open Words

/-! ## One of some texts -/

/-- Where none of the texts that may come begins with another, the one that comes is read. -/
theorem reads_oneOf (free : PrefixFree (option :: more)) (member : wanted ∈ option :: more)
    (rest : List Char) :
    (oneOf option more).Reads whole (wanted.toList ++ rest) (.text wanted) rest := by
  refine Answers.label _ ?_
  induction more generalizing option with
  | nil =>
    obtain rfl := List.mem_singleton.mp member
    exact Reads.choice (reads_literal rfl rest)
  | cons next others inductionHypothesis =>
    by_cases same : wanted = option
    · subst same
      exact Reads.choice (reads_literal rfl rest)
    · have unlike : ¬ option.toList <+: wanted.toList ++ rest := by
        intro begins
        rcases List.prefix_or_prefix_of_prefix begins (List.prefix_append wanted.toList rest) with
          shorter | longer
        · exact same (free option List.mem_cons_self wanted member shorter).symm
        · exact same (free wanted member option List.mem_cons_self longer)
      refine (refuses_literal unlike).choice (inductionHypothesis ?_ ?_)
      · intro first listed second known
        exact free first (List.mem_cons_of_mem option listed) second
          (List.mem_cons_of_mem option known)
      · exact (List.mem_cons.mp member).resolve_left same

/-- Where none of the texts that may come does, there is a refusal. -/
theorem refuses_oneOf (unlike : ∀ other ∈ option :: more, ¬ other.toList <+: chars) :
    (oneOf option more).Refuses whole chars := by
  refine Answers.label _ (refuses_choice ?_)
  intro part member
  rw [← List.map_cons (f := fun wanted => literal wanted .exact)] at member
  obtain ⟨other, listed, rfl⟩ := List.mem_map.mp member
  exact refuses_literal (unlike other listed)

/-! ## The strict parser -/

/-- A suffix that belongs to a number is read behind it. -/
theorem reads_ordinalSuffix (belongs : suffix ∈ suffixesOf n) (rest : List Char) :
    (ordinalSuffix n).Reads whole (suffix.toList ++ rest) (.text suffix) rest := by
  have alone {known : String} (member : suffix ∈ [known]) :
      (literal known).Reads whole (suffix.toList ++ rest) (.text suffix) rest := by
    obtain rfl := List.mem_singleton.mp member
    exact reads_literal rfl rest
  unfold suffixesOf at belongs
  unfold ordinalSuffix
  split_ifs at belongs ⊢
  · exact alone belongs
  · exact alone belongs
  · exact reads_oneOf (by decide) belongs rest
  · exact reads_oneOf (by decide) belongs rest
  · exact alone belongs

/-- What is taken as the suffix of a number belongs to it. -/
theorem settles_ordinalSuffix (n : Int) :
    (ordinalSuffix n).Settles whole chars fun _ rest =>
      ∃ suffix ∈ suffixesOf n, chars = suffix.toList ++ rest := by
  have alone (known : String) : (literal known).Settles whole chars fun _ rest =>
      ∃ suffix ∈ [known], chars = suffix.toList ++ rest := by
    refine (settles_exact known).mono ?_
    exact fun _ rest ⟨_, divided⟩ => ⟨known, List.mem_singleton_self known, divided⟩
  have either (known other : String) : (oneOf known [other]).Settles whole chars fun _ rest =>
      ∃ suffix ∈ [known, other], chars = suffix.toList ++ rest := by
    refine (settles_oneOf known [other] .exact).mono ?_
    rintro _ rest ⟨suffix, listed, taken, divided, _, spells⟩
    obtain rfl := Casing.spells_exact_iff.mp spells
    exact ⟨suffix, listed, divided⟩
  unfold suffixesOf ordinalSuffix
  split_ifs
  · exact alone "th"
  · exact alone "st"
  · exact either "nd" "d"
  · exact either "rd" "d"
  · exact alone "th"

/-- Digits with a suffix that belongs to their number are read by the strict parser. -/
theorem reads_shortOrdinal (digits : Digits row) (fits : exceeded? limit 10 row.length = none)
    (belongs : suffix ∈ suffixesOf (Decimal.ofDigits row)) (rest : List Char) :
    (shortOrdinal limit).Reads whole (row ++ (suffix.toList ++ rest))
      (.int (Decimal.ofDigits row)) rest := by
  have ends : EndsWhole (suffix.toList ++ rest) := endsWhole_suffix (suffixesOf_known belongs) rest
  exact (reads_natural digits ends fits).script_int ((reads_ordinalSuffix belongs rest).script_parse
    ((reads_succeed _).script_done _))

/-- What the strict parser takes are digits with a suffix that belongs to their number. -/
theorem attempts_shortOrdinal (limit : Option Nat) (whole : Array Char) (chars : List Char) :
    (shortOrdinal limit).Attempts whole chars fun v rest =>
      ∃ row, Digits row ∧ exceeded? limit 10 row.length = none ∧ v = .int (Decimal.ofDigits row) ∧
        ∃ suffix ∈ suffixesOf (Decimal.ofDigits row), chars = row ++ (suffix.toList ++ rest) := by
  refine Attempts.script_int (attempts_natural limit whole chars) ?_
  rintro _ left ⟨row, divided, digits, fits, rfl⟩
  refine Settles.script_parse (settles_ordinalSuffix _) ?_
  rintro _ rest ⟨suffix, belongs, rfl⟩
  exact Settles.script_done _
    (settles_succeed ⟨row, digits, fits, rfl, suffix, belongs, divided⟩)

/-! ## The loose parser -/

/-- Digits are read as a whole number where no sign is needed. -/
theorem reads_unsigned (digits : Digits row) (fits : exceeded? limit 10 row.length = none)
    (ends : EndsWhole rest) :
    (integer 10 limit).Reads whole (row ++ rest) (.int (Decimal.ofDigits row)) rest := by
  have numeral : WholeText ([] ++ row) (1 * Decimal.ofDigits row) := .signed .none digits
  rw [Int.one_mul] at numeral
  apply reads_integer numeral ends
  rwa [List.nil_append, overlong?, behindSign_unsigned digits.unsigned]

/-- Digits with a suffix in full are read by the loose parser. -/
theorem reads_looseOrdinal (digits : Digits row) (fits : exceeded? limit 10 row.length = none)
    (full : suffix ∈ fullSuffixes) (rest : List Char) :
    (looseOrdinal limit).Reads whole (row ++ (suffix.toList ++ rest))
      (.int (Decimal.ofDigits row)) rest :=
  (reads_unsigned digits fits (endsWhole_suffix (.inl full) rest)).followedBy
    (reads_oneOf (by decide) full rest)

/-- A contracted numeral is refused by the loose parser. -/
theorem refuses_looseOrdinal (digits : Digits row) (fits : exceeded? limit 10 row.length = none) :
    (looseOrdinal limit).Refuses whole (row ++ ['d']) :=
  (reads_unsigned digits fits (endsWhole_suffix (.inr rfl) [])).followedBy_refuses
    (refuses_oneOf (by decide))

end Parser

open Descent.Parser Descent.Words

/-- The loose parser gives what the strict one gives, unless the numeral is contracted. Then the
loose parser rejects it. -/
theorem loose_ordinals_accept_strict_ones (limit : Option Nat) (t : String) (v : Value)
    (accepted : ((shortOrdinal limit).parseValue (.ofString t)).result = .ok v) :
    (¬ Contracted t.toList → ((looseOrdinal limit).parseValue (.ofString t)).result = .ok v) ∧
      (Contracted t.toList → ∃ failure,
        ((looseOrdinal limit).parseValue (.ofString t)).result = .error (.rejected failure)) := by
  obtain ⟨row, digits, fits, rfl, suffix, belongs, divided⟩ :=
    (attempts_shortOrdinal limit _ _).accepted accepted
  constructor
  · intro plain
    have full : suffix ∈ fullSuffixes := by
      refine (suffixesOf_known belongs).resolve_right ?_
      rintro rfl
      rw [List.append_nil] at divided
      exact plain ⟨row, digits, divided⟩
    refine Reads.parseValue ?_
    rw [divided]
    exact reads_looseOrdinal digits fits full []
  · rintro ⟨other, others, contracted⟩
    have ends : EndsWhole (suffix.toList ++ []) := endsWhole_suffix (suffixesOf_known belongs) []
    obtain rfl := digits.unique ends others (endsWhole_suffix (.inr rfl) [])
      (divided.symm.trans contracted)
    refine Refuses.parseValue ?_
    rw [contracted]
    exact refuses_looseOrdinal digits fits

-- A number in two, with either of its suffixes.
theorem loose_ordinals_accept_strict_ones_two :
    (looseOrdinal.parseValue (.ofString "22nd")).result = .ok (.int 22) ∧
      ∃ failure,
        (looseOrdinal.parseValue (.ofString "22d")).result = .error (.rejected failure) := by
  have digits : Digits ['2', '2'] := ⟨by decide, by simp⟩
  have full : "nd" ∈ suffixesOf (Decimal.ofDigits ['2', '2']) := by decide
  have short : "d" ∈ suffixesOf (Decimal.ofDigits ['2', '2']) := by decide
  have plain : ¬ Contracted "22nd".toList := by
    rintro ⟨row, digits, same⟩
    have letters : ['2', '2', 'n'] = row := by simpa using congrArg List.dropLast same
    exact absurd (digits.all 'n' (by simp [← letters])) (by decide)
  exact ⟨(loose_ordinals_accept_strict_ones none "22nd" (.int 22)
      (Reads.parseValue (reads_shortOrdinal digits rfl full []))).1 plain,
    (loose_ordinals_accept_strict_ones none "22d" (.int 22)
      (Reads.parseValue (reads_shortOrdinal digits rfl short []))).2 ⟨_, digits, rfl⟩⟩

/-- The strict parser reads a contracted numeral that the loose one rejects. -/
theorem contracted_ordinal_rejected :
    (shortOrdinal.parseValue (.ofString "2d")).result = .ok (.int 2) ∧
      ∃ failure,
        (looseOrdinal.parseValue (.ofString "2d")).result = .error (.rejected failure) := by
  have digits : Digits ['2'] := ⟨by decide, by simp⟩
  have short : "d" ∈ suffixesOf (Decimal.ofDigits ['2']) := by decide
  exact ⟨Reads.parseValue (reads_shortOrdinal digits rfl short []),
    Refuses.parseValue (refuses_looseOrdinal digits rfl)⟩

end Descent
