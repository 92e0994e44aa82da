import Descent.Proofs.Numerals

/-!
# Decimal numbers are read as far as their grammar goes

A sign, digits, a point, more digits and a power of ten are each allowed to be missing, and the
parser tries for each of them. What it takes in the end is the longest beginning of the text that is
in the grammar: a letter without a number behind it, or a second point, stays where it is. The
numeral that is then converted has no sign, is in the grammar, and denotes the number that was read.

The power of ten alone is read as a whole number, and so its digits alone can be too many for a
limit.
-/

namespace Descent

variable {whole : Array Char} {chars rest mark taken row digits before behind last more left :
  List Char} {direction n : Int} {limit : Option Nat}

/-! ## The longest beginning -/

/-- A text is a decimal number. -/
def IsDecimal (text : List Char) : Prop := ∃ direction size, DecimalText text direction size

theorem isDecimal_of (sign : Sign mark direction) (mantissa : Mantissa digits before behind)
    (power : PowerText last n) : IsDecimal (mark ++ (digits ++ last)) :=
  ⟨_, _, .signed sign mantissa power⟩

/-- The longest beginning of a text that is a decimal number. -/
structure LongestDecimal (chars taken : List Char) : Prop where
  decimal : IsDecimal taken
  begins : taken <+: chars
  longest : ∀ other, IsDecimal other → other <+: chars → other.length ≤ taken.length

/-- Of the beginnings that are decimal numbers one is the longest. The induction is on how much of
the text is left behind a beginning. -/
theorem exists_longest (decimal : IsDecimal taken) (begins : taken <+: chars) :
    ∃ longest, LongestDecimal chars longest := by
  induction short : chars.length - taken.length using Nat.strong_induction_on
    generalizing taken with
  | _ short inductionHypothesis =>
    by_cases longer : ∃ other, IsDecimal other ∧ other <+: chars ∧ taken.length < other.length
    · obtain ⟨other, known, first, more⟩ := longer
      have fits : other.length ≤ chars.length := first.length_le
      exact inductionHypothesis (chars.length - other.length) (by omega) known first rfl
    · refine ⟨taken, decimal, begins, ?_⟩
      intro other known first
      exact Nat.le_of_not_lt fun more => longer ⟨other, known, first, more⟩

/-- Nothing that follows the longest beginning makes it longer. -/
theorem LongestDecimal.stops (longest : LongestDecimal (taken ++ rest) taken)
    (divided : rest = more ++ left) (some : more ≠ []) : ¬ IsDecimal (taken ++ more) := by
  intro decimal
  have begins : taken ++ more <+: taken ++ rest := by
    rw [divided, ← List.append_assoc]
    exact List.prefix_append _ _
  have length := longest.longest _ decimal begins
  rw [List.length_append] at length
  exact some (List.eq_nil_of_length_eq_zero (by omega))

/-! ## What would make a number longer -/

/-- One more digit at the end of a row. -/
theorem Digits.snoc {c : Char} (digits : Digits row) (digit : c.isDigit = true) :
    Digits (row ++ [c]) where
  some := by simp
  all := by
    intro d member
    rcases List.mem_append.mp member with early | final
    · exact digits.all d early
    · exact List.mem_singleton.mp final ▸ digit

/-- One more digit at the end of a whole number. -/
theorem WholeText.snoc {c : Char} (numeral : WholeText row n) (digit : c.isDigit = true) :
    ∃ m, WholeText (row ++ [c]) m := by
  cases numeral with
  | signed sign digits =>
    rw [List.append_assoc]
    exact ⟨_, .signed sign (digits.snoc digit)⟩

/-- One more digit behind a mantissa, on whichever side of the point it ends. -/
theorem Mantissa.snoc {c : Char} (mantissa : Mantissa digits before behind)
    (digit : c.isDigit = true) : ∃ front back, Mantissa (digits ++ [c]) front back := by
  cases mantissa with
  | whole digits => exact ⟨_, _, .whole (digits.snoc digit)⟩
  | pointed digits others =>
    rw [List.append_assoc, List.cons_append]
    refine ⟨_, _, .pointed digits ?_⟩
    intro d member
    rcases List.mem_append.mp member with early | final
    · exact others d early
    · exact List.mem_singleton.mp final ▸ digit
  | fraction digits => exact ⟨_, _, .fraction (digits.snoc digit)⟩

/-- A point behind a mantissa that has none. -/
theorem Mantissa.point (mantissa : Mantissa digits before behind) (none : '.' ∉ digits) :
    Mantissa (digits ++ ['.']) digits [] := by
  cases mantissa with
  | whole digits => exact .pointed digits nofun
  | pointed => exact absurd (List.mem_append_right _ List.mem_cons_self) none
  | fraction => exact absurd List.mem_cons_self none

namespace Parser

/-! ## Reading the longest beginning -/

/-- Behind the digits of the longest beginning neither a digit comes nor a first point. -/
theorem longest_endsMantissa
    (longest : LongestDecimal (mark ++ (digits ++ last) ++ rest) (mark ++ (digits ++ last)))
    (sign : Sign mark direction) (mantissa : Mantissa digits before behind)
    (power : PowerText last n) :
    ∀ c ∈ (last ++ rest).head?, c.isDigit = false ∧ (c = '.' → '.' ∈ digits) := by
  cases power with
  | none =>
    rw [List.append_nil] at longest
    intro c head
    obtain ⟨left, rfl⟩ := List.head?_eq_some_iff.mp head
    have stops {front back : List Char} (longer : Mantissa (digits ++ [c]) front back) : False := by
      have decimal := isDecimal_of sign longer .none
      rw [List.append_nil, ← List.append_assoc] at decimal
      exact longest.stops rfl (List.cons_ne_nil c []) decimal
    constructor
    · rw [← Bool.not_eq_true]
      intro digit
      obtain ⟨front, back, longer⟩ := mantissa.snoc digit
      exact stops longer
    · rintro rfl
      by_contra none
      exact stops (mantissa.point none)
  | power letters exponent =>
    intro c head
    have ends := (PowerText.power letters exponent).endsMantissa c head
    exact ⟨ends.1, fun same => absurd same ends.2⟩

/-- Nothing follows the power of ten of the longest beginning that would make it longer. -/
theorem longest_stopsPower
    (longest : LongestDecimal (mark ++ (digits ++ last) ++ rest) (mark ++ (digits ++ last)))
    (sign : Sign mark direction) (mantissa : Mantissa digits before behind) {m : Int}
    (longer : PowerText (last ++ more) m) (divided : rest = more ++ left) : more = [] := by
  by_contra some
  have decimal := isDecimal_of sign mantissa longer
  rw [← List.append_assoc digits, ← List.append_assoc] at decimal
  exact longest.stops divided some decimal

/-- No digit follows the power of ten of the longest beginning. -/
theorem longest_endsWhole
    (longest : LongestDecimal (mark ++ (digits ++ last) ++ rest) (mark ++ (digits ++ last)))
    (sign : Sign mark direction) (mantissa : Mantissa digits before behind)
    (power : PowerText last n) (some : last ≠ []) : EndsWhole rest := by
  intro c head
  obtain ⟨left, divided⟩ := List.head?_eq_some_iff.mp head
  rw [← Bool.not_eq_true]
  intro digit
  cases power with
  | none => exact some rfl
  | @power letter text n letters exponent =>
    obtain ⟨m, longer⟩ := exponent.snoc digit
    have power : PowerText ((letter :: text) ++ [c]) m := .power letters longer
    exact absurd (longest_stopsPower longest sign mantissa power divided) (List.cons_ne_nil c [])

/-- The power of ten of the longest beginning is read, or none if it has none. -/
theorem longest_power
    (longest : LongestDecimal (mark ++ (digits ++ last) ++ rest) (mark ++ (digits ++ last)))
    (sign : Sign mark direction) (mantissa : Mantissa digits before behind)
    (power : PowerText last n) (fits : overlong? limit (behindLetter last) = none) :
    (choice (chain (literal "e" .folded) [integer 10 limit]) [succeed (.int 0)]).Reads whole
      (last ++ rest) (.int n) rest := by
  cases power with
  | none =>
    refine Refuses.either ?_ (reads_succeed _)
    have settles : (chain (literal "e" .folded) [integer 10 limit]).Settles whole rest
        fun _ _ => False := by
      refine exponent_picks.settles.before ?_
      rintro _ middle ⟨c, divided, -, letter⟩
      refine (refuses_integer ?_).settles
      rintro text left m rfl numeral
      have letters : c = 'e' ∨ c = 'E' := by simpa using letter
      have longer : PowerText ([] ++ (c :: text)) m := .power letters numeral
      exact absurd (longest_stopsPower longest sign mantissa longer divided)
        (List.cons_ne_nil c text)
    exact settles.refuses fun _ _ impossible => impossible
  | power letters exponent =>
    have ends : EndsWhole rest := longest_endsWhole longest sign mantissa
      (.power letters exponent) (List.cons_ne_nil _ _)
    rw [behindLetter_power letters] at fits
    refine Reads.choice (Reads.before (exponent_picks.reads ?_) (reads_integer exponent ends fits))
    rcases letters with rfl | rfl <;> decide

/-- The longest beginning is read, whatever its numeral is converted to. -/
theorem reads_longest
    (longest : LongestDecimal (mark ++ (digits ++ last) ++ rest) (mark ++ (digits ++ last)))
    (sign : Sign mark direction) (mantissa : Mantissa digits before behind)
    (power : PowerText last n) (fits : overlong? limit (behindLetter last) = none)
    {convert : String → Except Fault Float} {x : Float}
    (converted :
      convert (Decimal.numeral (String.ofList before) (String.ofList behind) n) = .ok x) :
    (realBy convert limit).Reads whole (mark ++ (digits ++ last) ++ rest)
      (.float (signedFloat direction x)) rest := by
  rw [List.append_assoc, List.append_assoc]
  exact reads_realBy sign mantissa (longest_endsMantissa longest sign mantissa power)
    (longest_power longest sign mantissa power fits) converted

/-- The longest beginning stops the parser if its power of ten has too many digits. -/
theorem raises_longest {most : Nat}
    (longest : LongestDecimal (mark ++ (digits ++ last) ++ rest) (mark ++ (digits ++ last)))
    (sign : Sign mark direction) (mantissa : Mantissa digits before behind)
    (power : PowerText last n) (beyond : overlong? limit (behindLetter last) = some most) :
    (real limit).Raises whole (mark ++ (digits ++ last) ++ rest)
      (.badNumeral 10 (.long most (behindSign (behindLetter last)).length)) := by
  rw [List.append_assoc, List.append_assoc]
  have ends := longest_endsMantissa longest sign mantissa power
  exact (script_realBy sign mantissa ends).raises
    (raises_power power (longest_endsWhole longest sign mantissa power) beyond).script

/-- Where no beginning is a decimal number nothing is read. -/
theorem refuses_undecimal (none : ∀ taken, taken <+: chars → ¬ IsDecimal taken) :
    (real limit).Refuses whole chars := by
  have settles : (real limit).Settles whole chars fun _ _ => False := by
    refine Settles.script_int settles_sign ?_
    rintro direction _ ⟨-, mark, rfl, sign⟩
    refine settles_mantissa ?_
    rintro before behind digits _ rfl front back mantissa
    split
    next => exact (refuses_failing _ _).settles.script_done _
    next nonempty =>
      have some : before ≠ [] ∨ behind ≠ [] := by
        simpa [Classical.or_iff_not_imp_left] using nonempty
      refine absurd (isDecimal_of sign (mantissa some) .none) (none _ ?_)
      rw [List.append_nil, ← List.append_assoc]
      exact List.prefix_append _ _
  exact settles.refuses fun _ _ impossible => impossible

end Parser

open Descent.Parser

/-- A decimal number is refused where no beginning of the text is one. Otherwise the longest such
beginning is taken, and no more. What is converted is a numeral without a sign, in the grammar, of
the same size; the sign is applied to the outcome. Nothing is raised, but for a power of ten that
has more digits than a limit allows where one is set. -/
theorem reals_take_longest_numeral (limit : Option Nat) (whole : Array Char) (chars : List Char) :
    ((∀ taken, taken <+: chars → ¬ IsDecimal taken) ∧ (real limit).Refuses whole chars) ∨
      ∃ taken rest, chars = taken ++ rest ∧ LongestDecimal chars taken ∧
        match overlong? limit (behindLetter taken) with
        | none =>
          ∀ direction size, DecimalText taken direction size →
            ∃ (numeral : String) (d : Decimal), DecimalText numeral.toList 1 size ∧
              Decimal.read? numeral.toList = some d ∧ d.value = size ∧
              (real limit).Reads whole chars (.float (signedFloat direction d.toFloat)) rest ∧
              ∀ convert x, convert numeral = .ok x →
                (realBy convert limit).Reads whole chars (.float (signedFloat direction x)) rest
        | some most =>
          (real limit).Raises whole chars
            (.badNumeral 10 (.long most (behindSign (behindLetter taken)).length)) := by
  by_cases some : ∃ taken, taken <+: chars ∧ IsDecimal taken
  · obtain ⟨beginning, begins, decimal⟩ := some
    obtain ⟨taken, longest⟩ := exists_longest decimal begins
    obtain ⟨rest, rfl⟩ := longest.begins
    refine .inr ⟨taken, rest, rfl, longest, ?_⟩
    split
    next fits =>
      intro direction size decimal
      cases decimal with
      | @signed mark digits before behind last direction n sign mantissa power =>
        rw [mantissa.behindLetter sign] at fits
        obtain ⟨front, back, some⟩ := mantissa.digits
        refine ⟨_, _, decimalText_numeral front back n, read?_numeral front back n, ?_, ?_, ?_⟩
        · rw [Decimal.value_ofParts, sizeOfParts_filled]
        · rw [toFloat_filled some]
          exact reads_longest longest sign mantissa power fits
            (readFloat_numeral front back some n)
        · intro convert x converted
          exact reads_longest longest sign mantissa power fits converted
    next most beyond =>
      obtain ⟨direction, size, decimal⟩ := longest.decimal
      cases decimal with
      | signed sign mantissa power =>
        rw [mantissa.behindLetter sign] at beyond ⊢
        exact raises_longest longest sign mantissa power beyond
  · have none : ∀ taken, taken <+: chars → ¬ IsDecimal taken :=
      fun taken begins decimal => some ⟨taken, begins, decimal⟩
    exact .inl ⟨none, refuses_undecimal none⟩

end Descent
