import Descent.Proofs.NumeralTexts
import Descent.Proofs.Settling
import Mathlib.Algebra.Group.Nat.Defs
import Mathlib.Data.List.Basic

/-!
# Numerals on a text

What a digit of a base is comes down to single characters: it is one if its small form is in the
row of digits. Up to base twenty that leaves the ASCII digits and letters alone, so that whatever
the collector takes the reader can read. In larger bases the Kelvin sign is in the way.

A numeral is read off a text to its end wherever nothing follows that would make it longer. Where
a limit is set to the number of digits, that is so as long as they are within it; beyond it the
reader stops with a fault that says how many there are.
-/

namespace Descent

variable {whole : Array Char} {chars rest row mark : List Char} {direction n : Int}
  {limit : Option Nat}

/-! ## Small forms -/

namespace Text

/-- Beyond ASCII no run of capital letters has small forms within ASCII, but for the Kelvin sign. -/
theorem lowercaseRuns_ascii : ∀ run ∈ lowercaseRuns,
    run.last < 0x80 ∨ 0x80 ≤ (run.first : Int) + run.shift ∨
      run.first = 0x212A ∧ run.last = 0x212A ∧ run.shift = -8383 := by
  decide +kernel

/-- A character made from a code point has that code point, or it is the first of all. -/
theorem toNat_ofNat (code : Nat) :
    (Char.ofNat code).toNat = code ∨ Char.ofNat code = '\x00' := by
  by_cases valid : code.isValidChar
  · left
    rw [Char.ofNat, dif_pos valid]
    rfl
  · right
    rw [Char.ofNat, dif_neg valid]
    rfl

/-- The Kelvin sign, a letter beyond ASCII that folds to one within it. -/
def kelvinSign : Char := '\u212a'

/-- A character with an ASCII character as its small form is one itself, or the Kelvin sign. -/
theorem foldChar_ascii {c small : Char} (folds : foldChar c = [small])
    (positive : 0 < small.toNat) (ascii : small.toNat < 0x80) :
    c.toNat < 0x80 ∨ c = kelvinSign ∧ small = 'k' := by
  by_cases plain : c.toNat < 0x80
  · exact Or.inl plain
  · right
    simp only [foldChar, if_neg plain] at folds
    split at folds
    · simp at folds
    · split at folds
      next run found =>
        have covers := List.find?_some found
        simp only [CaseRun.covers, Bool.and_eq_true, decide_eq_true_eq] at covers
        obtain rfl := List.singleton_inj.mp folds
        rcases lowercaseRuns_ascii run (List.mem_of_find?_eq_some found) with
          below | above | ⟨first, last, shift⟩
        · omega
        · rcases toNat_ofNat ((c.toNat : Int) + run.shift).toNat with same | zero
          · omega
          · rw [zero] at positive
            exact absurd positive (by decide)
        · have kelvin : c.toNat = 0x212A := by omega
          rw [kelvin, shift]
          exact ⟨Char.toNat_inj.mp kelvin, by decide⟩
      next =>
        obtain rfl := List.singleton_inj.mp folds
        exact absurd ascii plain

end Text

/-! ## Digits -/

/-- Whether a character is a digit of a base, in either case. -/
def digitOf (base : Int) (c : Char) : Bool :=
  match Text.foldChar c with
  | [small] => (digitsOf base).contains small
  | _ => false

theorem isDigit_text (base : Int) (c : Char) :
    isDigit base (.text c.toString) = .ok (digitOf base c) := by
  have letters : c.toString.toList = [c] := by simp
  simp only [isDigit, digitOf, letters]
  cases Text.foldChar c with
  | nil => rfl
  | cons small more =>
    cases more with
    | nil => rfl
    | cons second more => rfl

/-- Beyond ASCII there are no digits and letters to be read. -/
theorem asciiDigit?_beyond {c : Char} (beyond : 0x80 ≤ c.toNat) : asciiDigit? c = none := by
  have above : ∀ last : Char, last.toNat < 0x80 → ¬ c ≤ last := by
    intro last ascii below
    have ordered : c.toNat ≤ last.toNat := below
    omega
  simp [asciiDigit?, above '9' (by decide), above 'z' (by decide), above 'Z' (by decide)]

/-- The digits of a base are the first ones of the row. -/
theorem contains_digitsOf {base : Nat} {small : Char} (inRow : small ∈ digitRow) :
    (digitsOf base).contains small = decide (digitRow.idxOf small < base) := by
  rw [digitsOf, if_neg (by omega), Int.toNat_natCast, Bool.eq_iff_iff, List.contains_iff_mem,
    decide_eq_true_eq, List.mem_take_iff_idxOf_lt inRow]

/-- Within ASCII the value of a digit is the place of its small form in the row. -/
theorem asciiDigit?_eq_idxOf : ∀ code < 0x80,
    (Text.foldChar (Char.ofNat code)).all fun small =>
      asciiDigit? (Char.ofNat code) ==
        if small ∈ digitRow then some (digitRow.idxOf small) else none := by
  decide +kernel

/-- What is collected as a digit and what is read as one agree within ASCII. -/
theorem digitOf_ascii (base : Nat) {c : Char} (ascii : c.toNat < 0x80) :
    digitOf base c = (asciiDigit? c).any fun digit => digit < base := by
  have plain : c ≠ 'İ' := by
    rintro rfl
    exact absurd ascii (by decide)
  obtain ⟨small, folds⟩ := Text.exists_foldChar_eq c plain
  have value := asciiDigit?_eq_idxOf c.toNat ascii
  rw [Char.ofNat_toNat, folds, List.all_cons, List.all_nil, Bool.and_true, beq_iff_eq] at value
  simp only [digitOf, folds, value]
  by_cases inRow : small ∈ digitRow
  · rw [contains_digitsOf inRow, if_pos inRow, Option.any_some]
  · have outside : small ∉ digitsOf base := by
      rw [digitsOf, if_neg (by omega)]
      exact fun member => inRow (List.mem_of_mem_take member)
    simp [inRow, outside]

/-- But for the Kelvin sign, a digit is what can be read as one. -/
theorem digitOf_eq_of_ne (base : Nat) {c : Char} (other : c ≠ Text.kelvinSign) :
    digitOf base c = (asciiDigit? c).any fun digit => digit < base := by
  by_cases ascii : c.toNat < 0x80
  · exact digitOf_ascii base ascii
  · rw [asciiDigit?_beyond (Nat.le_of_not_lt ascii), Option.any_none]
    have table : digitRow.all fun d => 0 < d.toNat ∧ d.toNat < 0x80 := by decide
    unfold digitOf
    split
    next d folds =>
      rw [← Bool.not_eq_true, List.contains_iff_mem]
      intro member
      rw [digitsOf, if_neg (by omega)] at member
      have ⟨positive, below⟩ :=
        of_decide_eq_true (List.all_eq_true.mp table d (List.mem_of_mem_take member))
      rcases Text.foldChar_ascii folds positive below with plain | ⟨kelvin, -⟩
      · exact ascii plain
      · exact other kelvin
    next => rfl

/-- The Kelvin sign is collected from base twenty-one on, as the small k that it folds to. -/
theorem digitOf_kelvinSign (base : Nat) : digitOf base Text.kelvinSign = decide (20 < base) :=
  contains_digitsOf (by decide : 'k' ∈ digitRow)

/-- Up to base twenty a digit is what can be read as one. -/
theorem digitOf_eq {base : Nat} (small : base ≤ 20) (c : Char) :
    digitOf base c = (asciiDigit? c).any fun digit => digit < base := by
  by_cases kelvin : c = Text.kelvinSign
  · rw [kelvin, digitOf_kelvinSign, asciiDigit?_beyond (by decide)]
    simpa using small
  · exact digitOf_eq_of_ne base kelvin

theorem isDigit_iff (c : Char) : c.isDigit = true ↔ '0' ≤ c ∧ c ≤ '9' := by
  rw [Char.isDigit, Bool.and_eq_true, decide_eq_true_eq, decide_eq_true_eq]
  exact Iff.rfl

/-- A decimal digit is read as its value. -/
theorem asciiDigit?_decimal {c : Char} (digit : c.isDigit = true) :
    asciiDigit? c = some (Decimal.digitValue c) ∧ Decimal.digitValue c < 10 := by
  have between : '0' ≤ c ∧ c ≤ '9' := (isDigit_iff c).mp digit
  have below : c.toNat ≤ 57 := between.2
  rw [asciiDigit?, if_pos between, Decimal.digitValue, if_pos between]
  exact ⟨rfl, by omega⟩

/-- The digits of base ten are the decimal ones. -/
theorem digitOf_ten (c : Char) : digitOf 10 c = c.isDigit := by
  rw [Bool.eq_iff_iff]
  constructor
  · intro digit
    have read : ((asciiDigit? c).any fun digit => digit < 10) = true := by
      rw [← digitOf_eq (by decide) c]
      exact digit
    unfold asciiDigit? at read
    split at read
    next between => exact (isDigit_iff c).mpr between
    next =>
      split at read
      next between =>
        have above : 97 ≤ c.toNat := between.1
        simp at read
        omega
      next =>
        split at read
        next between =>
          have above : 65 ≤ c.toNat := between.1
          simp at read
          omega
        next => simp at read
  · intro digit
    obtain ⟨value, small⟩ := asciiDigit?_decimal digit
    have read := digitOf_eq (by decide : 10 ≤ 20) c
    rw [value] at read
    simpa [small] using read

/-- A row of digits that can be read denotes a number. -/
theorem positional?_isSome {base : Nat}
    (digits : ∀ c ∈ row, ∃ d, asciiDigit? c = some d ∧ d < base) :
    ∃ n, positional? base row = some n := by
  unfold positional?
  generalize 0 = before
  induction row generalizing before with
  | nil => exact ⟨before, rfl⟩
  | cons c row inductionHypothesis =>
    obtain ⟨d, value, small⟩ := digits c List.mem_cons_self
    simp only [List.foldlM_cons, value, if_pos small]
    exact inductionHypothesis (fun c member => digits c (List.mem_cons_of_mem _ member)) _

/-- What is read as a number of a base is a row of digits of that base. -/
theorem positional?_digits {base value : Nat} (read : positional? base row = some value) :
    ∀ c ∈ row, ∃ d, asciiDigit? c = some d ∧ d < base := by
  unfold positional? at read
  generalize 0 = before at read
  induction row generalizing before with
  | nil => nofun
  | cons first row inductionHypothesis =>
    rw [List.foldlM_cons] at read
    cases digit : asciiDigit? first with
    | none => simp [digit] at read
    | some d =>
      by_cases small : d < base
      · simp only [digit, if_pos small] at read
        intro c member
        rcases List.mem_cons.mp member with rfl | later
        · exact ⟨d, digit, small⟩
        · exact inductionHypothesis _ read c later
      · simp [digit, small] at read

/-- A row of digits denotes a number below the power of the base. -/
theorem positional?_lt {base value : Nat} (read : positional? base row = some value) :
    value < base ^ row.length := by
  -- Started from any number, the fold stays below the next one with the digits behind it.
  suffices onwards : value < (0 + 1) * base ^ row.length by simpa using onwards
  unfold positional? at read
  generalize 0 = before at read ⊢
  induction row generalizing before with
  | nil =>
    obtain rfl : before = value := Option.some.inj read
    simp
  | cons c row inductionHypothesis =>
    rw [List.foldlM_cons] at read
    cases digit : asciiDigit? c with
    | none => simp [digit] at read
    | some d =>
      by_cases small : d < base
      · simp only [digit, if_pos small] at read
        have bound := inductionHypothesis _ read
        have room : before * base + d + 1 ≤ (before + 1) * base := by
          rw [Nat.add_mul]
          omega
        calc value < (before * base + d + 1) * base ^ row.length := bound
          _ ≤ (before + 1) * base * base ^ row.length := Nat.mul_le_mul_right _ room
          _ = (before + 1) * base ^ (c :: row).length := by
            rw [List.length_cons, Nat.pow_succ, Nat.mul_assoc, Nat.mul_comm base]
      · simp [digit, small] at read

/-- Decimal digits are read in base ten as the number that they denote. -/
theorem positional?_decimal (digits : ∀ c ∈ row, c.isDigit = true) :
    positional? 10 row = some (Decimal.ofDigits row) := by
  unfold positional? Decimal.ofDigits
  generalize 0 = before
  induction row generalizing before with
  | nil => rfl
  | cons c row inductionHypothesis =>
    obtain ⟨value, small⟩ := asciiDigit?_decimal (digits c List.mem_cons_self)
    simp only [List.foldlM_cons, List.foldl_cons, value, if_pos small]
    rw [Nat.mul_comm before 10]
    exact inductionHypothesis (fun c member => digits c (List.mem_cons_of_mem _ member)) _

/-- No characters but the two e fold to the small one. -/
theorem folded_takes_e (c : Char) : Casing.folded.takes 'e' c = (c == 'e' || c == 'E') := by
  by_cases ascii : c.toNat < 0x80
  · exact of_codes (motive := fun c => Casing.folded.takes 'e' c = (c == 'e' || c == 'E'))
      (by decide +kernel) ascii
  · have small : c ≠ 'e' := fun same => ascii (same ▸ by decide)
    have capital : c ≠ 'E' := fun same => ascii (same ▸ by decide)
    rw [beq_eq_false_iff_ne.mpr small, beq_eq_false_iff_ne.mpr capital, Bool.or_self,
      ← Bool.not_eq_true]
    intro taken
    rcases Text.foldChar_ascii (Casing.takes_folded_eq.mp taken) (by decide) (by decide) with
      plain | ⟨-, kelvin⟩
    · exact ascii plain
    · exact absurd kelvin (by decide)

/-! ## Reading numerals -/

/-- A row of digits is all digits that it begins with. -/
theorem leadingDigits_all {base : Nat}
    (digits : ∀ c ∈ row, ∃ d, asciiDigit? c = some d ∧ d < base) :
    leadingDigits base row = row := by
  refine List.takeWhile_eq_self_iff.mpr fun c member => ?_
  obtain ⟨d, value, small⟩ := digits c member
  simpa [value] using small

/-- What denotes a number is read as it, if a limit allows so many digits. -/
theorem readNumeral_found {base : Int} {number : Nat} (known : ¬ (base < 2 ∨ 36 < base))
    (found : positional? base.toNat row = some number)
    (fits : exceeded? limit base row.length = none) :
    readNumeral base (String.ofList row) limit = .ok (number : Int) := by
  rw [readNumeral, if_neg known, String.toList_ofList,
    leadingDigits_all (positional?_digits found)]
  simp only [fits, found]

/-- Too many digits are not read. -/
theorem readNumeral_beyond {base : Int} {most : Nat} (known : ¬ (base < 2 ∨ 36 < base))
    (beyond : exceeded? limit base (leadingDigits base.toNat row).length = some most) :
    readNumeral base (String.ofList row) limit =
      .error (.badNumeral base (.long most (leadingDigits base.toNat row).length)) := by
  rw [readNumeral, if_neg known, String.toList_ofList]
  simp only [beyond]

/-- Decimal digits are a numeral, within a limit. -/
theorem readNumeral_decimal (digits : Digits row) (fits : exceeded? limit 10 row.length = none) :
    readNumeral 10 (String.ofList row) limit = .ok (Decimal.ofDigits row : Int) :=
  readNumeral_found (by omega) (positional?_decimal digits.all) fits

/-- Decimal digits that are too many. -/
theorem readNumeral_long {most : Nat} (digits : Digits row)
    (beyond : exceeded? limit 10 row.length = some most) :
    readNumeral 10 (String.ofList row) limit = .error (.badNumeral 10 (.long most row.length)) := by
  have all : leadingDigits (Int.toNat 10) row = row :=
    leadingDigits_all (positional?_digits (positional?_decimal digits.all))
  rw [← all] at beyond
  rw [readNumeral_beyond (by omega) beyond, all]

namespace Parser

theorem digit_picks (base : Int) : (digit base).Picks (digitOf base) :=
  Picks.label (satisfying_picks (isDigit_text base)) _

theorem decimal_picks : (digit 10).Picks Char.isDigit := by
  have picks := digit_picks 10
  rwa [funext digitOf_ten] at picks

/-- A row of digits of a base is read as the number that it denotes. -/
theorem reads_natural_in {base : Int} (some : row ≠ []) (taken : ∀ c ∈ row, digitOf base c = true)
    (read : readNumeral base (String.ofList row) limit = .ok n)
    (ends : ∀ c ∈ rest.head?, digitOf base c = false) :
    (natural base limit).Reads whole (row ++ rest) (.int n) rest := by
  have enough : 1 ≤ row.length := List.length_pos_iff.mpr some
  refine ((digit_picks base).text_reads 1 row rest taken ends enough).map ?_
  simp only [read]
  rfl

/-- A row of decimal digits is read as the number that it denotes. -/
theorem reads_natural (digits : Digits row) (ends : EndsWhole rest)
    (fits : exceeded? limit 10 row.length = none) :
    (natural 10 limit).Reads whole (row ++ rest) (.int (Decimal.ofDigits row)) rest := by
  apply reads_natural_in digits.some _ (readNumeral_decimal digits fits)
  · intro c head
    rw [digitOf_ten, ends c head]
  · intro c member
    rw [digitOf_ten, digits.all c member]

/-- A row of digits that cannot be read stops the parser. -/
theorem raises_natural_in {base : Int} {fault : Fault} (some : row ≠ [])
    (taken : ∀ c ∈ row, digitOf base c = true)
    (unread : readNumeral base (String.ofList row) limit = .error fault)
    (ends : ∀ c ∈ rest.head?, digitOf base c = false) :
    (natural base limit).Raises whole (row ++ rest) fault := by
  have enough : 1 ≤ row.length := List.length_pos_iff.mpr some
  refine ((digit_picks base).text_reads 1 row rest taken ends enough).map_raises ?_
  simp only [unread]
  rfl

/-- A row of decimal digits that are too many stops the parser. -/
theorem raises_natural {most : Nat} (digits : Digits row) (ends : EndsWhole rest)
    (beyond : exceeded? limit 10 row.length = some most) :
    (natural 10 limit).Raises whole (row ++ rest) (.badNumeral 10 (.long most row.length)) := by
  apply raises_natural_in digits.some _ (readNumeral_long digits beyond)
  · intro c head
    rw [digitOf_ten, ends c head]
  · intro c member
    rw [digitOf_ten, digits.all c member]

/-- Where no digit of a base comes there is no number. -/
theorem refuses_natural_in {base : Int} (ends : ∀ c ∈ chars.head?, digitOf base c = false) :
    (natural base limit).Refuses whole chars :=
  Refuses.map ((digit_picks base).text_refuses 1 [] chars nofun ends Nat.zero_lt_one)

/-- Where no decimal digit comes there is no number. -/
theorem refuses_natural (ends : EndsWhole chars) : (natural 10 limit).Refuses whole chars := by
  apply refuses_natural_in
  intro c head
  rw [digitOf_ten, ends c head]

/-- A sign is read, or the lack of one. -/
theorem reads_sign (sign : Sign mark direction)
    (follows : mark = [] → ∀ c ∈ rest.head?, c ≠ '+' ∧ c ≠ '-') :
    signOrPlus.Reads whole (mark ++ rest) (.int direction) rest := by
  cases sign with
  | plus => exact Reads.choice (Reads.choice ((reads_literal rfl rest).before (reads_succeed _)))
  | minus =>
    have other : (chain (literal "+") [succeed (.int 1)]).Refuses whole (['-'] ++ rest) :=
      Refuses.chain (refuses_literal_at rfl (by rintro c ⟨⟩; decide))
    exact Reads.choice (other.either ((reads_literal rfl rest).before (reads_succeed _)))
  | none =>
    have noPlus : (chain (literal "+") [succeed (.int 1)]).Refuses whole rest :=
      Refuses.chain (refuses_literal_at rfl fun c head => (follows rfl c head).1)
    have noMinus : (chain (literal "-") [succeed (.int (-1))]).Refuses whole rest :=
      Refuses.chain (refuses_literal_at rfl fun c head => (follows rfl c head).2)
    exact Refuses.either (Refuses.either noPlus noMinus) (reads_succeed _)

/-- A sign is read where one comes, and nothing where none does. -/
theorem reads_signOrPlus (whole : Array Char) (chars : List Char) :
    ∃ mark direction, Sign mark direction ∧ chars = mark ++ behindSign chars ∧
      signOrPlus.Reads whole chars (.int direction) (behindSign chars) := by
  unfold behindSign
  split
  next rest => exact ⟨['+'], 1, .plus, rfl, reads_sign .plus nofun⟩
  next rest => exact ⟨['-'], -1, .minus, rfl, reads_sign .minus nofun⟩
  next noPlus noMinus =>
    have unsigned : ∀ c ∈ chars.head?, c ≠ '+' ∧ c ≠ '-' := by
      intro c head
      obtain ⟨rest, rfl⟩ := List.head?_eq_some_iff.mp head
      constructor
      · rintro rfl
        exact noPlus rest rfl
      · rintro rfl
        exact noMinus rest rfl
    have reads : signOrPlus.Reads whole ([] ++ chars) (.int 1) chars :=
      reads_sign .none fun _ => unsigned
    exact ⟨[], 1, .none, rfl, reads⟩

/-- The sign of a row of digits is read. -/
theorem reads_sign_digits (sign : Sign mark direction) (digits : Digits row) (rest : List Char) :
    signOrPlus.Reads whole (mark ++ (row ++ rest)) (.int direction) (row ++ rest) := by
  refine reads_sign sign fun _ => ?_
  obtain ⟨first, others, rfl⟩ := List.exists_cons_of_ne_nil digits.some
  exact digits.unsigned

/-- A whole number is read to the end of its digits. -/
theorem reads_integer {text : List Char} (numeral : WholeText text n) (ends : EndsWhole rest)
    (fits : overlong? limit text = none) :
    (integer 10 limit).Reads whole (text ++ rest) (.int n) rest := by
  cases numeral with
  | @signed mark row direction sign digits =>
    rw [overlong?, sign.behindSign digits.unsigned] at fits
    rw [List.append_assoc]
    exact (reads_sign_digits sign digits rest).script_int
      ((reads_natural digits ends fits).script_int ((reads_succeed _).script_done _))

/-- A number with a sign stops with a fault where the one behind the sign does. -/
theorem integer_raises {base : Int} {fault : Fault}
    (raises : (natural base limit).Raises whole (behindSign chars) fault) :
    (integer base limit).Raises whole chars fault := by
  obtain ⟨_, _, _, _, reads⟩ := reads_signOrPlus whole chars
  exact reads.script_comesTo.raises raises.script

/-- A whole number with too many digits stops the parser. -/
theorem raises_integer {text : List Char} {most : Nat} (numeral : WholeText text n)
    (ends : EndsWhole rest) (beyond : overlong? limit text = some most) :
    (integer 10 limit).Raises whole (text ++ rest)
      (.badNumeral 10 (.long most (behindSign text).length)) := by
  cases numeral with
  | @signed mark row direction sign digits =>
    have behind : behindSign (mark ++ row) = row := sign.behindSign digits.unsigned
    rw [overlong?, behind] at beyond
    rw [behind, List.append_assoc]
    exact (reads_sign_digits sign digits rest).script_comesTo.raises
      (raises_natural digits ends beyond).script

/-- Where neither digits nor a sign with digits come there is no whole number. -/
theorem refuses_integer (none : ∀ text left m, chars = text ++ left → ¬ WholeText text m) :
    (integer 10 limit).Refuses whole chars := by
  obtain ⟨mark, direction, sign, divided, signed⟩ := reads_signOrPlus whole chars
  have ends : EndsWhole (behindSign chars) := by
    intro c head
    obtain ⟨left, spelled⟩ := List.head?_eq_some_iff.mp head
    rw [← Bool.not_eq_true]
    intro digit
    have digits : Digits [c] := ⟨List.cons_ne_nil c [], by simpa using digit⟩
    refine none (mark ++ [c]) left _ ?_ (.signed sign digits)
    rw [List.append_assoc, List.singleton_append, ← spelled, ← divided]
  exact signed.script_int (Refuses.script _ (refuses_natural ends))

/-- Where neither a sign nor a digit comes there is no whole number. -/
theorem refuses_integer_at (ends : EndsWhole chars)
    (unlike : ∀ c ∈ chars.head?, c ≠ '+' ∧ c ≠ '-') : (integer 10 limit).Refuses whole chars := by
  refine refuses_integer ?_
  rintro text left m rfl numeral
  obtain ⟨c, others, rfl, start⟩ := numeral.head
  rcases start with digit | rfl | rfl
  · exact absurd digit (by simp [ends c rfl])
  · exact (unlike '+' rfl).1 rfl
  · exact (unlike '-' rfl).2 rfl

/-- The letter in front of a power of ten is a small or a capital one. -/
theorem exponent_picks : (literal "e" .folded).Picks fun c => c == 'e' || c == 'E' := by
  have picks : (literal "e" .folded).Picks (Casing.folded.takes 'e') := literal_picks (by decide)
  rwa [funext folded_takes_e] at picks

/-- A power of ten is read, or the lack of one. -/
theorem reads_power {last : List Char} (power : PowerText last n) (ends : EndsReal rest)
    (fits : overlong? limit (behindLetter last) = none) :
    (choice (chain (literal "e" .folded) [integer 10 limit]) [succeed (.int 0)]).Reads whole
      (last ++ rest) (.int n) rest := by
  cases power with
  | none =>
    refine Refuses.either (Refuses.chain (exponent_picks.refuses ?_)) (reads_succeed _)
    intro c head
    obtain ⟨_, _, noSmall, noCapital⟩ := ends c head
    simp [noSmall, noCapital]
  | power letters exponent =>
    rw [behindLetter_power letters] at fits
    refine Reads.choice
      (Reads.before (exponent_picks.reads ?_) (reads_integer exponent ends.endsWhole fits))
    rcases letters with rfl | rfl <;> decide

/-- A power of ten with too many digits stops the parser. -/
theorem raises_power {last : List Char} {most : Nat} (power : PowerText last n)
    (ends : last ≠ [] → EndsWhole rest)
    (beyond : overlong? limit (behindLetter last) = some most) :
    (choice (chain (literal "e" .folded) [integer 10 limit]) [succeed (.int 0)]).Raises whole
      (last ++ rest) (.badNumeral 10 (.long most (behindSign (behindLetter last)).length)) := by
  cases power with
  | none =>
    exact absurd ((exceeded?_zero limit 10).symm.trans beyond) nofun
  | power letters exponent =>
    rw [behindLetter_power letters] at beyond ⊢
    refine Raises.choice ((exponent_picks.reads ?_).chain_raises
      (raises_integer exponent (ends (List.cons_ne_nil _ _)) beyond))
    rcases letters with rfl | rfl <;> decide

/-- The digits of a decimal number are read on both sides of the point. What follows them may begin
with another point if there is one already. -/
theorem script_mantissa {digits before behind : List Char} {name : String}
    {next : String → String → Script Parser} (mantissa : Mantissa digits before behind)
    (ends : ∀ c ∈ rest.head?, c.isDigit = false ∧ (c = '.' → '.' ∈ digits)) :
    (script name do
      let before ← Script.text (text digit)
      let point ← Script.parse (optional (literal "."))
      let behind ← if point.isTrue then Script.text (text digit) else pure ""
      next before behind).ComesTo whole (digits ++ rest)
        (script name (next (String.ofList before) (String.ofList behind))) rest := by
  have noDigit : ∀ c ∈ rest.head?, c.isDigit = false := fun c head => (ends c head).1
  have point (behind : List Char) : (optional (literal ".")).Reads whole ('.' :: behind) (.text ".")
      behind := Reads.choice (reads_literal rfl behind)
  have atPoint (others : List Char) : ∀ c ∈ ('.' :: others).head?, c.isDigit = false := by
    rintro c ⟨⟩
    decide
  have run (row rest : List Char) (all : ∀ c ∈ row, c.isDigit = true)
      (stops : ∀ c ∈ rest.head?, c.isDigit = false) :
      (text digit).Reads whole (row ++ rest) (.text (String.ofList row)) rest :=
    decimal_picks.text_reads 0 row rest all stops (Nat.zero_le _)
  cases mantissa with
  | whole digits =>
    have noPoint : (optional (literal ".")).Reads whole rest .absent rest := by
      refine (refuses_literal_at rfl ?_).optional
      rintro c head rfl
      exact absurd (digits.all '.' ((ends '.' head).2 rfl)) (by decide)
    exact (run _ rest digits.all noDigit).script_comesTo.trans noPoint.script_comesTo
  | pointed digits later =>
    rw [List.append_assoc]
    exact (run _ _ digits.all (atPoint _)).script_comesTo.trans
      ((point _).script_comesTo.trans (run _ rest later noDigit).script_comesTo)
  | fraction digits =>
    exact (run [] _ nofun (atPoint _)).script_comesTo.trans
      ((point _).script_comesTo.trans (run _ rest digits.all noDigit).script_comesTo)

/-- Behind its digits a decimal number comes to what its power of ten comes to. -/
theorem script_realBy {digits before behind last : List Char}
    {convert : String → Except Fault Float} (sign : Sign mark direction)
    (mantissa : Mantissa digits before behind)
    (ends : ∀ c ∈ last.head?, c.isDigit = false ∧ (c = '.' → '.' ∈ digits)) :
    (realBy convert limit).ComesTo whole (mark ++ (digits ++ last))
      (script "decimal" do
        let power ← Script.int
          (choice (chain (literal "e" .folded) [integer 10 limit]) [succeed (.int 0)])
        let size ← Script.ofExcept
          (convert (Decimal.numeral (String.ofList before) (String.ofList behind) power))
        return succeed (.float (signedFloat direction size))) last := by
  obtain ⟨_, _, some⟩ := mantissa.digits
  have unsigned : ∀ c ∈ (digits ++ last).head?, c ≠ '+' ∧ c ≠ '-' := by
    obtain ⟨first, others, rfl, start⟩ := mantissa.head
    rintro c ⟨⟩
    constructor
    · rintro rfl
      exact absurd start (by decide)
    · rintro rfl
      exact absurd start (by decide)
  refine (reads_sign sign fun _ => unsigned).script_comesTo.trans
    ((script_mantissa mantissa ends).trans ?_)
  rw [if_neg]
  · exact fun s within => ⟨s, within, rfl⟩
  · simpa [Classical.or_iff_not_imp_left] using some

/-- A decimal number is read to where its power of ten is, and its numeral is converted. -/
theorem reads_realBy {digits before behind last : List Char}
    {convert : String → Except Fault Float} {x : Float}
    (sign : Sign mark direction) (mantissa : Mantissa digits before behind)
    (ends : ∀ c ∈ last.head?, c.isDigit = false ∧ (c = '.' → '.' ∈ digits))
    (power : (choice (chain (literal "e" .folded) [integer 10 limit]) [succeed (.int 0)]).Reads
      whole last (.int n) rest)
    (converted :
      convert (Decimal.numeral (String.ofList before) (String.ofList behind) n) = .ok x) :
    (realBy convert limit).Reads whole (mark ++ (digits ++ last))
      (.float (signedFloat direction x)) rest :=
  (script_realBy sign mantissa ends).answers
    (power.script_int (script_check converted ((reads_succeed _).script_done _)))

/-- A decimal number is read to where its power of ten is. -/
theorem reads_real_over {digits before behind last : List Char}
    (sign : Sign mark direction) (mantissa : Mantissa digits before behind)
    (ends : ∀ c ∈ last.head?, c.isDigit = false ∧ c ≠ '.')
    (power : (choice (chain (literal "e" .folded) [integer 10 limit]) [succeed (.int 0)]).Reads
      whole last (.int n) rest) :
    (real limit).Reads whole (mark ++ (digits ++ last))
      (.float (signedFloat direction (Decimal.ofParts before behind n).toFloat)) rest := by
  obtain ⟨front, back, some⟩ := mantissa.digits
  refine reads_realBy sign mantissa ?_ power (readFloat_numeral front back some n)
  exact fun c head => ⟨(ends c head).1, fun same => absurd same (ends c head).2⟩

/-- Behind the digits of a decimal number comes its power of ten, or what ends it. -/
theorem endsMantissa {last : List Char} (power : PowerText last n) (ends : EndsReal rest) :
    ∀ c ∈ (last ++ rest).head?, c.isDigit = false ∧ c ≠ '.' := by
  cases power with
  | none =>
    intro c head
    exact ⟨(ends c head).1, (ends c head).2.1⟩
  | power letters exponent => exact (PowerText.power letters exponent).endsMantissa

/-- A decimal number is read to its end. -/
theorem reads_real {text : List Char} {x : Float} (numeral : RealText text x)
    (ends : EndsReal rest) (fits : overlong? limit (behindLetter text) = none) :
    (real limit).Reads whole (text ++ rest) (.float x) rest := by
  cases numeral with
  | signed sign mantissa power =>
    rw [mantissa.behindLetter sign] at fits
    rw [List.append_assoc, List.append_assoc]
    exact reads_real_over sign mantissa (endsMantissa power ends) (reads_power power ends fits)

/-- A decimal number whose power of ten has too many digits stops the parser. -/
theorem raises_real {text : List Char} {x : Float} {most : Nat} (numeral : RealText text x)
    (ends : EndsReal rest) (beyond : overlong? limit (behindLetter text) = some most) :
    (real limit).Raises whole (text ++ rest)
      (.badNumeral 10 (.long most (behindSign (behindLetter text)).length)) := by
  cases numeral with
  | signed sign mantissa power =>
    rw [mantissa.behindLetter sign] at beyond ⊢
    rw [List.append_assoc, List.append_assoc]
    have stops := endsMantissa power ends
    refine (script_realBy sign mantissa ?_).raises
      (raises_power power (fun _ => ends.endsWhole) beyond).script
    exact fun c head => ⟨(stops c head).1, fun same => absurd same (stops c head).2⟩

/-- A decimal number on its own is parsed to the binary fraction nearest to it. -/
theorem real_alone {text : List Char} {x : Float} (numeral : RealText text x)
    (fits : overlong? limit (behindLetter text) = none) :
    ((real limit).parseValue (.ofString (String.ofList text))).result = .ok (.float x) := by
  refine Reads.parseValue ?_
  have reads : (real limit).Reads text.toArray (text ++ []) (.float x) [] :=
    reads_real numeral (by rintro c ⟨⟩) fits
  rw [List.append_nil] at reads
  rwa [String.toList_ofList]

/-- What a decimal number on its own is parsed to, if to anything, is what its grammar says, and its
power of ten does not have too many digits. -/
theorem alone_real {text : List Char} {x : Float} {v : Value} (numeral : RealText text x)
    (alone : ((real limit).parseValue (.ofString (String.ofList text))).result = .ok v) :
    v = .float x ∧ overlong? limit (behindLetter text) = none := by
  cases beyond : overlong? limit (behindLetter text) with
  | none =>
    rw [real_alone numeral beyond] at alone
    exact ⟨(Except.ok.inj alone).symm, rfl⟩
  | some most =>
    have raises : (real limit).Raises text.toArray (text ++ [])
        (.badNumeral 10 (.long most (behindSign (behindLetter text)).length)) :=
      raises_real numeral nofun beyond
    rw [List.append_nil] at raises
    rw [Raises.parseValue (by rwa [String.toList_ofList])] at alone
    cases alone

/-- Where neither a sign nor a digit nor a point comes there is no decimal number. -/
theorem refuses_real (ends : EndsWhole chars)
    (unlike : ∀ c ∈ chars.head?, c ≠ '+' ∧ c ≠ '-' ∧ c ≠ '.') :
    (real limit).Refuses whole chars := by
  have noSign : signOrPlus.Reads whole ([] ++ chars) (.int 1) chars :=
    reads_sign .none fun _ c head => ⟨(unlike c head).1, (unlike c head).2.1⟩
  have noDigits : (text digit).Reads whole ([] ++ chars) (.text "") chars :=
    decimal_picks.text_reads 0 [] chars nofun ends (Nat.zero_le _)
  have noPoint : (optional (literal ".")).Reads whole chars .absent chars :=
    (refuses_literal_at rfl fun c head => (unlike c head).2.2).optional
  exact noSign.script_int (noDigits.script_text (noPoint.script_parse
    ((refuses_failing _ _).script_done _)))

/-! ## Numerals in a text that is not known -/

theorem settles_sign :
    signOrPlus.Settles whole chars fun v rest =>
      ∃ direction, v = .int direction ∧ rest = behindSign chars ∧
        ∃ mark, chars = mark ++ rest ∧ Sign mark direction := by
  obtain ⟨mark, direction, sign, divided, reads⟩ := reads_signOrPlus whole chars
  exact reads.settles ⟨direction, rfl, rfl, mark, divided, sign⟩

/-- The digits that a text begins with are read, if they are within a limit. -/
theorem settles_natural (fits : exceeded? limit 10 (chars.takeWhile Char.isDigit).length = none) :
    (natural 10 limit).Settles whole chars fun v rest =>
      ∃ n : Int, v = .int n ∧ ∃ row, chars = row ++ rest ∧ Digits row ∧
        exceeded? limit 10 row.length = none ∧ n = Decimal.ofDigits row := by
  refine Settles.map ((decimal_picks.text_settles 1).mono ?_)
  rintro _ rest ⟨row, divided, rfl, enough, all⟩
  have digits : Digits row := ⟨List.length_pos_iff.mp enough, all⟩
  have within : row.length ≤ (chars.takeWhile Char.isDigit).length := by
    rw [divided, List.takeWhile_append_of_pos all, List.length_append]
    exact Nat.le_add_right _ _
  have few : exceeded? limit 10 row.length = none := exceeded?_fewer fits within
  refine ⟨.int (Decimal.ofDigits row), ?_, _, rfl, row, divided, digits, few, rfl⟩
  simp only [readNumeral_decimal digits few]
  rfl

theorem settles_integer
    (fits : exceeded? limit 10 ((behindSign chars).takeWhile Char.isDigit).length = none) :
    (integer 10 limit).Settles whole chars fun v rest =>
      ∃ n, v = .int n ∧ ∃ text, chars = text ++ rest ∧ WholeText text n ∧
        overlong? limit text = none := by
  refine Settles.script_int settles_sign ?_
  rintro direction _ ⟨rfl, mark, divided, sign⟩
  refine Settles.script_int (settles_natural fits) ?_
  rintro _ rest ⟨row, behind, digits, few, rfl⟩
  refine Settles.script_done _
    (settles_succeed ⟨_, rfl, mark ++ row, ?_, .signed sign digits, ?_⟩)
  · rw [divided, behind, List.append_assoc]
  · rwa [overlong?, sign.behindSign digits.unsigned]

/-- Digits that are too many stop the parser. -/
theorem raises_natural_at {most : Nat}
    (beyond : exceeded? limit 10 (chars.takeWhile Char.isDigit).length = some most) :
    ∃ fault, (natural 10 limit).Raises whole chars fault := by
  have digits : Digits (chars.takeWhile Char.isDigit) := by
    refine ⟨?_, fun c member => List.mem_takeWhile_imp member⟩
    intro none
    rw [none] at beyond
    exact absurd ((exceeded?_zero limit 10).symm.trans beyond) nofun
  have raises : (natural 10 limit).Raises whole _ _ :=
    raises_natural digits (head_dropWhile Char.isDigit chars) beyond
  rw [List.takeWhile_append_dropWhile] at raises
  exact ⟨_, raises⟩

/-- The digits that a text begins with are read, or there are more than a limit allows. -/
theorem attempts_natural (limit : Option Nat) (whole : Array Char) (chars : List Char) :
    (natural 10 limit).Attempts whole chars fun v rest =>
      ∃ n : Int, v = .int n ∧ ∃ row, chars = row ++ rest ∧ Digits row ∧
        exceeded? limit 10 row.length = none ∧ n = Decimal.ofDigits row := by
  cases beyond : exceeded? limit 10 (chars.takeWhile Char.isDigit).length with
  | none => exact .inr (settles_natural beyond)
  | some most => exact .inl (raises_natural_at beyond)

/-- A whole number is read, or it has more digits than a limit allows. -/
theorem attempts_integer (limit : Option Nat) (whole : Array Char) (chars : List Char) :
    (integer 10 limit).Attempts whole chars fun v rest =>
      ∃ n, v = .int n ∧ ∃ text, chars = text ++ rest ∧ WholeText text n ∧
        overlong? limit text = none := by
  cases beyond : exceeded? limit 10 ((behindSign chars).takeWhile Char.isDigit).length with
  | none => exact .inr (settles_integer beyond)
  | some most =>
    have stopped : ∃ fault, (natural 10 limit).Raises whole (behindSign chars) fault :=
      raises_natural_at beyond
    exact .inl (stopped.imp fun fault raises => integer_raises raises)

/-- A power of ten that is there has its letter and a whole number. -/
theorem settles_exponent :
    (chain (literal "e" .folded) [integer]).Settles whole chars fun v rest =>
      ∃ n, v = .int n ∧ ∃ letter text, chars = letter :: text ++ rest ∧
        PowerText (letter :: text) n := by
  refine exponent_picks.settles.before ?_
  rintro _ middle ⟨c, rfl, -, letter⟩
  refine (settles_integer rfl).mono ?_
  rintro _ rest ⟨n, rfl, text, rfl, exponent, _⟩
  exact ⟨n, rfl, c, text, rfl, .power (by simpa using letter) exponent⟩

theorem settles_power :
    (choice (chain (literal "e" .folded) [integer]) [succeed (.int 0)]).Settles whole chars
      fun v rest => ∃ n, v = .int n ∧ ∃ last, chars = last ++ rest ∧ PowerText last n := by
  refine Settles.either (settles_exponent.mono ?_)
    (settles_succeed ⟨0, rfl, [], rfl, .none⟩)
  rintro _ rest ⟨n, rfl, letter, text, divided, power⟩
  exact ⟨n, rfl, _, divided, power⟩

/-- Digits with or without a point are taken. They are a mantissa if there are any. -/
theorem settles_mantissa {name : String} {post : Value → List Char → Prop}
    {next : String → String → Script Parser}
    (others : ∀ before behind digits left : List Char, chars = digits ++ left →
      (∀ c ∈ before, c.isDigit = true) → (∀ c ∈ behind, c.isDigit = true) →
      (before ≠ [] ∨ behind ≠ [] → Mantissa digits before behind) →
      (script name (next (String.ofList before) (String.ofList behind))).Settles whole left post) :
    (script name do
      let before ← Script.text (text digit)
      let point ← Script.parse (optional (literal "."))
      let behind ← if point.isTrue then Script.text (text digit) else pure ""
      next before behind).Settles whole chars post := by
  have run (chars : List Char) : (text digit).Settles whole chars fun v rest =>
      ∃ t, v = .text t ∧ ∃ row, chars = row ++ rest ∧ t = String.ofList row ∧
        ∀ c ∈ row, c.isDigit = true := by
    refine (decimal_picks.text_settles 0).mono ?_
    rintro _ rest ⟨row, divided, rfl, _, all⟩
    exact ⟨_, rfl, row, divided, rfl, all⟩
  refine Settles.script_text (run chars) ?_
  rintro _ left ⟨before, rfl, rfl, front⟩
  have point : (optional (literal ".")).Settles whole left fun v rest =>
      v = .absent ∧ left = rest ∨ v = .text "." ∧ left = '.' :: rest := by
    exact Settles.optional ((settles_exact ".").mono fun _ _ => .inr) (.inl ⟨rfl, rfl⟩)
  refine Settles.script_parse point ?_
  rintro _ middle (⟨rfl, rfl⟩ | ⟨rfl, rfl⟩)
  · refine others before [] before left rfl front nofun fun some => ?_
    exact .whole ⟨some.resolve_right (absurd rfl), front⟩
  · refine Settles.script_text (run middle) ?_
    rintro _ rest ⟨behind, rfl, rfl, back⟩
    refine others before behind (before ++ '.' :: behind) rest (by simp) front back ?_
    intro some
    by_cases first : before = []
    · subst first
      exact .fraction ⟨some.resolve_left (absurd rfl), back⟩
    · exact .pointed ⟨first, front⟩ back

/-- What is taken as a decimal number is one. -/
theorem settles_real :
    real.Settles whole chars fun _ rest => ∃ text x, chars = text ++ rest ∧ RealText text x := by
  refine Settles.script_int settles_sign ?_
  rintro direction _ ⟨-, mark, rfl, sign⟩
  refine settles_mantissa ?_
  rintro before behind digits _ rfl front back mantissa
  split
  next => exact (refuses_failing _ _).settles.script_done _
  next nonempty =>
    have some : before ≠ [] ∨ behind ≠ [] := by
      simpa [Classical.or_iff_not_imp_left] using nonempty
    refine Settles.script_int settles_power ?_
    rintro n rest ⟨last, rfl, power⟩
    refine settles_check (readFloat_numeral front back some n) ?_
    refine Settles.script_done _ (settles_succeed
      ⟨mark ++ (digits ++ last), _, ?_, .signed sign (mantissa some) power⟩)
    rw [List.append_assoc, List.append_assoc]

end Parser
end Descent
