import Descent.Parser.Numerals
import Descent.Proofs.Rounding
import Mathlib.Tactic.Ring

/-!
# Numerals as texts

The grammars of numerals, with what each text denotes. Decimal numbers denote exact ones; the binary
fraction that is nearest to them is another matter.

A numeral that is written out in full, with digits on both sides of the point and a power of ten, is
in the grammar, denotes the same number and is read back. It may have a zero where there were no
digits, which is why rounding has to go by the number alone.

Digits may be too many for a limit. Those of a whole number stand behind its sign. In a decimal
number only those of the power of ten are read as a whole number, and they stand behind its letter.
-/

namespace Descent

/-! ## Grammars of numerals -/

/-- A row of decimal digits, at least one. -/
structure Digits (row : List Char) : Prop where
  some : row ≠ []
  all : ∀ c ∈ row, c.isDigit = true

/-- A sign or none, and the factor that it stands for. -/
inductive Sign : List Char → Int → Prop where
  | plus : Sign ['+'] 1
  | minus : Sign ['-'] (-1)
  | none : Sign [] 1

/-- A whole number in decimal digits with or without a sign. -/
inductive WholeText : List Char → Int → Prop where
  | signed {mark row : List Char} {direction : Int} (sign : Sign mark direction)
    (digits : Digits row) :
    WholeText (mark ++ row) (direction * Decimal.ofDigits row)

/-- Digits with or without a point, given with those in front of the point and those behind it.
There is at least one. -/
inductive Mantissa : List Char → List Char → List Char → Prop where
  | whole {row : List Char} (digits : Digits row) : Mantissa row row []
  | pointed {row fraction : List Char} (digits : Digits row)
    (others : ∀ c ∈ fraction, c.isDigit = true) : Mantissa (row ++ '.' :: fraction) row fraction
  | fraction {fraction : List Char} (digits : Digits fraction) :
    Mantissa ('.' :: fraction) [] fraction

/-- A power of ten or none. -/
inductive PowerText : List Char → Int → Prop where
  | none : PowerText [] 0
  | power {letter : Char} {text : List Char} {n : Int} (letters : letter = 'e' ∨ letter = 'E')
    (exponent : WholeText text n) : PowerText (letter :: text) n

/-- A decimal number, and the binary fraction that is nearest to it. -/
inductive RealText : List Char → Float → Prop where
  | signed {mark digits before behind last : List Char} {direction n : Int}
    (sign : Sign mark direction)
    (mantissa : Mantissa digits before behind) (power : PowerText last n) :
    RealText (mark ++ (digits ++ last))
      (Parser.signedFloat direction (Decimal.ofParts before behind n).toFloat)

/-- The number of the given digits on both sides of a point and power of ten. -/
def sizeOfParts (before behind : List Char) (n : Int) : ℚ :=
  (Decimal.ofDigits before + Decimal.ofDigits behind / 10 ^ behind.length) * 10 ^ n

/-- A decimal number, with the factor of its sign and the exact number that it is of. -/
inductive DecimalText : List Char → Int → ℚ → Prop where
  | signed {mark digits before behind last : List Char} {direction n : Int}
    (sign : Sign mark direction)
    (mantissa : Mantissa digits before behind) (power : PowerText last n) :
    DecimalText (mark ++ (digits ++ last)) direction (sizeOfParts before behind n)

/-- A text begins with nothing that would make a whole number longer. -/
def EndsWhole (rest : List Char) : Prop := ∀ c ∈ rest.head?, c.isDigit = false

/-- A text begins with nothing that would make a decimal number longer. -/
def EndsReal (rest : List Char) : Prop :=
  ∀ c ∈ rest.head?, c.isDigit = false ∧ c ≠ '.' ∧ c ≠ 'e' ∧ c ≠ 'E'

/-- A text from behind its sign on, if it begins with one. -/
def behindSign : List Char → List Char
  | '+' :: rest => rest
  | '-' :: rest => rest
  | chars => chars

/-- A text from behind its first e on. -/
def behindLetter (text : List Char) : List Char :=
  (text.dropWhile fun c => !(c == 'e' || c == 'E')).drop 1

/-- The limit that the digits of a whole number are beyond. -/
def overlong? (limit : Option Nat) (text : List Char) : Option Nat :=
  exceeded? limit 10 (behindSign text).length

variable {row rest mark last before behind : List Char} {direction n : Int}

/-! ## Digits that are too many -/

section Limit

variable {limit : Option Nat} {base : Int} {count fewer most : Nat}

theorem exceeded?_eq_some : exceeded? limit base count = some most ↔
    limit = some most ∧ base ∉ unlimitedBases ∧ most < count := by
  cases limit with
  | none => simp [exceeded?]
  | some allowed =>
    simp only [exceeded?, Option.filter_some, Option.ite_none_right_eq_some, decide_eq_true_eq,
      Option.some.injEq]
    constructor
    · rintro ⟨beyond, rfl⟩
      exact ⟨rfl, beyond⟩
    · rintro ⟨rfl, beyond⟩
      exact ⟨beyond, rfl⟩

/-- No limit is below zero. -/
theorem exceeded?_zero (limit : Option Nat) (base : Int) : exceeded? limit base 0 = none := by
  cases beyond : exceeded? limit base 0 with
  | none => rfl
  | some most => exact absurd (exceeded?_eq_some.mp beyond).2.2 (Nat.not_lt_zero most)

/-- Fewer digits are beyond no limit if more are not. -/
theorem exceeded?_fewer (fits : exceeded? limit base count = none) (less : fewer ≤ count) :
    exceeded? limit base fewer = none := by
  cases beyond : exceeded? limit base fewer with
  | none => rfl
  | some most =>
    obtain ⟨set, holds, more⟩ := exceeded?_eq_some.mp beyond
    have exceeds : exceeded? limit base count = some most :=
      exceeded?_eq_some.mpr ⟨set, holds, Nat.lt_of_lt_of_le more less⟩
    exact absurd (fits.symm.trans exceeds) nofun

end Limit

/-! ## How they begin -/

theorem EndsReal.endsWhole (ends : EndsReal rest) : EndsWhole rest := fun c head => (ends c head).1

/-- A sign does not come where digits or a point have to. -/
theorem Digits.head (digits : Digits row) : ∃ c others, row = c :: others ∧ c.isDigit = true := by
  cases row with
  | nil => exact absurd rfl digits.some
  | cons c others => exact ⟨c, others, rfl, digits.all c List.mem_cons_self⟩

/-- A whole number begins with a sign or a digit. -/
theorem WholeText.head {text : List Char} (numeral : WholeText text n) :
    ∃ c others, text = c :: others ∧ (c.isDigit = true ∨ c = '+' ∨ c = '-') := by
  cases numeral with
  | signed sign digits =>
    cases sign with
    | plus => exact ⟨'+', _, rfl, Or.inr (Or.inl rfl)⟩
    | minus => exact ⟨'-', _, rfl, Or.inr (Or.inr rfl)⟩
    | none =>
      obtain ⟨c, others, rfl, digit⟩ := digits.head
      exact ⟨c, others, rfl, Or.inl digit⟩

/-- Where no sign comes nothing is behind one. -/
theorem behindSign_unsigned (unsigned : ∀ c ∈ row.head?, c ≠ '+' ∧ c ≠ '-') :
    behindSign row = row := by
  unfold behindSign
  split
  next rest => exact absurd rfl (unsigned '+' rfl).1
  next rest => exact absurd rfl (unsigned '-' rfl).2
  next => rfl

/-- What a sign stands in front of is behind it. -/
theorem Sign.behindSign (sign : Sign mark direction)
    (unsigned : ∀ c ∈ row.head?, c ≠ '+' ∧ c ≠ '-') : behindSign (mark ++ row) = row := by
  cases sign with
  | plus => rfl
  | minus => rfl
  | none => exact behindSign_unsigned unsigned

/-- Behind the sign of a beginning comes a beginning of what is behind the sign. -/
theorem behindSign_cut {text : List Char} (cut : row <+: text) :
    behindSign row <+: behindSign text := by
  obtain ⟨left, rfl⟩ := cut
  unfold behindSign
  split
  next rest => exact List.prefix_append rest left
  next rest => exact List.prefix_append rest left
  next plus minus =>
    cases row with
    | nil => exact List.nil_prefix
    | cons c row =>
      rw [List.cons_append]
      split
      next rest same => exact absurd (congrArg (· :: row) (List.cons.inj same).1) (plus row)
      next rest same => exact absurd (congrArg (· :: row) (List.cons.inj same).1) (minus row)
      next => exact List.prefix_append (c :: row) left

/-- A digit is no sign. -/
theorem Digits.unsigned (digits : Digits row) : ∀ c ∈ row.head?, c ≠ '+' ∧ c ≠ '-' := by
  obtain ⟨first, others, rfl, digit⟩ := digits.head
  rintro c ⟨⟩
  constructor
  · rintro rfl
    exact absurd digit (by decide)
  · rintro rfl
    exact absurd digit (by decide)

/-- A mantissa begins with a digit or with the point. -/
theorem Mantissa.head {digits before behind : List Char}
    (mantissa : Mantissa digits before behind) :
    ∃ c others, digits = c :: others ∧ (c.isDigit = true ∨ c = '.') := by
  cases mantissa with
  | whole digits =>
    obtain ⟨c, others, rfl, digit⟩ := digits.head
    exact ⟨c, others, rfl, Or.inl digit⟩
  | pointed digits later =>
    obtain ⟨c, others, rfl, digit⟩ := digits.head
    exact ⟨c, _, rfl, Or.inl digit⟩
  | fraction digits => exact ⟨'.', _, rfl, Or.inr rfl⟩

/-- A decimal number begins with a sign, a digit or a point. -/
theorem RealText.head {text : List Char} {x : Float} (numeral : RealText text x) :
    ∃ c others, text = c :: others ∧ (c.isDigit = true ∨ c = '.' ∨ c = '+' ∨ c = '-') := by
  cases numeral with
  | signed sign mantissa power =>
    cases sign with
    | plus => exact ⟨'+', _, rfl, Or.inr (Or.inr (Or.inl rfl))⟩
    | minus => exact ⟨'-', _, rfl, Or.inr (Or.inr (Or.inr rfl))⟩
    | none =>
      obtain ⟨c, others, rfl, start⟩ := mantissa.head
      exact ⟨c, _, rfl, start.imp_right Or.inl⟩

/-- No letter stands in a mantissa. -/
theorem Mantissa.letterless {digits before behind : List Char}
    (mantissa : Mantissa digits before behind) : ∀ c ∈ digits, ¬ (c = 'e' ∨ c = 'E') := by
  have digit {c : Char} (digit : c.isDigit = true) : ¬ (c = 'e' ∨ c = 'E') := by
    rintro (rfl | rfl) <;> exact absurd digit (by decide)
  intro c member
  cases mantissa with
  | whole digits => exact digit (digits.all c member)
  | pointed digits others =>
    rcases List.mem_append.mp member with front | back
    · exact digit (digits.all c front)
    · rcases List.mem_cons.mp back with rfl | later
      · decide
      · exact digit (others c later)
  | fraction digits =>
    rcases List.mem_cons.mp member with rfl | later
    · decide
    · exact digit (digits.all c later)

/-- The first e of a decimal number is that of its power of ten. -/
theorem Mantissa.behindLetter {digits before behind : List Char}
    (mantissa : Mantissa digits before behind) (sign : Sign mark direction) (last : List Char) :
    behindLetter (mark ++ (digits ++ last)) = behindLetter last := by
  have front : ∀ c ∈ mark ++ digits, (!(c == 'e' || c == 'E')) = true := by
    intro c member
    have other : ¬ (c = 'e' ∨ c = 'E') := by
      rcases List.mem_append.mp member with marked | inside
      · cases sign with
        | plus => simp at marked; simp [marked]
        | minus => simp at marked; simp [marked]
        | none => cases marked
      · exact mantissa.letterless c inside
    simpa using other
  rw [Descent.behindLetter, ← List.append_assoc, List.dropWhile_append_of_pos front]
  rfl

/-- Behind the letter of a power of ten is its whole number. -/
theorem behindLetter_power {letter : Char} (letters : letter = 'e' ∨ letter = 'E')
    (text : List Char) : behindLetter (letter :: text) = text := by
  rcases letters with rfl | rfl <;> rfl

/-- A power of ten begins with a letter. -/
theorem PowerText.head (power : PowerText last n) : ∀ c ∈ last.head?, c = 'e' ∨ c = 'E' := by
  cases power with
  | none => nofun
  | power letters exponent =>
    rintro c ⟨⟩
    exact letters

/-- Neither a digit nor a point comes where a power of ten begins. -/
theorem PowerText.endsMantissa (power : PowerText last n) :
    ∀ c ∈ last.head?, c.isDigit = false ∧ c ≠ '.' := by
  intro c head
  rcases power.head c head with rfl | rfl <;> decide

theorem Mantissa.digits {digits before behind : List Char}
    (mantissa : Mantissa digits before behind) :
    (∀ c ∈ before, c.isDigit = true) ∧ (∀ c ∈ behind, c.isDigit = true) ∧
      (before ≠ [] ∨ behind ≠ []) := by
  cases mantissa with
  | whole digits => exact ⟨digits.all, nofun, Or.inl digits.some⟩
  | pointed digits others => exact ⟨digits.all, others, Or.inl digits.some⟩
  | fraction digits => exact ⟨nofun, digits.all, Or.inr digits.some⟩

/-! ## Reading numerals back -/

namespace Decimal

/-- Digits are taken up to where none follows. -/
theorem span_digits (all : ∀ c ∈ row, c.isDigit = true) (ends : EndsWhole rest) :
    (row ++ rest).span Char.isDigit = (row, rest) := by
  rw [List.span_eq_takeWhile_dropWhile, List.takeWhile_append_of_pos all,
    List.dropWhile_append_of_pos all]
  cases rest with
  | nil => rw [List.takeWhile_nil, List.dropWhile_nil, List.append_nil]
  | cons c rest =>
    have stops : c.isDigit = false := ends c rfl
    rw [List.takeWhile_cons_of_neg (by simp [stops]), List.dropWhile_cons_of_neg (by simp [stops]),
      List.append_nil]

theorem splitSign_signed (sign : Sign mark direction) (digits : Digits row) :
    splitSign (mark ++ row) = (direction, row) := by
  cases sign with
  | plus => rfl
  | minus => rfl
  | none =>
    obtain ⟨c, others, rfl, digit⟩ := digits.head
    have noPlus : c ≠ '+' := by
      rintro rfl
      exact absurd digit (by decide)
    have noMinus : c ≠ '-' := by
      rintro rfl
      exact absurd digit (by decide)
    rw [List.nil_append, splitSign]
    · rintro others ⟨⟩
      exact noPlus rfl
    · rintro others ⟨⟩
      exact noMinus rfl

theorem readPower?_eq (power : PowerText last n) : readPower? last = some n := by
  cases power with
  | none => rfl
  | power letters exponent =>
    cases exponent with
    | signed sign digits =>
      simp only [readPower?, splitSign_signed sign digits]
      rw [if_pos ⟨letters, digits.some, List.all_eq_true.mpr digits.all⟩]

/-- A numeral is read as the numeral of its parts. -/
theorem read?_eq {digits : List Char} (mantissa : Mantissa digits before behind)
    (power : PowerText last n) : read? (digits ++ last) = some (ofParts before behind n) := by
  have ends : EndsWhole last := fun c head => (power.endsMantissa c head).1
  have atPoint (later : List Char) : EndsWhole ('.' :: later) := by
    rintro c ⟨⟩
    decide
  have fraction {later : List Char} (all : ∀ c ∈ later, c.isDigit = true) :
      splitFraction ('.' :: (later ++ last)) = (later, last) := span_digits all ends
  cases mantissa with
  | whole digits =>
    have noFraction : splitFraction last = ([], last) := by
      rw [splitFraction]
      rintro later rfl
      exact (power.endsMantissa '.' rfl).2 rfl
    simp only [read?, span_digits digits.all ends, noFraction, readPower?_eq power]
    rw [if_neg fun none => digits.some none.1, Option.map_some]
  | pointed digits others =>
    rw [List.append_assoc, List.cons_append]
    simp only [read?, span_digits digits.all (atPoint _), fraction others, readPower?_eq power]
    rw [if_neg fun none => digits.some none.1, Option.map_some]
  | fraction digits =>
    have front : (('.' :: behind) ++ last).span Char.isDigit = ([], '.' :: (behind ++ last)) :=
      @span_digits [] _ nofun (atPoint _)
    simp only [read?, front, fraction digits.all, readPower?_eq power]
    rw [if_neg fun none => digits.some none.2, Option.map_some]

/-! ## What numerals denote -/

/-- Digits behind others move those by as many places. -/
theorem ofDigits_append (row later : List Char) :
    ofDigits (row ++ later) = ofDigits row * 10 ^ later.length + ofDigits later := by
  have onwards (number : Nat) :
      later.foldl (fun number c => 10 * number + digitValue c) number =
        number * 10 ^ later.length + ofDigits later := by
    unfold ofDigits
    induction later generalizing number with
    | nil => simp
    | cons c later inductionHypothesis =>
      rw [List.foldl_cons, List.foldl_cons, inductionHypothesis, inductionHypothesis (10 * 0 + _),
        List.length_cons]
      ring
  rw [ofDigits, List.foldl_append]
  exact onwards _

/-- A numeral in parts denotes the number of its parts. -/
theorem value_ofParts (before behind : List Char) (n : Int) :
    (ofParts before behind n).value = sizeOfParts before behind n := by
  have ten : (10 : ℚ) ^ behind.length ≠ 0 := pow_ne_zero _ (by norm_num)
  rw [value, ofParts, sizeOfParts, ofDigits_append, zpow_sub₀ (by norm_num), zpow_natCast]
  push_cast
  field_simp

/-- The decimal digits of a number denote it. -/
theorem ofDigits_toDigits (k : Nat) : ofDigits (Nat.toDigits 10 k) = k := by
  have digits : ofDigits (Nat.toDigits 10 k) = Nat.ofDigitChars 10 (Nat.toDigits 10 k) 0 := by
    refine List.foldl_ext _ _ _ ?_
    intro number c member
    have digit : c.isDigit = true := Nat.isDigit_of_mem_toDigits (by decide) (by decide) member
    have between : '0' ≤ c ∧ c ≤ '9' := by
      rwa [Char.isDigit, Bool.and_eq_true, decide_eq_true_eq, decide_eq_true_eq] at digit
    rw [digitValue, if_pos between]
    rfl
  rw [digits, Nat.ofDigitChars_ten_toDigits]

end Decimal

/-- The decimal digits of a number are in the grammar. -/
theorem digits_toDigits (k : Nat) : Digits (Nat.toDigits 10 k) :=
  ⟨Nat.toDigits_ne_nil, fun _ member =>
    Nat.isDigit_of_mem_toDigits (by decide) (by decide) member⟩

/-- A whole number is written in its grammar. -/
theorem wholeText_toString (n : Int) : WholeText (toString n).toList n := by
  rw [Int.toString_eq_repr, Int.repr_eq_if]
  split
  next positive =>
    have text : WholeText ([] ++ Nat.toDigits 10 n.toNat) (1 * _) :=
      .signed .none (digits_toDigits _)
    rw [Decimal.ofDigits_toDigits, Int.one_mul, Int.toNat_of_nonneg positive] at text
    rwa [Nat.toList_repr]
  next negative =>
    have text : WholeText (['-'] ++ Nat.toDigits 10 (-n).toNat) (-1 * _) :=
      .signed .minus (digits_toDigits _)
    rw [Decimal.ofDigits_toDigits, Int.toNat_of_nonneg (by omega)] at text
    rw [String.toList_append, Nat.toList_repr]
    simpa using text

/-! ## Numerals in full -/

/-- The digits on one side of a point, or a zero where there are none. -/
def filled (row : List Char) : List Char := if row = [] then ['0'] else row

theorem digits_filled (all : ∀ c ∈ row, c.isDigit = true) : Digits (filled row) := by
  unfold filled
  split
  · exact ⟨by decide, by simp⟩
  next some => exact ⟨some, all⟩

theorem toList_orZero (row : List Char) :
    (Decimal.orZero (String.ofList row)).toList = filled row := by
  unfold Decimal.orZero filled
  cases row with
  | nil => rfl
  | cons c row => simp

/-- A numeral in full is what its grammar has with digits on both sides of the point. -/
theorem toList_numeral (before behind : List Char) (n : Int) :
    (Decimal.numeral (String.ofList before) (String.ofList behind) n).toList =
      filled before ++ '.' :: filled behind ++ 'e' :: (toString n).toList := by
  unfold Decimal.numeral
  simp only [String.toList_append, toList_orZero]
  simp

theorem mantissa_filled (front : ∀ c ∈ before, c.isDigit = true)
    (back : ∀ c ∈ behind, c.isDigit = true) :
    Mantissa (filled before ++ '.' :: filled behind) (filled before) (filled behind) :=
  .pointed (digits_filled front) (digits_filled back).all

/-- A zero where there were no digits does not change the number. -/
theorem sizeOfParts_filled (before behind : List Char) (n : Int) :
    sizeOfParts (filled before) (filled behind) n = sizeOfParts before behind n := by
  have zero : Decimal.ofDigits ['0'] = 0 := rfl
  have nothing : Decimal.ofDigits [] = 0 := rfl
  unfold sizeOfParts filled
  split_ifs with noFront noBack noBack <;> simp [*]

/-- A zero where there were no digits does not change the binary fraction. -/
theorem toFloat_filled (some : before ≠ [] ∨ behind ≠ []) (n : Int) :
    (Decimal.ofParts (filled before) (filled behind) n).toFloat =
      (Decimal.ofParts before behind n).toFloat := by
  unfold filled
  split_ifs with noFront noBack noBack
  · exact absurd some (by simp [noFront, noBack])
  · have same : Decimal.ofParts ['0'] behind n = Decimal.ofParts [] behind n := rfl
    rw [noFront, same]
  · have tenfold : Decimal.ofParts before ['0'] n =
        ⟨10 * Decimal.ofDigits before, n - 1⟩ := by
      rw [Decimal.ofParts, Decimal.ofDigits_append, Nat.mul_comm]
      rfl
    rw [tenfold, Decimal.toFloat_tenfold, noBack]
    simp [Decimal.ofParts]
  · rfl

/-- A numeral in full is in the grammar, without a sign, and denotes the number of its parts. -/
theorem decimalText_numeral (front : ∀ c ∈ before, c.isDigit = true)
    (back : ∀ c ∈ behind, c.isDigit = true) (n : Int) :
    DecimalText (Decimal.numeral (String.ofList before) (String.ofList behind) n).toList 1
      (sizeOfParts before behind n) := by
  rw [toList_numeral, ← sizeOfParts_filled]
  exact .signed .none (mantissa_filled front back) (.power (.inl rfl) (wholeText_toString n))

/-- A numeral in full is read back as its parts. -/
theorem read?_numeral (front : ∀ c ∈ before, c.isDigit = true)
    (back : ∀ c ∈ behind, c.isDigit = true) (n : Int) :
    Decimal.read? (Decimal.numeral (String.ofList before) (String.ofList behind) n).toList =
      some (Decimal.ofParts (filled before) (filled behind) n) := by
  rw [toList_numeral]
  exact Decimal.read?_eq (mantissa_filled front back) (.power (.inl rfl) (wholeText_toString n))

/-- A numeral in full can be turned into a binary fraction. -/
theorem readFloat_numeral (front : ∀ c ∈ before, c.isDigit = true)
    (back : ∀ c ∈ behind, c.isDigit = true) (some : before ≠ [] ∨ behind ≠ []) (n : Int) :
    readFloat (Decimal.numeral (String.ofList before) (String.ofList behind) n) =
      .ok (Decimal.ofParts before behind n).toFloat := by
  rw [readFloat, read?_numeral front back]
  exact congrArg Except.ok (toFloat_filled some n)

end Descent
