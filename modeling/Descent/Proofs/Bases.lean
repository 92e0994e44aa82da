import Descent.Proofs.Numerals
import Mathlib.Data.List.Forall2
import Mathlib.Data.Nat.Digits.Defs

/-!
# Whole numbers in all bases

The figures of a number are its digits in a base, the largest power first, and each of them is
written with a digit or with a letter in either case. Whatever is written so, with zeros in front
and with a sign, is read back as the number, and the reading stops where the figures do.

For the converse, that whatever is collected can be read, the Kelvin sign is in the way. It is
collected as a small k, which is a digit from base twenty-one on, and the reader does not know it.
All other digits are known, so that a number stops with a fault just where a Kelvin sign is among
the digits that are collected for it, or where they are too many for the runtime.
-/

namespace Descent

/-! ## Figures -/

/-- A character shows a value below thirty-six: a digit, or a letter in either case. -/
def Figure (d : Nat) (c : Char) : Prop := ∃ small ∈ digitRow[d]?, c = small ∨ c = small.toUpper

/-- The values of the figures of a number, the largest power first. Zero has one figure. -/
def figures (base n : Nat) : List Nat := if n = 0 then [0] else (Nat.digits base n).reverse

/-- The figures of a number with any number of zeros in front. -/
def UnsignedText (base n : Nat) (row : List Char) : Prop :=
  ∃ zeros, List.Forall₂ Figure (List.replicate zeros 0 ++ figures base n) row

/-- A number behind a sign or none. Only negative numbers have a minus. -/
inductive SignedText (base : Nat) : Int → List Char → Prop where
  | signed {mark row : List Char} {direction : Int} {n : Nat} (sign : Sign mark direction)
    (negative : mark = ['-'] → 0 < n) (size : UnsignedText base n row) :
    SignedText base (direction * n) (mark ++ row)

variable {whole : Array Char} {chars rest row mark b : List Char} {base n d : Nat}
  {values : List Nat} {direction : Int} {c : Char} {limit : Option Nat}

/-- The reader knows all digits of the row, and the letters among them in either case. -/
theorem digitRow_read : digitRow.zipIdx.all fun digit =>
    asciiDigit? digit.1 == some digit.2 && asciiDigit? digit.1.toUpper == some digit.2 := by
  decide

/-- A figure is read as its value. -/
theorem Figure.value (figure : Figure d c) : asciiDigit? c = some d := by
  obtain ⟨small, inRow, same⟩ := figure
  have read := List.all_eq_true.mp digitRow_read (small, d)
    (List.mem_zipIdx_iff_getElem?.mpr inRow)
  simp only [Bool.and_eq_true, beq_iff_eq] at read
  rcases same with rfl | rfl
  · exact read.1
  · exact read.2

/-- What is read as a digit of a base is collected as one. -/
theorem digitOf_of_value (value : asciiDigit? c = some d) (small : d < base) :
    digitOf base c = true := by
  have other : c ≠ Text.kelvinSign := by
    rintro rfl
    rw [asciiDigit?_beyond (by decide)] at value
    cases value
  rw [digitOf_eq_of_ne base other, value]
  simpa using small

/-- Figures are read as the number that their values make. -/
theorem positional?_figures (below : ∀ d ∈ values, d < base)
    (written : List.Forall₂ Figure values row) :
    positional? base row = some (values.foldl (fun number d => number * base + d) 0) := by
  -- Started from any number, both folds go on alike.
  unfold positional?
  generalize 0 = before
  induction written generalizing before with
  | nil => rfl
  | @cons d c values row figure others inductionHypothesis =>
    obtain ⟨small, rest⟩ := List.forall_mem_cons.mp below
    simp only [List.foldlM_cons, figure.value, if_pos small, List.foldl_cons]
    exact inductionHypothesis rest _

/-- The figures of a number are below the base. -/
theorem figures_lt (least : 2 ≤ base) : ∀ d ∈ figures base n, d < base := by
  intro d member
  unfold figures at member
  split at member
  · rw [List.mem_singleton.mp member]
    omega
  · exact Nat.digits_lt_base (by omega) (List.mem_reverse.mp member)

/-- The figures of a number make the number. -/
theorem foldl_figures (base n : Nat) :
    (figures base n).foldl (fun number d => number * base + d) 0 = n := by
  unfold figures
  split
  next zero => simp [zero]
  next =>
    -- The largest power comes first, and the library's digits begin with the smallest.
    rw [List.foldl_reverse]
    calc (Nat.digits base n).foldr (fun d number => number * base + d) 0
        = Nat.ofDigits base (Nat.digits base n) := by
          simp [Nat.ofDigits_eq_foldr, Nat.mul_comm, Nat.add_comm]
      _ = n := Nat.ofDigits_digits base n

/-- Zeros in front do not matter. -/
theorem foldl_zeros (base zeros : Nat) :
    (List.replicate zeros 0).foldl (fun number d => number * base + d) 0 = 0 := by
  induction zeros with
  | zero => rfl
  | succ zeros inductionHypothesis => simpa [List.replicate_succ] using inductionHypothesis

/-- What writes a number denotes it. -/
theorem UnsignedText.denotes (least : 2 ≤ base) (written : UnsignedText base n row) :
    positional? base row = some n := by
  obtain ⟨zeros, shown⟩ := written
  have below : ∀ d ∈ List.replicate zeros 0 ++ figures base n, d < base := by
    intro d member
    rcases List.mem_append.mp member with zero | figure
    · rw [List.eq_of_mem_replicate zero]
      omega
    · exact figures_lt least d figure
  have made : (List.replicate zeros 0 ++ figures base n).foldl
      (fun number d => number * base + d) 0 = n := by
    rw [List.foldl_append, foldl_zeros, foldl_figures]
  rw [positional?_figures below shown, made]

/-- There is at least one figure. -/
theorem UnsignedText.some (written : UnsignedText base n row) : row ≠ [] := by
  rintro rfl
  obtain ⟨zeros, shown⟩ := written
  have length := shown.length_eq
  have none : figures base n = [] := by
    apply List.length_eq_zero_iff.mp
    simp only [List.length_append, List.length_nil] at length
    omega
  unfold figures at none
  split at none
  next => cases none
  next other => exact other (Nat.digits_eq_nil_iff_eq_zero.mp (List.reverse_eq_nil_iff.mp none))

/-! ## Numerals -/

/-- A row of digits that a base has a number for, within a limit. -/
structure Numeral (base : Int) (limit : Option Nat) (row : List Char) : Prop where
  taken : ∀ c ∈ row, digitOf base c = true
  read : ∃ n, readNumeral base (String.ofList row) limit = .ok n

namespace Numeral

/-- What can be read consists of digits, whose base is a base, and of no more than the limit
allows. -/
theorem digits {base : Int} (numeral : Numeral base limit row) :
    ¬ (base < 2 ∨ 36 < base) ∧ (∀ c ∈ row, ∃ d, asciiDigit? c = some d ∧ d < base.toNat) ∧
      exceeded? limit base row.length = none := by
  obtain ⟨n, read⟩ := numeral.read
  rw [readNumeral, String.toList_ofList] at read
  split at read
  next => cases read
  next known =>
    dsimp only at read
    split at read
    next => cases read
    next fits =>
      split at read
      next value found =>
        have digits := positional?_digits found
        rw [leadingDigits_all digits] at fits
        exact ⟨known, digits, fits⟩
      next => cases read

/-- A numeral that is cut short is one. -/
theorem cut {base : Int} (numeral : Numeral base limit row) (begins : b <+: row) :
    Numeral base limit b := by
  obtain ⟨known, digits, fits⟩ := numeral.digits
  have inside : ∀ c ∈ b, c ∈ row := fun c member => begins.subset member
  obtain ⟨n, found⟩ := positional?_isSome fun c member => digits c (inside c member)
  exact ⟨fun c member => numeral.taken c (inside c member), n,
    readNumeral_found known found (exceeded?_fewer fits begins.length_le)⟩

/-- A numeral does not begin with a sign. -/
theorem unsigned {base : Int} (numeral : Numeral base limit row) :
    ∀ c ∈ row.head?, c ≠ '+' ∧ c ≠ '-' := by
  intro c head
  obtain ⟨d, value, _⟩ := numeral.digits.2.1 c (List.mem_of_mem_head? head)
  constructor
  · rintro rfl
    cases value
  · rintro rfl
    cases value

end Numeral

/-- A row of decimal digits within a limit is a numeral. -/
theorem Digits.numeral (digits : Digits row) (fits : exceeded? limit 10 row.length = none) :
    Numeral 10 limit row :=
  ⟨fun c member => (digitOf_ten c).trans (digits.all c member), _,
    readNumeral_decimal digits fits⟩

/-- Whatever can be read is collected. -/
theorem UnsignedText.taken (least : 2 ≤ base) (written : UnsignedText base n row) :
    ∀ c ∈ row, digitOf base c = true := by
  intro c member
  obtain ⟨d, value, small⟩ := positional?_digits (written.denotes least) c member
  exact digitOf_of_value value small

/-- What writes a number does not begin with a sign. -/
theorem UnsignedText.unsigned (least : 2 ≤ base) (written : UnsignedText base n row) :
    ∀ c ∈ row.head?, c ≠ '+' ∧ c ≠ '-' := by
  intro c head
  obtain ⟨d, value, _⟩ :=
    positional?_digits (written.denotes least) c (List.mem_of_mem_head? head)
  constructor
  · rintro rfl
    cases value
  · rintro rfl
    cases value

/-! ## What is collected and what is read -/

/-- The digits of a base that a text begins with. -/
def collected (base : Int) (chars : List Char) : List Char := chars.takeWhile (digitOf base)

theorem digitOf_of_mem_collected {base : Int} :
    ∀ c ∈ collected base chars, digitOf base c = true := by
  intro c member
  exact List.mem_takeWhile_imp member

/-- What is collected within a limit can be read just if no Kelvin sign is among it. -/
theorem readNumeral_collected (least : 2 ≤ base) (most : base ≤ 36)
    (taken : ∀ c ∈ row, digitOf base c = true)
    (fits : exceeded? limit base (leadingDigits base row).length = none) :
    (Text.kelvinSign ∉ row → ∃ n, readNumeral base (String.ofList row) limit = .ok n) ∧
      (Text.kelvinSign ∈ row → readNumeral base (String.ofList row) limit =
        .error (.badNumeral base (.stray (String.ofList row)))) := by
  have known : ¬ ((base : Int) < 2 ∨ 36 < (base : Int)) := by omega
  simp only [readNumeral, if_neg known, String.toList_ofList, Int.toNat_natCast, fits]
  constructor
  · intro absent
    have digits : ∀ c ∈ row, ∃ d, asciiDigit? c = some d ∧ d < base := by
      intro c member
      have other : c ≠ Text.kelvinSign := fun same => absent (same ▸ member)
      have digit : ((asciiDigit? c).any fun d => d < base) = true := by
        rw [← digitOf_eq_of_ne base other]
        exact taken c member
      obtain ⟨d, value, small⟩ := Option.any_eq_true _ _ |>.mp digit
      exact ⟨d, value, of_decide_eq_true small⟩
    obtain ⟨n, found⟩ := positional?_isSome digits
    exact ⟨n, by rw [found]⟩
  · intro present
    cases found : positional? base row with
    | none => rfl
    | some n =>
      obtain ⟨d, value, _⟩ := positional?_digits found _ present
      rw [asciiDigit?_beyond (by decide)] at value
      cases value

namespace Parser

/-- Where nothing is collected there is no number. -/
theorem natural_refuses {base : Int} (none : collected base chars = []) :
    (natural base limit).Refuses whole chars := by
  apply refuses_natural_in
  intro c head
  obtain ⟨rest, rfl⟩ := List.head?_eq_some_iff.mp head
  rw [← Bool.not_eq_true]
  intro digit
  simp [collected, digit] at none

/-- All digits that come are read together. -/
theorem natural_reads {base n : Int} (some : collected base chars ≠ [])
    (read : readNumeral base (String.ofList (collected base chars)) limit = .ok n) :
    (natural base limit).Reads whole chars (.int n) (chars.dropWhile (digitOf base)) := by
  have reads : (natural base limit).Reads whole
      (collected base chars ++ chars.dropWhile (digitOf base)) (.int n)
      (chars.dropWhile (digitOf base)) :=
    reads_natural_in some digitOf_of_mem_collected read (head_dropWhile (digitOf base) chars)
  rwa [collected, List.takeWhile_append_dropWhile] at reads

/-- Digits that cannot be read together stop a parser with the fault that they give. -/
theorem natural_raises {base : Int} {fault : Fault} (some : collected base chars ≠ [])
    (unread : readNumeral base (String.ofList (collected base chars)) limit = .error fault) :
    (natural base limit).Raises whole chars fault := by
  have raises : (natural base limit).Raises whole
      (collected base chars ++ chars.dropWhile (digitOf base)) fault :=
    raises_natural_in some digitOf_of_mem_collected unread (head_dropWhile (digitOf base) chars)
  rwa [collected, List.takeWhile_append_dropWhile] at raises

/-- Digits make a numeral, or they cannot be read. -/
theorem natural_takes (base : Int) (limit : Option Nat) (whole : Array Char) (chars : List Char) :
    (natural base limit).Attempts whole chars fun v rest =>
      ∃ n, v = .int n ∧ ∃ row, chars = row ++ rest ∧ Numeral base limit row := by
  by_cases none : collected base chars = []
  · exact .inr (Refuses.settles (natural_refuses none))
  · cases read : readNumeral base (String.ofList (collected base chars)) limit with
    | error fault => exact .inl ⟨fault, natural_raises none read⟩
    | ok n =>
      have divided : chars = collected base chars ++ chars.dropWhile (digitOf base) :=
        List.takeWhile_append_dropWhile.symm
      have numeral : Numeral base limit (collected base chars) :=
        ⟨digitOf_of_mem_collected, n, read⟩
      exact .inr (Reads.settles (natural_reads none read) ⟨n, rfl, _, divided, numeral⟩)

/-- A whole number with a sign answers where the one behind the sign does. -/
theorem integer_answers {base : Int} {kind : List Char → Prop}
    (settles : (natural base limit).Settles whole (behindSign chars) fun v rest =>
      ∃ n, v = .int n ∧ kind rest) :
    (integer base limit).Settles whole chars fun v rest => ∃ n, v = .int n ∧ kind rest := by
  obtain ⟨_, direction, _, _, reads⟩ := reads_signOrPlus whole chars
  have first : signOrPlus.Settles whole chars fun v rest =>
      ∃ n, v = .int n ∧ rest = behindSign chars := reads.settles ⟨direction, rfl, rfl⟩
  refine Settles.script_int first ?_
  rintro direction _ rfl
  refine Settles.script_int settles ?_
  intro n rest known
  exact Settles.script_done _ (Reads.settles (reads_succeed _) ⟨_, rfl, known⟩)

/-- A sign or none and digits make a number, or the digits cannot be read. -/
theorem integer_takes (base : Int) (limit : Option Nat) (whole : Array Char) (chars : List Char) :
    (integer base limit).Attempts whole chars fun _ rest =>
      ∃ mark row direction, chars = mark ++ (row ++ rest) ∧ Sign mark direction ∧
        Numeral base limit row := by
  obtain ⟨mark, direction, sign, divided, _⟩ := reads_signOrPlus whole chars
  rcases natural_takes base limit whole (behindSign chars) with ⟨fault, raises⟩ | settles
  · exact .inl ⟨fault, integer_raises raises⟩
  · refine .inr ((integer_answers settles).mono ?_)
    rintro _ rest ⟨_, _, row, behind, numeral⟩
    exact ⟨mark, row, direction, by rw [← behind, ← divided], sign, numeral⟩

end Parser

/-- With a row of digits that it has collected a parser of whole numbers does what their reader
does. It stops with a fault where they are too many, counted up to the first Kelvin sign, or else
where there is such a sign. Otherwise it gives a whole number, or refuses if there are no digits. -/
structure ReadsCollected (p : Parser) (base : Nat) (limit : Option Nat) (whole : Array Char)
    (chars row : List Char) : Prop where
  long : ∀ most, exceeded? limit base (leadingDigits base row).length = some most →
    p.Raises whole chars (.badNumeral base (.long most (leadingDigits base row).length))
  stray : exceeded? limit base (leadingDigits base row).length = none → Text.kelvinSign ∈ row →
    p.Raises whole chars (.badNumeral base (.stray (String.ofList row)))
  answers : exceeded? limit base (leadingDigits base row).length = none →
    Text.kelvinSign ∉ row → p.Settles whole chars fun v _ => ∃ n, v = .int n

namespace Parser

theorem natural_readsCollected (least : 2 ≤ base) (most : base ≤ 36) :
    ReadsCollected (natural base limit) base limit whole chars (collected base chars) where
  long allowed beyond := by
    have some : collected base chars ≠ [] := by
      intro none
      rw [none] at beyond
      exact absurd ((exceeded?_zero limit base).symm.trans beyond) nofun
    exact natural_raises some (readNumeral_beyond (by omega) beyond)
  stray fits present :=
    natural_raises (List.ne_nil_of_mem present)
      ((readNumeral_collected least most digitOf_of_mem_collected fits).2 present)
  answers fits absent := by
    by_cases none : collected base chars = []
    · exact Refuses.settles (natural_refuses none)
    · obtain ⟨n, read⟩ :=
        (readNumeral_collected least most digitOf_of_mem_collected fits).1 absent
      exact Reads.settles (natural_reads none read) ⟨n, rfl⟩

/-- A sign in front changes nothing about what the digits behind it come to. -/
theorem integer_readsCollected
    (reads : ReadsCollected (natural base limit) base limit whole (behindSign chars) row) :
    ReadsCollected (integer base limit) base limit whole chars row where
  long allowed beyond := integer_raises (reads.long allowed beyond)
  stray fits present := integer_raises (reads.stray fits present)
  answers fits absent := by
    have settled : (natural base limit).Settles whole (behindSign chars) fun v _ =>
        ∃ n, v = .int n ∧ True :=
      (reads.answers fits absent).mono fun _ _ ⟨n, same⟩ => ⟨n, same, trivial⟩
    exact (integer_answers settled).mono fun _ _ ⟨n, same, _⟩ => ⟨n, same⟩

/-- What writes a number is read as it within a limit, and beyond it the number of its digits is
reported. -/
theorem reads_unsignedText (least : 2 ≤ base) (most : base ≤ 36)
    (written : UnsignedText base n row) (stops : ∀ c ∈ rest.head?, digitOf base c = false) :
    (exceeded? limit base row.length = none →
      (natural base limit).Reads whole (row ++ rest) (.int n) rest) ∧
    ∀ allowed, exceeded? limit base row.length = some allowed →
      (natural base limit).Raises whole (row ++ rest)
        (.badNumeral base (.long allowed row.length)) := by
  have known : ¬ ((base : Int) < 2 ∨ 36 < (base : Int)) := by omega
  have denotes : positional? (base : Int).toNat row = some n := written.denotes least
  constructor
  · intro fits
    exact reads_natural_in written.some (written.taken least)
      (readNumeral_found known denotes fits) stops
  · intro allowed beyond
    have all : leadingDigits (base : Int).toNat row = row :=
      leadingDigits_all (positional?_digits denotes)
    apply raises_natural_in written.some (written.taken least) _ stops
    rw [← all] at beyond
    rw [readNumeral_beyond known beyond, all]

end Parser

/-- Whole numbers are read back in every base: whatever writes a number, with zeros in front, with
letters in either case and with the sign that it may have, is read as the number up to the first
character that is no digit of the base. Where the runtime sets no limit to the number of digits
that is so for all of them; where it sets one, the reader stops with a fault just on more of them
than that. -/
theorem whole_numbers_round_trip (base : Nat) (limit : Option Nat) (least : 2 ≤ base)
    (most : base ≤ 36) (whole : Array Char) (rest : List Char)
    (ends : ∀ c ∈ rest.head?, isDigit base (.text c.toString) = .ok false) :
    (∀ (n : Int) (text : List Char), SignedText base n text →
      (exceeded? limit base (behindSign text).length = none →
        (Parser.integer base limit).Reads whole (text ++ rest) (.int n) rest) ∧
      ∀ allowed, exceeded? limit base (behindSign text).length = some allowed →
        (Parser.integer base limit).Raises whole (text ++ rest)
          (.badNumeral base (.long allowed (behindSign text).length))) ∧
    ∀ (n : Nat) (row : List Char), UnsignedText base n row →
      (exceeded? limit base row.length = none →
        (Parser.natural base limit).Reads whole (row ++ rest) (.int n) rest) ∧
      ∀ allowed, exceeded? limit base row.length = some allowed →
        (Parser.natural base limit).Raises whole (row ++ rest)
          (.badNumeral base (.long allowed row.length)) := by
  have stops : ∀ c ∈ rest.head?, digitOf base c = false := by
    intro c head
    have missed := ends c head
    rw [isDigit_text] at missed
    exact Except.ok.inj missed
  refine ⟨?_, fun n row written => Parser.reads_unsignedText least most written stops⟩
  intro n text written
  cases written with
  | @signed mark row direction size sign negative shown =>
    have unsigned : ∀ c ∈ (row ++ rest).head?, c ≠ '+' ∧ c ≠ '-' := by
      have first := shown.unsigned least
      obtain ⟨c, others, rfl⟩ := List.exists_cons_of_ne_nil shown.some
      exact first
    have front : Parser.signOrPlus.Reads whole (mark ++ (row ++ rest)) (.int direction)
        (row ++ rest) := Parser.reads_sign sign fun _ => unsigned
    obtain ⟨reads, raises⟩ := Parser.reads_unsignedText least most shown stops
    rw [sign.behindSign (shown.unsigned least), List.append_assoc]
    constructor
    · intro fits
      exact front.script_int ((reads fits).script_int ((Parser.reads_succeed _).script_done _))
    · intro allowed beyond
      exact front.script_comesTo.raises (raises allowed beyond).script

theorem whole_numbers_round_trip_hexadecimal :
    (2 ≤ 16 ∧ 16 ≤ 36 ∧ ∀ c ∈ [' ', 'f'].head?, isDigit 16 (.text c.toString) = .ok false) ∧
    SignedText 16 (-255) "-00fF".toList ∧
    (Parser.integer 16).Reads "-00fF f".toList.toArray ("-00fF".toList ++ [' ', 'f']) (.int (-255))
      [' ', 'f'] := by
  have ends : ∀ c ∈ [' ', 'f'].head?, isDigit 16 (.text c.toString) = .ok false := by
    rintro c ⟨⟩
    rfl
  have values : figures 16 255 = [15, 15] := by decide
  have written : UnsignedText 16 255 "00fF".toList := by
    refine ⟨2, ?_⟩
    rw [values]
    have zero : Figure 0 '0' := ⟨'0', rfl, .inl rfl⟩
    exact .cons zero (.cons zero (.cons ⟨'f', rfl, .inl rfl⟩ (.cons ⟨'f', rfl, .inr rfl⟩ .nil)))
  have negative : SignedText 16 (-255) "-00fF".toList :=
    .signed .minus (fun _ => by decide) written
  refine ⟨⟨by decide, by decide, ends⟩, negative, ?_⟩
  exact ((whole_numbers_round_trip 16 none (by decide) (by decide) _ _ ends).1 _ _ negative).1 rfl

/-- A whole number stops with a fault just where a Kelvin sign is among the digits that are
collected for it, with or without a sign in front, or where there are more of them than the runtime
converts; the fault names them or their number. Everywhere else the number is read or refused. Up to
base twenty no Kelvin sign is ever collected. -/
theorem numerals_raise_on_kelvin_sign (base : Nat) (limit : Option Nat) (least : 2 ≤ base)
    (most : base ≤ 36) (whole : Array Char) (chars : List Char) :
    ReadsCollected (Parser.natural base limit) base limit whole chars (collected base chars) ∧
    ReadsCollected (Parser.integer base limit) base limit whole chars
      (collected base (behindSign chars)) ∧
    (base ≤ 20 → ∀ chars, Text.kelvinSign ∉ collected base chars) := by
  refine ⟨Parser.natural_readsCollected least most,
    Parser.integer_readsCollected (Parser.natural_readsCollected least most), ?_⟩
  intro small chars member
  have digit := digitOf_of_mem_collected _ member
  rw [digitOf_kelvinSign] at digit
  exact absurd small (Nat.not_le.mpr (of_decide_eq_true digit))

-- In base sixteen the Kelvin sign ends the number.
theorem numerals_raise_on_kelvin_sign_sixteen :
    (2 ≤ 16 ∧ 16 ≤ 36) ∧ Text.kelvinSign ∉ collected 16 ['f', Text.kelvinSign] ∧
      (Parser.natural 16).Settles #['f', Text.kelvinSign] ['f', Text.kelvinSign] fun v _ =>
        ∃ n, v = .int n := by
  have absent : Text.kelvinSign ∉ collected 16 ['f', Text.kelvinSign] := by decide
  have known := numerals_raise_on_kelvin_sign 16 none (by decide) (by decide)
    #['f', Text.kelvinSign] ['f', Text.kelvinSign]
  exact ⟨by decide, absent, known.1.answers rfl absent⟩

/-- In base twenty-one a Kelvin sign is collected as a digit and cannot be read. -/
theorem kelvin_sign_not_read :
    ((Parser.natural 21).parseValue (.ofString "\u212a")).result =
        .error (.badNumeral 21 (.stray "\u212a")) ∧
      ((Parser.integer 21).parseValue (.ofString "-\u212a")).result =
        .error (.badNumeral 21 (.stray "\u212a")) := by
  have raises (whole : Array Char) :
      (Parser.natural (21 : Nat)).Raises whole [Text.kelvinSign]
        (.badNumeral 21 (.stray "\u212a")) :=
    (Parser.natural_readsCollected (by decide) (by decide)).stray rfl (by decide)
  constructor
  · exact (raises _).parseValue
  · exact (Parser.integer_raises (raises _)).parseValue

end Descent
