import Descent.Proofs.CutOrdinals
import Descent.Proofs.DigitLimits

/-!
# Numbers that give up when they are cut short

Decimal numbers and ordinals give up on some beginnings of what they accept. A decimal number
decides by itself that digits are missing and says nothing of the end of the input, so a handle that
has read a sign or a point, or nothing yet, reports a failure. As soon as there is a digit a number
is read. An ordinal blames the end of the input on a part of it just if the part is awaited.
-/

namespace Descent

open Words

variable {whole : Array Char} {chars b row rest : List Char} {t : String} {v : Value} {p : Parser}
  {limit : Option Nat}

/-! ## Decimal numbers -/

/-- A mantissa that is cut behind a digit is one. -/
theorem Mantissa.cut {digits before behind : List Char}
    (mantissa : Mantissa digits before behind) (begins : b <+: digits)
    (some : ∃ c ∈ b, c.isDigit = true) : ∃ front back, Mantissa b front back := by
  have nonempty : b ≠ [] := by
    rintro rfl
    obtain ⟨c, inside, _⟩ := some
    cases inside
  cases mantissa with
  | whole digits =>
    exact ⟨b, [], .whole ⟨nonempty, fun c inside => digits.all c (begins.subset inside)⟩⟩
  | @pointed _ fraction digits others =>
    rcases prefix_append_cases begins with shorter | ⟨back, rfl, later⟩
    · exact ⟨b, [], .whole ⟨nonempty, fun c inside => digits.all c (shorter.subset inside)⟩⟩
    · cases back with
      | nil =>
        rw [List.append_nil]
        exact ⟨before, [], .whole digits⟩
      | cons c back =>
        obtain ⟨rfl, inside⟩ := List.cons_prefix_cons.mp later
        exact ⟨before, back, .pointed digits fun c member => others c (inside.subset member)⟩
  | @fraction fraction digits =>
    cases b with
    | nil => exact absurd rfl nonempty
    | cons c back =>
      obtain ⟨rfl, inside⟩ := List.cons_prefix_cons.mp begins
      obtain ⟨d, member, digit⟩ := some
      have behind : d ∈ back := by
        refine (List.mem_cons.mp member).resolve_left ?_
        rintro rfl
        exact absurd digit (by decide)
      exact ⟨[], back, .fraction ⟨List.ne_nil_of_mem behind,
        fun c member => digits.all c (inside.subset member)⟩⟩

namespace Parser

/-- A power of ten that is cut, and the lack of one, is read as a power of ten or as none. -/
theorem reads_power_cut (whole : Array Char) {last : List Char} {n : Int}
    (power : PowerText last n) (cut : b <+: last)
    (fits : overlong? limit (behindLetter last) = none) :
    ∃ m rest, (choice (chain (literal "e" .folded) [integer 10 limit]) [succeed (.int 0)]).Reads
      whole b (.int m) rest := by
  have exponent : (chain (literal "e" .folded) [integer 10 limit]).Settles whole b
      fun v _ => v.IsInt := by
    refine exponent_picks.settles.before ?_
    rintro _ left ⟨c, rfl, -, _⟩
    cases power with
    | none => exact absurd (List.prefix_nil.mp cut) (List.cons_ne_nil c left)
    | @power _ text _ letters numeral =>
      rw [behindLetter_power letters] at fits
      obtain ⟨_, later⟩ := List.cons_prefix_cons.mp cut
      refine (settles_integer (exceeded?_fewer fits ?_)).mono fun _ _ ⟨m, value, _⟩ => ⟨m, value⟩
      exact ((List.takeWhile_prefix _).trans (behindSign_cut later)).length_le
  obtain ⟨_, rest, reads, m, rfl⟩ := exponent.orElse (reads_succeed (.int 0)) ⟨0, rfl⟩
  exact ⟨m, rest, reads⟩

/-- A decimal number is read from a beginning of it that has a digit. -/
theorem reads_real_cut {text : List Char} {x : Float} (numeral : RealText text x)
    (fits : overlong? limit (behindLetter text) = none) (cut : b <+: text)
    (some : ∃ c ∈ b, c.isDigit = true) : ∃ v rest, (real limit).Reads whole b v rest := by
  cases numeral with
  | @signed mark digits before behind last direction n sign mantissa exponent =>
    rw [mantissa.behindLetter sign] at fits
    have unsigned : ∀ c ∈ mark, c.isDigit = false := by
      cases sign with
      | plus => simp
      | minus => simp
      | none => nofun
    obtain ⟨c, inside, digit⟩ := some
    rcases prefix_append_cases cut with shorter | ⟨back, rfl, onwards⟩
    · rw [unsigned c (shorter.subset inside)] at digit
      exact absurd digit Bool.false_ne_true
    · have among : c ∈ back := by
        refine (List.mem_append.mp inside).resolve_left fun sign => ?_
        rw [unsigned c sign] at digit
        exact absurd digit Bool.false_ne_true
      rcases prefix_append_cases onwards with shorter | ⟨tail, rfl, later⟩
      · obtain ⟨front, behind, part⟩ := mantissa.cut shorter ⟨c, among, digit⟩
        obtain ⟨n, rest, reads⟩ := reads_power_cut whole .none List.nil_prefix
          (exceeded?_zero limit 10)
        have decimal := reads_real_over sign part (by rintro c ⟨⟩) reads
        rw [List.append_nil] at decimal
        exact ⟨_, _, decimal⟩
      · obtain ⟨n, rest, reads⟩ := reads_power_cut whole exponent later fits
        refine ⟨_, _, reads_real_over sign mantissa ?_ reads⟩
        intro d head
        obtain ⟨others, rfl⟩ := List.head?_eq_some_iff.mp head
        cases exponent with
        | none => exact absurd (List.prefix_nil.mp later) (List.cons_ne_nil d others)
        | power letters _ =>
          obtain ⟨rfl, _⟩ := List.cons_prefix_cons.mp later
          rcases letters with rfl | rfl <;> decide

/-- Where there is no digit a decimal number is given up. -/
theorem givesUp_real (none : ∀ c ∈ chars, c.isDigit = false) :
    (real limit).GivesUp whole chars := by
  obtain ⟨mark, direction, _, divided, signed⟩ := reads_signOrPlus whole chars
  generalize behindSign chars = left at divided signed
  subst divided
  have digitless (rest : List Char) (inside : ∀ c ∈ rest, c ∈ left) :
      (text digit).Reads whole rest (.text "") rest :=
    decimal_picks.text_reads 0 [] rest nofun
      (fun c head => none c (List.mem_append_right mark (inside c (List.mem_of_mem_head? head))))
      (Nat.zero_le _)
  refine signed.script_fails ((digitless left fun _ => id).script_fails ?_)
  by_cases point : ∃ rest, left = '.' :: rest
  · obtain ⟨rest, rfl⟩ := point
    have pointed : (optional (literal ".")).Reads whole ('.' :: rest) (.text ".") rest :=
      Reads.choice (reads_literal rfl rest)
    exact pointed.script_fails ((digitless rest fun _ => List.mem_cons_of_mem _).script_fails
      ((givesUp_failing whole rest).script_done _))
  · have pointless : (optional (literal ".")).Reads whole left .absent left := by
      refine (refuses_literal_at rfl ?_).optional
      rintro c head rfl
      exact point (List.head?_eq_some_iff.mp head)
    exact pointless.script_fails ((givesUp_failing whole left).script_done _)

end Parser

namespace Parser

/-! ## Runs -/

/-- On a fresh text nothing is left of a failure where the parser reads. -/
theorem Reads.runs (reads : p.Reads b.toArray b v rest) (userState : Value) (position : Position) :
    ∃ reached, (p.run (State.front userState position b)).result = .ok reached ∧
      reached.error = none := by
  obtain ⟨reached, ran, _, onward⟩ := reads _ (State.Within.front userState position b)
  exact ⟨reached, ran, onward.ready.clean⟩

end Parser

/-- Decimal numbers and ordinals that are cut short. Of a decimal number a part is read if it has a
digit, and given up if it has none. Of an ordinal a part that is not read is waited for if it is
awaited and given up if it is not; and it is given up if it ends within the *and* behind some
hundreds. -/
theorem numbers_cut_short (limit : Option Nat) (cut : b <+: t.toList) (userState : Value)
    (position : Position) :
    (((Parser.real limit).parseValue (.ofString t)).result = .ok v →
      ((∃ c ∈ b, c.isDigit = true) → ∃ reached,
        ((Parser.real limit).run (State.front userState position b)).result = .ok reached ∧
          reached.error = none) ∧
      ((∀ c ∈ b, c.isDigit = false) → ∃ reached e,
        ((Parser.real limit).run (State.front userState position b)).result = .ok reached ∧
          reached.error = some e ∧ e.wasEof = false)) ∧
    ((Parser.ordinal.parseValue (.ofString t)).result = .ok v →
      (∃ reached, (Parser.ordinal.run (State.front userState position b)).result = .ok reached ∧
        ∀ e, reached.error = some e → (e.wasEof = true ↔ Awaited b)) ∧
      (∀ one ∈ ones, ∀ run gap joint part : List Char, Casing.folded.Spells one.toList run →
        Break gap → Break joint → part ≠ [] → part <+: "and".toList →
        b = run ++ (gap ++ ("hundred".toList ++ (joint ++ part))) → ∃ reached e,
          (Parser.ordinal.run (State.front userState position b)).result = .ok reached ∧
            reached.error = some e ∧ e.wasEof = false)) := by
  have within := State.Within.front userState position b
  refine ⟨fun accepted => ⟨?_, ?_⟩, fun accepted => ⟨?_, ?_⟩⟩
  · intro some
    obtain ⟨text, x, divided, numeral⟩ :=
      Parser.settles_real.accepted (Parser.curbs_real.accepted accepted)
    rw [List.append_nil] at divided
    subst divided
    have fits := (Parser.alone_real numeral (by rwa [String.ofList_toList])).2
    obtain ⟨_, _, reads⟩ := Parser.reads_real_cut numeral fits cut some
    exact reads.runs userState position
  · intro none
    exact Parser.givesUp_real none _ within
  · by_cases awaited : Awaited b
    · have bides := Parser.bides_awaited awaited accepted cut
      obtain ⟨reached, ran, blames⟩ := bides.runs userState position
      exact ⟨reached, ran, fun e failed => iff_of_true (blames e failed) awaited⟩
    · have decides := Parser.decides_ordinal awaited
      obtain ⟨reached, ran, blames⟩ := decides.runs userState position
      exact ⟨reached, ran, fun e failed =>
        iff_of_false (Bool.eq_false_iff.mp (blames e failed)) awaited⟩
  · rintro one member run gap joint part spells apart between some inside rfl
    exact Parser.givesUp_ordinal_and member spells apart between some inside _ within

/-- A number with an *and*. -/
theorem first_after_hundred :
    (Parser.ordinal.parseValue (.ofString "one hundred and first")).result = .ok (.int 101) := by
  have one : Words.ones[0]? = some "one" := rfl
  have first : SmallText .ordinal "first".toList 1 := .word rfl
  have number : NumberText .ordinal units.length "one hundred and first".toList 101 :=
    .group (.hundredAnd one (.inr rfl) (.inl rfl) first Nat.one_pos)
  exact Parser.parses_words number "ordinal"

/-- A decimal number that is cut behind its digit, and an ordinal that is cut within its first
word. -/
theorem numbers_cut_short_within_one :
    "-5".toList <+: "-5.5".toList ∧
      (∃ reached, (Parser.real.run (State.front .null {} "-5".toList)).result = .ok reached ∧
        reached.error = none) ∧
      "on".toList <+: "one hundred and first".toList ∧
      ∃ reached, (Parser.ordinal.run (State.front .null {} "on".toList)).result = .ok reached ∧
        Failure.Mendable reached.error := by
  have five : Digits ['5'] := ⟨List.cons_ne_nil '5' [], by simp⟩
  have mantissa : Mantissa ['5', '.', '5'] ['5'] ['5'] := .pointed five five.all
  have decimal : RealText ['-', '5', '.', '5'] _ := .signed .minus mantissa .none
  have behindDigit : "-5".toList <+: "-5.5".toList := by decide
  have withinOne : "on".toList <+: "one hundred and first".toList := by decide
  have digit : ∃ c ∈ "-5".toList, c.isDigit = true := ⟨'5', by simp, by decide⟩
  have short (lead part : List Char) (counted : Counted lead)
      (divided : "on".toList = lead ++ part) : part <+: "th".toList := by
    obtain ⟨c, inside, mark⟩ := counted.marked
    have among : c ∈ "on".toList := divided ▸ List.mem_append_left part inside
    simp at among
    rcases among with rfl | rfl <;> simp [blank] at mark
  obtain ⟨reached, ran, exact⟩ :=
    ((numbers_cut_short none withinOne .null {}).2 first_after_hundred).1
  refine ⟨behindDigit,
    ((numbers_cut_short none behindDigit .null {}).1 (Parser.real_alone decimal rfl)).1 digit,
    withinOne, reached, ran, fun e failed => ?_⟩
  exact (exact e failed).mpr (.opening short)

/-- A sign alone is given up, and so is an ordinal that ends within an *and*, although more text
makes numbers of both. -/
theorem numbers_given_up :
    (∃ x, (Parser.real.parseValue (.ofString "-5")).result = .ok (.float x)) ∧
      "-".toList <+: "-5".toList ∧
      (∃ reached e, (Parser.real.run (State.front .null {} "-".toList)).result = .ok reached ∧
        reached.error = some e ∧ e.wasEof = false) ∧
      (Parser.ordinal.parseValue (.ofString "one hundred and first")).result = .ok (.int 101) ∧
      "one hundred a".toList <+: "one hundred and first".toList ∧
      ∃ reached e,
        (Parser.ordinal.run (State.front .null {} "one hundred a".toList)).result = .ok reached ∧
          reached.error = some e ∧ e.wasEof = false := by
  have five : RealText ['-', '5'] _ :=
    .signed .minus (.whole ⟨List.cons_ne_nil '5' [], by simp⟩) .none
  have one : Casing.folded.Spells "one".toList "one".toList :=
    Casing.spells_lower (by decide)
  have space : Break [' '] := Break.mark (.inr rfl)
  refine ⟨⟨_, Parser.real_alone five rfl⟩, by decide, ?_, first_after_hundred, by decide, ?_⟩
  · exact Parser.givesUp_real (by rintro c (_ | ⟨_, ⟨⟩⟩); decide) _ (State.Within.front _ _ _)
  · exact Parser.givesUp_ordinal_and List.mem_cons_self one space space (List.cons_ne_nil 'a' [])
      (by decide) _ (State.Within.front _ _ _)

end Descent