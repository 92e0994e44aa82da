import Descent.Proofs.DigitLimits
import Descent.Proofs.Documents
import Descent.Proofs.NumberWords
import Descent.Proofs.Tables

/-!
# The grammars end on every text

A text is parsed to a value, or it is refused. Nothing else can come of it: no repetition goes
round without taking anything, no function is given a value that it is not defined on, and no rule
begins again where it has begun.

Each grammar is gone through part by part, with what a part takes at least and what it gives.
Numerals are the place where more than the kind of a value counts: digits that were collected have
to be digits for those who read them, and four of them in base sixteen are the number of a
character. All this is gone through without a limit to the number of digits. If one is set, then a
text that has more digits in a row is the one thing more that may stop a grammar.
-/

namespace Descent

variable {whole : Array Char} {below least more : Nat} {kind : Value → Prop} {v : Value}
  {p q : Parser} {chars row : List Char} {t : String} {limit : Option Nat} {offset : Int}

/-- A run on a text gives a value or a failure of the input, and nothing else but what a limit to
the digits of a numeral brings with it. Without a limit that is nothing. -/
def Run.Ends (limit : Option Nat) (t : String) (run : Run Value) : Prop :=
  (∃ v, run.result = .ok v) ∨ (∃ failure, run.result = .error (.rejected failure)) ∨
    ∃ fault, Overlong limit t.toList fault ∧ run.result = .error fault

/-- A parser that faults unless it is started behind an offset. -/
def Parser.startingBehind (p : Parser) (offset : Int) : Parser where
  name := p.name
  run s := if offset < s.offset then p.run s else Run.raise .endless

/-- Wherever a rule begins in a text, each use of itself inside it begins further behind. -/
def Parser.NestsBehind (limit : Option Nat) (body : Parser → Parser) (t : String) : Prop :=
  ∀ (s : State) (chars : List Char), s.Within t.toList.toArray chars →
    (∃ reached, ((body ((recursive body).startingBehind s.offset)).run s).result = .ok reached) ∨
      ∃ fault, Overlong limit chars fault ∧
        ((body ((recursive body).startingBehind s.offset)).run s).result = .error fault

namespace Parser

open Value

/-- A parser that settles a text ends on it. -/
theorem Settles.ends {post : Value → List Char → Prop}
    (settles : p.Settles t.toList.toArray t.toList post) :
    (p.parseValue (.ofString t)).Ends limit t := by
  obtain ⟨reply, answer, _⟩ := settles
  rcases answer.parseValue with ⟨v, _, parsed⟩ | ⟨_, failure, rejected⟩
  · exact Or.inl ⟨v, parsed⟩
  · exact Or.inr (Or.inl ⟨failure, rejected⟩)

theorem Gains.ends (gains : ∀ below, p.Gains t.toList.toArray below least kind) :
    (p.parseValue (.ofString t)).Ends limit t :=
  (gains _ _ (Nat.lt_succ_self _)).ends

/-- With a limit a grammar ends if it does without one. -/
theorem Curbs.ends (curbs : q.Curbs limit p)
    (gains : ∀ below, p.Gains t.toList.toArray below least kind) :
    (q.parseValue (.ofString t)).Ends limit t := by
  rcases curbs.parseValue t with same | ⟨fault, stopped, overlong⟩
  · unfold Run.Ends
    rw [same]
    exact Gains.ends gains
  · exact .inr (.inr ⟨fault, overlong, stopped⟩)

theorem Curbs.startingBehind (curbs : q.Curbs limit p) (offset : Int) :
    (q.startingBehind offset).Curbs limit (p.startingBehind offset) := by
  intro chars whole s within
  unfold Parser.startingBehind
  dsimp only
  split
  · exact curbs chars whole s within
  · exact .raise .endless

/-- Fewer characters are left further behind. -/
theorem Gains.startingBehind (gains : p.Gains whole below least kind)
    (place : offset + below = whole.size) :
    (p.startingBehind offset).Gains whole below least kind := by
  intro chars fewer
  obtain ⟨reply, answer, holds⟩ := gains chars fewer
  refine ⟨reply, ?_, holds⟩
  intro s within
  have behind : offset < s.offset := by
    have here := within.offset
    omega
  obtain ⟨reached, ran, shows⟩ := answer s within
  refine ⟨reached, ?_, shows⟩
  rw [Parser.startingBehind]
  dsimp only
  rw [if_pos behind]
  exact ran

/-- A rule begins further behind inside itself, if its body ends around what ends on shorter
texts. -/
theorem runs_behind {body : Parser → Parser}
    (unfolds : ∀ inner length, inner.Gains whole length least kind →
      (body inner).Gains whole (length + 1) least kind) {s : State}
    (within : s.Within whole chars) :
    ∃ reached, ((body ((recursive body).startingBehind s.offset)).run s).result = .ok reached := by
  have inner : ((recursive body).startingBehind s.offset).Gains whole chars.length least kind :=
    Gains.startingBehind (gains_recursive unfolds) within.offset
  obtain ⟨reply, answer, _⟩ := unfolds _ _ inner chars (Nat.lt_succ_self _)
  obtain ⟨reached, ran, _⟩ := answer s within
  exact ⟨reached, ran⟩

theorem Gains.nests_behind {body : Parser → Parser}
    (unfolds : ∀ inner length, inner.Gains t.toList.toArray length least kind →
      (body inner).Gains t.toList.toArray (length + 1) least kind) : NestsBehind limit body t :=
  fun _ _ within => .inl (runs_behind unfolds within)

/-- With a limit a rule begins further behind inside itself if it does without one. -/
theorem Curbs.nests_behind {body limited : Parser → Parser}
    (curbs : ∀ q p, q.Curbs limit p → (limited q).Curbs limit (body p))
    (unfolds : ∀ inner length, inner.Gains t.toList.toArray length least kind →
      (body inner).Gains t.toList.toArray (length + 1) least kind) :
    NestsBehind limit limited t := by
  intro s chars within
  obtain ⟨reached, ran⟩ := runs_behind unfolds within
  have curbed := curbs _ _ ((Curbs.recursive curbs).startingBehind s.offset)
  cases curbed chars _ s within with
  | same result ensures => exact .inl ⟨reached, result.trans ran⟩
  | stopped fault result overlong => exact .inr ⟨fault, overlong, result⟩

/-- A character that is no quote. -/
theorem gains_quoteless : (noneOf "\"" []).Gains whole below 1 (IsText fun _ => True) := by
  refine quoteless_picks.gains.weaken (Nat.le_refl _) ?_
  rintro _ ⟨t, rfl, _⟩
  exact ⟨t, rfl, trivial⟩

/-! ## Decimal numbers -/

theorem gains_integer : integer.Gains whole below 0 IsInt := by
  intro chars _
  refine (settles_integer rfl).mono ?_
  rintro _ rest ⟨n, rfl, text, rfl, _⟩
  rw [List.length_append]
  exact ⟨by omega, n, rfl⟩

theorem gains_real : real.Gains whole below 0 Any := by
  intro chars _
  refine settles_real.mono ?_
  rintro _ rest ⟨text, x, rfl, _⟩
  rw [List.length_append]
  exact ⟨by omega, trivial⟩

end Parser

namespace Grammar

open Descent.Parser Descent.Value

/-! ## JSON -/

namespace Json

/-- Digits of base sixteen denote a number. -/
theorem code_of_digits (digits : ∀ c ∈ row, digitOf 16 c = true) :
    ∃ n, positional? 16 row = some n := by
  refine positional?_isSome ?_
  intro c member
  have read := digitOf_eq (by decide : 16 ≤ 20) c
  rw [show digitOf ((16 : Nat) : Int) c = true from digits c member] at read
  simpa [Option.any_eq_true] using read.symm

/-- A number of four digits in base sixteen is that of a character. -/
theorem charOf_code {n : Nat} (four : row.length = 4) (code : positional? 16 row = some n) :
    ∃ c, charOf (n : Int) = .ok c := by
  have bound : n < 16 ^ 4 := four ▸ positional?_lt code
  rw [charOf, if_neg (by omega)]
  exact ⟨_, rfl⟩

/-- What is taken as a code are four digits, and they are the number of a character. -/
theorem settles_unicodeHex :
    unicodeHex.Settles whole chars fun v rest => ∃ row, chars = row ++ rest ∧ row.length = 4 ∧
      (∀ c ∈ row, digitOf 16 c = true) ∧ ∃ c : Char, v = .text c.toString := by
  refine Settles.map (((digit_picks 16).exactly_settles 4).mono ?_)
  rintro _ rest ⟨row, divided, rfl, four, digits⟩
  obtain ⟨n, code⟩ := code_of_digits digits
  obtain ⟨c, character⟩ := charOf_code four code
  exact ⟨_, character_made code character, row, divided, four, digits, c, rfl⟩

theorem gains_unicodeHex : unicodeHex.Gains whole below 0 (IsText fun _ => True) := by
  intro chars _
  refine settles_unicodeHex.mono ?_
  rintro _ rest ⟨row, rfl, _, _, c, rfl⟩
  rw [List.length_append]
  exact ⟨by omega, c.toString, rfl, trivial⟩

theorem gains_escaped : escaped.Gains whole below 1 (IsText fun _ => True) := by
  have backslash : (literal "\\").Gains whole below 1 Any := (gains_literal "\\" .exact).any
  refine Gains.script_parse backslash fun _ _ => ?_
  refine Gains.script_text (gains_token.atLeast (Nat.zero_le _)) fun letter _ => ?_
  split
  · exact gains_unicodeHex.script_done _
  · exact (gains_succeed ⟨_, rfl, trivial⟩).script_done _

theorem gains_string : string.Gains whole below 1 (IsText fun _ => True) := by
  have quote {below : Nat} : (literal "\"").Gains whole below 1 Any :=
    (gains_literal "\"" .exact).any
  have letter {below : Nat} : (choice escaped [noneOf "\"" []]).Gains whole below 1
      (IsText fun _ => True) := gains_escaped.either gains_quoteless
  exact Gains.between quote (letter.text Nat.one_pos)
    ((Gains.label _ quote).atLeast (Nat.zero_le _))

theorem gains_boolean : boolean.Gains whole below 4 Any := by
  have truth : (literal "true").Gains whole below 4 Any := (gains_literal "true" .exact).any
  have falsity : (literal "false").Gains whole below 5 Any := (gains_literal "false" .exact).any
  refine Gains.map (Gains.label _ (truth.either (falsity.atLeast (by omega)))) ?_
  intro v _
  exact ⟨_, rfl, trivial⟩

theorem gains_null : null.Gains whole below 4 Any := by
  have word : (literal "null").Gains whole below 4 Any := (gains_literal "null" .exact).any
  exact Gains.label _ (Gains.choice_nil (word.before (gains_succeed trivial)))

/-- A key with a value. -/
def IsMember (v : Value) : Prop := ∃ key value, v = .tuple [key, value]

theorem gains_comma : comma.Gains whole below 1 Any :=
  Gains.trim (gains_literal "," .exact).any

theorem gains_member {value : Parser} (inner : value.Gains whole below 0 Any) :
    (Json.member value).Gains whole below 1 IsMember := by
  have colon {below : Nat} : (trim (literal ":")).Gains whole below 1 Any :=
    Gains.trim (gains_literal ":" .exact).any
  refine Gains.script_parse gains_string fun key _ => ?_
  refine Gains.script_parse colon fun _ _ => ?_
  refine Gains.script_parse (inner.shorter (by omega)) fun val _ => ?_
  exact (gains_succeed ⟨key, val, rfl⟩).script_done _

/-- Members can be put into a dictionary. -/
theorem dictionary_ok (members : v.IsListOf IsMember) : ∃ w, dictionary v = .ok w ∧ w.Any := by
  obtain ⟨items, rfl, each⟩ := members
  have pairs : ∃ entries, items.mapM pair? = some entries := by
    induction items with
    | nil => exact ⟨[], rfl⟩
    | cons item items inductionHypothesis =>
      obtain ⟨key, val, rfl⟩ := each item List.mem_cons_self
      obtain ⟨entries, same⟩ := inductionHypothesis fun item member =>
        each item (List.mem_cons_of_mem _ member)
      refine ⟨(key, val) :: entries, ?_⟩
      rw [List.mapM_cons, same]
      rfl
  obtain ⟨entries, same⟩ := pairs
  rw [dictionary, Value.items?, Option.getD_some, same]
  exact ⟨_, rfl, trivial⟩

theorem gains_object {value : Parser} (inner : value.Gains whole below 0 Any) :
    (object value).Gains whole (below + 1) 0 Any := by
  have opening : (trim (literal "\x7b")).Gains whole (below + 1) 1 Any :=
    Gains.trim (gains_literal "\x7b" .exact).any
  have closing {below : Nat} : (trim (literal "\x7d")).Gains whole below 1 Any :=
    Gains.trim (gains_literal "\x7d" .exact).any
  have members : (split (Json.member value) comma).Gains whole below 0 (IsListOf IsMember) :=
    Gains.split (gains_member inner) (gains_comma.before
      ((gains_member (inner.shorter (Nat.sub_le _ _))).atLeast (Nat.zero_le _))) Nat.one_pos
  exact Gains.map (Gains.between opening members (closing.atLeast (Nat.zero_le _)))
    fun v => dictionary_ok

theorem gains_array {value : Parser} (inner : value.Gains whole below 0 Any) :
    (array value).Gains whole (below + 1) 0 Any := by
  have opening : (trim (literal "[")).Gains whole (below + 1) 1 Any :=
    Gains.trim (gains_literal "[" .exact).any
  have closing {below : Nat} : (trim (literal "]")).Gains whole below 1 Any :=
    Gains.trim (gains_literal "]" .exact).any
  have items : (split value comma).Gains whole below 0 (IsListOf Any) :=
    Gains.split inner (gains_comma.before (inner.shorter (Nat.sub_le _ _))) Nat.one_pos
  exact (Gains.between opening items (closing.atLeast (Nat.zero_le _))).any

/-- A value ends if the values inside it do, on texts without the mark in front of them. -/
theorem gains_valueOver {value : Parser} (inner : value.Gains whole below 0 Any) :
    (valueOver none value).Gains whole (below + 1) 0 Any := by
  refine Gains.trim (Gains.choice (gains_object inner) (Gains.choice (gains_array inner)
    (Gains.choice ?_ (Gains.choice ?_ (Gains.choice ?_ (Gains.choice_nil gains_real))))))
  · exact gains_boolean.atLeast (Nat.zero_le _)
  · exact gains_null.atLeast (Nat.zero_le _)
  · exact (gains_string.atLeast (Nat.zero_le _)).any

theorem gains_value : value.Gains whole below 0 Any :=
  gains_recursive fun _ _ inner => gains_valueOver inner

end Json

/-! ## Tables -/

namespace Csv

theorem gains_cell : cell.Gains whole below 0 Any := by
  have quote {below : Nat} : (literal "\"").Gains whole below 1 Any :=
    (gains_literal "\"" .exact).any
  have character {below : Nat} : quotedChar.Gains whole below 1 (IsText fun _ => True) := by
    have doubled : (chain (literal "\"\"") [succeed (.text "\"")]).Gains whole below 1
        (IsText fun _ => True) :=
      (gains_literal "\"\"" .exact).before (gains_succeed ⟨_, rfl, trivial⟩)
    exact gains_quoteless.either doubled
  have quoted : quotedCell.Gains whole below 0 Any := by
    refine Gains.script_parse quote fun _ _ => ?_
    refine Gains.script_parse (character.text Nat.one_pos) fun content _ => ?_
    refine Gains.script_parse (quote.either (gains_failing _ _)) fun _ _ => ?_
    exact (gains_succeed trivial).script_done _
  exact quoted.either (bare_picks.gains.text Nat.one_pos).any

theorem gains_line : line.Gains whole below 0 Any := by
  have comma {below : Nat} : (literal ",").Gains whole below 1 Any :=
    (gains_literal "," .exact).any
  have cells : (split cell (literal ",")).Gains whole below 0 (IsListOf Any) :=
    Gains.split gains_cell (comma.before gains_cell) Nat.one_pos
  exact cells.any.either (gains_succeed trivial)

theorem gains_lineEnd : lineEnd.Gains whole below 1 Any := by
  have ending (t : String) (some : 1 ≤ (Casing.exact.target t).toList.length) :
      (literal t).Gains whole below 1 Any :=
    ((gains_literal t .exact).atLeast some).any
  exact Gains.label _ (Gains.choice (ending "\n\r" (by decide)) (Gains.choice
    (ending "\r\n" (by decide)) ((ending "\n" (by decide)).either (ending "\r" (by decide)))))

theorem gains_table : table.Gains whole below 0 Any := by
  have lines : ((line.followedBy lineEnd).collect).Gains whole below 0 (IsListOf Any) :=
    Gains.collect (gains_line.followedBy gains_lineEnd) Nat.one_pos
  have last {below : Nat} : (guarded atEnd [line]).Gains whole below 0 Any :=
    gains_atEnd.refusing.before gains_line
  refine Gains.script_items lines fun items _ => ?_
  refine Gains.script_parse last.optional fun v _ => ?_
  refine Gains.script_parse gains_atEnd fun _ _ => ?_
  exact (gains_succeed trivial).script_done _

end Csv

/-! ## Symbolic expressions -/

namespace SExp

/-- An expression ends if those inside it do, on texts without the parenthesis in front of them. -/
theorem gains_expressionOver {inner : Parser} (gains : inner.Gains whole below 0 Any) :
    (expressionOver none inner).Gains whole (below + 1) 0 Any := by
  have opening : (literal "(").Gains whole (below + 1) 1 Any := (gains_literal "(" .exact).any
  have closing {below : Nat} : (literal ")").Gains whole below 1 Any :=
    (gains_literal ")" .exact).any
  have items : (split inner spaces).Gains whole below 0 (IsListOf Any) :=
    Gains.split gains (gains_spaces.before (gains.shorter (Nat.sub_le _ _))) Nat.one_pos
  have list : (SExp.list inner).Gains whole (below + 1) 0 Any :=
    (Gains.between opening items (closing.atLeast (Nat.zero_le _))).any
  exact list.either gains_integer.any

theorem gains_expression : expression.Gains whole below 0 Any :=
  gains_recursive fun _ _ inner => gains_expressionOver inner

end SExp

/-! ## All of them -/

/-- Whatever the text is, each grammar gives a value or a failure of the text. Where a rule refers
to itself it begins further behind than it began before. That is all where the runtime sets no limit
to the digits of a numeral. Where it sets one, it may stop those that read numerals, on a text with
more digits in a row. -/
theorem grammars_end (limit : Option Nat) (t : String) :
    ((Json.parse (.ofString t) limit).Ends limit t ∧ (Csv.parse (.ofString t)).Ends none t ∧
      (SExp.parse (.ofString t) limit).Ends limit t ∧
      ((real limit).parseValue (.ofString t)).Ends limit t ∧
      (cardinal.parseValue (.ofString t)).Ends none t ∧
      (ordinal.parseValue (.ofString t)).Ends none t ∧
      ((shortOrdinal limit).parseValue (.ofString t)).Ends limit t) ∧
    NestsBehind limit (Json.valueOver limit) t ∧ NestsBehind limit (SExp.expressionOver limit) t ∧
      ∀ form, NestsBehind none (numberWordsOver form) t := by
  refine ⟨⟨?_, ?_, ?_, ?_, ?_, ?_, ?_⟩, ?_, ?_, ?_⟩
  · exact Json.curbs_value.ends fun _ => Json.gains_value
  · exact Gains.ends fun _ => Csv.gains_table
  · exact SExp.curbs_expression.ends fun _ => SExp.gains_expression
  · exact curbs_real.ends fun _ => gains_real
  · exact Gains.ends fun _ => Gains.label _ (gains_numberWords .cardinal)
  · exact Gains.ends fun _ => Gains.label _ (gains_numberWords .ordinal)
  · exact curbs_shortOrdinal.ends fun _ => gains_shortOrdinal
  · exact Curbs.nests_behind (fun _ _ => Json.curbs_valueOver) fun _ _ => Json.gains_valueOver
  · exact Curbs.nests_behind (fun _ _ => SExp.curbs_expressionOver)
      fun _ _ => SExp.gains_expressionOver
  · exact fun form => Gains.nests_behind fun _ _ => gains_numberWordsOver

end Grammar
end Descent
