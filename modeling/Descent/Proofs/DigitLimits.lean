import Descent.Grammar.Json
import Descent.Grammar.SExp
import Descent.Proofs.Leaves
import Descent.Proofs.Numerals

/-!
# Limits to the digits of a numeral

A runtime may limit how many digits of a numeral it converts. To go through all grammars again for
every limit would be to prove everything about them twice. Instead a parser with a limit is set
beside the same parser without one: it does the same, or it stops because in the text that is left
there are more digits in a row than the limit allows. That much is shown for numerals and carried
through the combinators. What is known of the parser without a limit then holds of the one with it,
up to that fault.
-/

namespace Descent

/-! ## Runs that a limit stops -/

/-- A run comes to the same as another one, of which something is ensured, or it stops with a fault
of some kind. -/
inductive Run.Curbed {α : Type} (kind : Fault → Prop) (post : α → Prop) (limited free : Run α) :
    Prop where
  | same (result : limited.result = free.result) (ensures : free.Ensures post)
  | stopped (fault : Fault) (result : limited.result = .error fault) (because : kind fault)

namespace Run.Curbed

variable {α β : Type} {kind wider : Fault → Prop} {post : α → Prop} {last : β → Prop}
  {limited free : Run α}

theorem mono (curbed : Curbed kind post limited free) (weaken : ∀ fault, kind fault → wider fault) :
    Curbed wider post limited free := by
  cases curbed with
  | same result ensures => exact .same result ensures
  | stopped fault result because => exact .stopped fault result (weaken fault because)

theorem pure {a : α} (holds : post a) : Curbed kind post (Pure.pure a) (Pure.pure a) :=
  .same rfl (ensures_pure a post holds)

theorem raise (fault : Fault) : Curbed kind post (Run.raise fault) (Run.raise fault) :=
  .same rfl (ensures_raise fault post)

theorem bind {next other : α → Run β} (first : Curbed kind post limited free)
    (second : ∀ a, post a → Curbed kind last (next a) (other a)) :
    Curbed kind last (limited >>= next) (free >>= other) := by
  cases first with
  | stopped fault result because =>
    exact .stopped fault (result_bind_error limited next fault result) because
  | same result ensures =>
    cases went : free.result with
    | error fault =>
      refine .same ?_ ?_
      · rw [result_bind_error limited next fault (result.trans went),
          result_bind_error free other fault went]
      · intro b given
        rw [result_bind_error free other fault went] at given
        cases given
    | ok a =>
      have left := result_bind_ok limited next a (result.trans went)
      have right := result_bind_ok free other a went
      cases second a (ensures a went) with
      | stopped fault stopped because => exact .stopped fault (left.trans stopped) because
      | same together holds =>
        refine .same (left.trans (together.trans right.symm)) ?_
        intro b given
        exact holds b (right.symm.trans given)

end Run.Curbed

/-! ## Parsers that a limit stops -/

/-- The fault of a limit: one is set, in a text there are more digits in a row than it allows, and
the fault says how many. -/
def Overlong (limit : Option Nat) (chars : List Char) (fault : Fault) : Prop :=
  ∃ most row, limit = some most ∧ most < row.length ∧ row <:+: chars ∧
    (∀ c ∈ row, c.isDigit = true) ∧ fault = .badNumeral 10 (.long most row.length)

/-- After a success a state is further on in the text. -/
def State.Onwards (whole : Array Char) (chars : List Char) (reached : State) : Prop :=
  reached.failed = true ∨ ∃ rest, rest <:+ chars ∧ reached.Within whole rest

/-- With a limit a parser does what another one does, or the limit stops it, on every text. -/
def Parser.Curbs (limit : Option Nat) (q p : Parser) : Prop :=
  ∀ (chars : List Char) (whole : Array Char) (s : State), s.Within whole chars →
    Run.Curbed (Overlong limit chars) (State.Onwards whole chars) (q.run s) (p.run s)

variable {limit : Option Nat} {whole : Array Char} {chars rest : List Char} {s reached : State}
  {p q first other separator : Parser} {v : Value} {fault : Fault} {t : String}

/-- What is too long in a part is so in the whole. -/
theorem Overlong.of_suffix (overlong : Overlong limit rest fault) (suffix : rest <:+ chars) :
    Overlong limit chars fault := by
  obtain ⟨most, row, set, beyond, inside, digits, same⟩ := overlong
  exact ⟨most, row, set, beyond, inside.trans suffix.isInfix, digits, same⟩

/-- What is further on from a later place is so from an earlier one. -/
theorem State.Onwards.of_suffix (onwards : reached.Onwards whole rest) (suffix : rest <:+ chars) :
    reached.Onwards whole chars := by
  rcases onwards with failed | ⟨left, within, onward⟩
  · exact .inl failed
  · exact .inr ⟨left, within.trans suffix, onward⟩

namespace Parser

/-- A run on what is left, as a part of a run on the whole. -/
theorem Curbs.behind (curbs : q.Curbs limit p) (suffix : rest <:+ chars)
    (within : s.Within whole rest) :
    Run.Curbed (Overlong limit chars) (State.Onwards whole chars) (q.run s) (p.run s) := by
  cases curbs rest whole s within with
  | stopped fault result because => exact .stopped fault result (because.of_suffix suffix)
  | same result ensures =>
    exact .same result fun a given => (ensures a given).of_suffix suffix

/-- Parsers without numerals do what they do. -/
theorem Curbs.of_built (built : Built False p) : p.Curbs limit p := by
  intro chars whole s within
  refine .same rfl ?_
  intro reached ran
  have leads := built.leads s within.ready reached ran
  cases outcome : reached.error with
  | some e => exact .inl (State.failed_of_error outcome)
  | none =>
    have ahead := leads.textAhead within.ready within.onText outcome
    refine .inr ⟨reached.textAhead, ?_, leads.ready within.ready outcome,
      leads.input.trans within.input, rfl⟩
    rw [ahead, within.ahead]
    exact List.drop_suffix _ _

theorem Curbs.renamed {q' p' : Parser} (curbs : q.Curbs limit p) (left : q'.run = q.run)
    (right : p'.run = p.run) : q'.Curbs limit p' := by
  intro chars whole s within
  rw [left, right]
  exact curbs chars whole s within

/-! ### In order -/

theorem Curbs.bind {next later : Value → Parser} (curbs : q.Curbs limit p)
    (others : ∀ v, (later v).Curbs limit (next v)) :
    (q.bind later).Curbs limit (p.bind next) := by
  intro chars whole s within
  refine (curbs chars whole s within).bind ?_
  intro reached onwards
  by_cases failed : reached.failed = true
  · rw [if_pos failed, if_pos failed]
    exact .pure onwards
  · rw [if_neg failed, if_neg failed]
    obtain ⟨rest, suffix, onward⟩ := onwards.resolve_left failed
    exact (others reached.value).behind suffix onward

theorem Curbs.chain_nil (curbs : q.Curbs limit p) : (chain q []).Curbs limit (chain p []) :=
  curbs.renamed (funext (run_chain_nil q)) (funext (run_chain_nil p))

/-- Two parsers in order. -/
theorem Curbs.before (curbs : q.Curbs limit p) (others : other.Curbs limit first) :
    (chain q [other]).Curbs limit (chain p [first]) := by
  have bound : (q.bind fun _ => chain other []).Curbs limit (p.bind fun _ => chain first []) :=
    curbs.bind fun _ => others.chain_nil
  exact bound.renamed rfl rfl

theorem Curbs.followedBy (curbs : q.Curbs limit p) (others : other.Curbs limit first) :
    (q.followedBy other).Curbs limit (p.followedBy first) :=
  curbs.bind fun _ => others.chain_nil.bind fun _ => .of_built (.succeed _)

theorem Curbs.between {opening closing : Parser} (curbs : q.Curbs limit p)
    (opens : Built False opening) (closes : Built False closing) :
    (between opening closing q).Curbs limit (between opening closing p) :=
  (Curbs.of_built opens).before (curbs.followedBy (.of_built closes))

theorem Curbs.trim (curbs : q.Curbs limit p) : (trim q).Curbs limit (trim p) :=
  curbs.between (.optional .spaces) (.optional .spaces)

theorem Curbs.map (f : Value → Except Fault Value) (curbs : q.Curbs limit p) :
    (q.map f).Curbs limit (p.map f) := by
  refine curbs.bind fun v => ?_
  cases f v with
  | ok w => exact .of_built (.succeed w)
  | error fault => exact .of_built (.raising fault)

theorem Curbs.script_done (name : String) (curbs : q.Curbs limit p) :
    (script name (pure q)).Curbs limit (script name (pure p)) :=
  curbs.renamed rfl rfl

theorem Curbs.script_step {name : String} {next later : Value → Script Parser}
    (curbs : q.Curbs limit p)
    (others : ∀ v, (script name (later v)).Curbs limit (script name (next v))) :
    (script name (.step q later)).Curbs limit (script name (.step p next)) := by
  have bound : (q.bind fun v => script name (later v)).Curbs limit
      (p.bind fun v => script name (next v)) := curbs.bind others
  exact bound.renamed rfl rfl

theorem Curbs.script_parse {name : String} {next later : Value → Script Parser}
    (curbs : q.Curbs limit p)
    (others : ∀ v, (script name (later v)).Curbs limit (script name (next v))) :
    (script name (Script.parse q >>= later)).Curbs limit (script name (Script.parse p >>= next)) :=
  curbs.script_step others

theorem Curbs.script_int {name : String} {next later : Int → Script Parser}
    (curbs : q.Curbs limit p)
    (others : ∀ n, (script name (later n)).Curbs limit (script name (next n))) :
    (script name (Script.int q >>= later)).Curbs limit (script name (Script.int p >>= next)) := by
  refine curbs.script_step fun v => ?_
  dsimp only
  cases v.int? with
  | some n => exact others n
  | none => exact (Curbs.of_built (.raising .undefined)).renamed rfl rfl

theorem Curbs.script_text {name : String} {next later : String → Script Parser}
    (curbs : q.Curbs limit p)
    (others : ∀ t, (script name (later t)).Curbs limit (script name (next t))) :
    (script name (Script.text q >>= later)).Curbs limit
      (script name (Script.text p >>= next)) := by
  refine curbs.script_step fun v => ?_
  dsimp only
  cases v.text? with
  | some t => exact others t
  | none => exact (Curbs.of_built (.raising .undefined)).renamed rfl rfl

theorem Curbs.script_items {name : String} {next later : List Value → Script Parser}
    (curbs : q.Curbs limit p)
    (others : ∀ items, (script name (later items)).Curbs limit (script name (next items))) :
    (script name (Script.items q >>= later)).Curbs limit
      (script name (Script.items p >>= next)) := by
  refine curbs.script_step fun v => ?_
  dsimp only
  cases v.items? with
  | some items => exact others items
  | none => exact (Curbs.of_built (.raising .undefined)).renamed rfl rfl

/-! ### Alternatives -/

/-- The failures of earlier alternatives do not matter. -/
theorem curbed_attempt {more others : List Parser} (curbs : q.Curbs limit p)
    (each : List.Forall₂ (Curbs limit) others more) (within : s.Within whole chars)
    (earlier : Option Failure) :
    Run.Curbed (Overlong limit chars) (State.Onwards whole chars)
      (attempt s earlier q others) (attempt s earlier p more) := by
  induction each generalizing p q earlier with
  | nil =>
    rw [attempt_nil, attempt_nil]
    refine (curbs chars whole s within).bind fun reached onwards => ?_
    by_cases failed : reached.failed = true
    · rw [if_pos failed]
      exact .pure (.inl (reached.failed_merged earlier failed))
    · rw [if_neg failed]
      exact .pure onwards
  | cons next later inductionHypothesis =>
    rw [attempt_cons, attempt_cons]
    refine (curbs chars whole s within).bind fun reached onwards => ?_
    by_cases failed : reached.failed = true
    · rw [if_pos failed, if_pos failed]
      exact inductionHypothesis next _
    · rw [if_neg failed, if_neg failed]
      exact .pure onwards

theorem Curbs.choice {more others : List Parser} (curbs : q.Curbs limit p)
    (each : List.Forall₂ (Curbs limit) others more) :
    (choice q others).Curbs limit (Parser.choice p more) :=
  fun _ _ _ within => curbed_attempt curbs each within none

/-- A choice between two parsers. -/
theorem Curbs.either (curbs : q.Curbs limit p) (others : other.Curbs limit first) :
    (Parser.choice q [other]).Curbs limit (Parser.choice p [first]) :=
  curbs.choice (.cons others .nil)

/-! ### Repetition -/

/-- A round that was complete is further on. -/
def RoundOnwards (whole : Array Char) (chars : List Char) : Round → Prop
  | .refused attempt => attempt.failed = true
  | .last _ _ _ => False
  | .complete _ reached => ∃ rest, rest <:+ chars ∧ reached.Within whole rest

/-- What rounds have reached is further on, and the attempt that ended them failed. -/
def HarvestOnwards (whole : Array Char) (chars : List Char) (h : Harvest) : Prop :=
  (∃ rest, rest <:+ chars ∧ h.reached.Within whole rest) ∧
    ∀ attempt ∈ h.refusal, attempt.failed = true

theorem Curbs.round (curbs : q.Curbs limit p) (within : s.Within whole chars) :
    Run.Curbed (Overlong limit chars) (RoundOnwards whole chars) (roundOf q s) (roundOf p s) := by
  refine (curbs chars whole s within).bind fun reached onwards => ?_
  by_cases failed : reached.failed = true
  · rw [if_pos failed]
    exact .pure failed
  · rw [if_neg failed]
    exact .pure (onwards.resolve_left failed)

/-- The induction is on the characters that are left. -/
theorem Curbs.roundsOn (curbs : q.Curbs limit p) (site : Site) (within : s.Within whole chars) :
    Run.Curbed (Overlong limit chars) (HarvestOnwards whole chars)
      (roundsOn site (roundOf q) s) (roundsOn site (roundOf p) s) := by
  induction size : chars.length using Nat.strong_induction_on generalizing chars s with
  | _ count inductionHypothesis =>
    rw [roundsOn_eq, roundsOn_eq]
    refine (curbs.round within).bind fun round onwards => ?_
    cases round with
    | refused attempt =>
      refine .pure ⟨⟨chars, List.suffix_refl chars, within⟩, ?_⟩
      rintro _ ⟨⟩
      exact onwards
    | last v reached attempt => exact onwards.elim
    | complete v reached =>
      obtain ⟨rest, suffix, onward⟩ := onwards
      dsimp only [Round.proceed]
      by_cases less : reached.unread < s.unread
      · rw [if_pos less, if_pos less]
        rw [onward.unread, within.unread] at less
        have later := inductionHypothesis rest.length (size ▸ less) onward rfl
        refine (later.mono fun _ overlong => overlong.of_suffix suffix).bind ?_
        rintro h ⟨⟨left, shorter, further⟩, refused⟩
        exact .pure ⟨⟨left, shorter.trans suffix, further⟩, refused⟩
      · rw [if_neg less, if_neg less]
        exact .raise _

theorem Curbs.collect (curbs : q.Curbs limit p) (least : Nat) :
    (q.collect (.atLeast least)).Curbs limit (p.collect (.atLeast least)) := by
  intro chars whole s within
  change Run.Curbed _ _ (repeated .collect (roundOf q) (.atLeast least) s)
    (repeated .collect (roundOf p) (.atLeast least) s)
  rw [repeated_eq, repeated_eq]
  refine Run.Curbed.bind (curbs.roundsOn .collect within) ?_
  rintro h ⟨⟨rest, suffix, onward⟩, refused⟩
  refine .pure ?_
  have success : (h.reached.succeed (.list h.values)).Onwards whole chars :=
    .inr ⟨rest, suffix, onward.succeed _⟩
  unfold Harvest.settle
  cases refusal : h.refusal with
  | none => exact success
  | some attempt =>
    dsimp only
    split
    · exact .inl (refused attempt refusal)
    · exact success

theorem Curbs.split (curbs : q.Curbs limit p) (between : Built False separator) :
    (split q separator).Curbs limit (split p separator) := by
  have each : (chain separator [q]).Curbs limit (chain separator [p]) :=
    (Curbs.of_built between).before curbs
  refine Curbs.either (curbs.script_parse fun first => ?_) (.of_built (.succeed _))
  refine (each.collect 0).script_items fun others => ?_
  exact .of_built (.renamed (.succeed (.list (first :: others))) rfl)

/-! ### Rules that refer to themselves -/

/-- A rule within a limit does what it does without one, if that is so for its body around what does
what it does inside. The induction is on the characters that are left. -/
theorem Curbs.recursive {body limited : Parser → Parser}
    (closed : ∀ q p, q.Curbs limit p → (limited q).Curbs limit (body p)) :
    (Parser.recursive limited).Curbs limit (Parser.recursive body) := by
  intro chars
  induction size : chars.length using Nat.strong_induction_on generalizing chars with
  | _ count inductionHypothesis =>
    have inside : (Parser.within limited count).Curbs limit (Parser.within body count) := by
      intro left whole s within
      by_cases fewer : left.length < count
      · rw [run_within limited within fewer, run_within body within fewer]
        exact inductionHypothesis left.length fewer left rfl whole s within
      · rw [← within.unread] at fewer
        unfold Parser.within
        dsimp only
        rw [if_neg fewer, if_neg fewer]
        exact .raise _
    intro whole s within
    rw [run_recursive limited within, run_recursive body within, size]
    exact closed _ _ inside chars whole s within

/-! ## Numerals -/

/-- The digits that are collected are in the text, so if they are too many the text has too many. -/
theorem curbs_natural : (natural 10 limit).Curbs limit natural := by
  intro chars whole s within
  have collected : ((text (digit 10) (.atLeast 1)).run s).Ensures fun reached =>
      reached.failed = true ∨ ∃ row rest, chars = row ++ rest ∧ Digits row ∧
        reached.value = .text (String.ofList row) ∧ reached.Within whole rest := by
    intro reached ran
    have settled : (text (digit 10) (.atLeast 1)).Settles whole chars _ :=
      decimal_picks.text_settles 1
    rcases settled.cases with refuses | ⟨v, rest, reads, row, divided, rfl, enough, all⟩
    · obtain ⟨other, went, shown⟩ := refuses s within
      obtain rfl := Except.ok.inj (ran.symm.trans went)
      exact .inl shown
    · obtain ⟨other, went, value, onward⟩ := reads s within
      obtain rfl := Except.ok.inj (ran.symm.trans went)
      exact .inr ⟨row, rest, divided, ⟨List.length_pos_iff.mp enough, all⟩, value, onward⟩
  refine Run.Curbed.bind (.same rfl collected) fun reached found => ?_
  by_cases failed : reached.failed = true
  · rw [if_pos failed, if_pos failed]
    exact .pure (.inl failed)
  · rw [if_neg failed, if_neg failed]
    obtain ⟨row, rest, rfl, digits, value, onward⟩ := found.resolve_left failed
    have free : readNumeral 10 (String.ofList row) = .ok (Decimal.ofDigits row : Int) :=
      readNumeral_decimal digits rfl
    rw [value]
    cases beyond : exceeded? limit 10 row.length with
    | none =>
      simp only [free, readNumeral_decimal digits beyond]
      exact .pure (.inr ⟨rest, List.suffix_append row rest, onward.succeed _⟩)
    | some most =>
      simp only [readNumeral_long digits beyond]
      obtain ⟨set, -, more⟩ := exceeded?_eq_some.mp beyond
      refine .stopped _ rfl ⟨most, row, set, more, ?_, digits.all, rfl⟩
      exact (List.prefix_append row rest).isInfix

theorem curbs_integer : (integer 10 limit).Curbs limit integer := by
  refine (Curbs.of_built .signOrPlus).script_int fun direction => ?_
  refine curbs_natural.script_int fun size => ?_
  exact .of_built (.renamed (.succeed _) rfl)

theorem curbs_realBy (convert : String → Except Fault Float) :
    (realBy convert limit).Curbs limit (realBy convert) := by
  refine (Curbs.of_built .signOrPlus).script_int fun direction => ?_
  refine (Curbs.of_built (.text _ (.digit 10))).script_text fun before => ?_
  refine (Curbs.of_built (.optional (.literal _ _))).script_parse fun point => ?_
  have power : (choice (chain (literal "e" .folded) [integer 10 limit]) [succeed (.int 0)]).Curbs
      limit (choice (chain (literal "e" .folded) [integer]) [succeed (.int 0)]) :=
    ((Curbs.of_built (.literal _ _)).before curbs_integer).either (.of_built (.succeed _))
  -- The script goes on in one way whether there is a fraction or not.
  have ending (fraction : String) : (script "decimal" do
        if before.isEmpty && fraction.isEmpty then return failing
        let power ← Script.int
          (choice (chain (literal "e" .folded) [integer 10 limit]) [succeed (.int 0)])
        let size ← Script.ofExcept (convert (Decimal.numeral before fraction power))
        return succeed (.float (signedFloat direction size))).Curbs limit (script "decimal" do
        if before.isEmpty && fraction.isEmpty then return failing
        let power ← Script.int (choice (chain (literal "e" .folded) [integer]) [succeed (.int 0)])
        let size ← Script.ofExcept (convert (Decimal.numeral before fraction power))
        return succeed (.float (signedFloat direction size))) := by
    by_cases missing : (before.isEmpty && fraction.isEmpty) = true
    · rw [if_pos missing, if_pos missing]
      exact Curbs.script_done _ (.of_built (.refusal _))
    · rw [if_neg missing, if_neg missing]
      refine power.script_int fun n => ?_
      cases convert (Decimal.numeral before fraction n) with
      | ok size => exact Curbs.script_done _ (.of_built (.succeed _))
      | error fault => exact (Curbs.of_built (.raising fault)).renamed rfl rfl
  by_cases pointed : point.isTrue = true
  · simp only [if_pos pointed]
    exact (Curbs.of_built (.text _ (.digit 10))).script_text ending
  · simp only [if_neg pointed]
    exact ending ""

theorem curbs_real : (real limit).Curbs limit real := curbs_realBy readFloat

/-! ## Grammars -/

theorem curbs_shortOrdinal : (shortOrdinal limit).Curbs limit shortOrdinal := by
  refine curbs_natural.script_int fun n => ?_
  refine (Curbs.of_built (.ordinalSuffix n)).script_parse fun _ => ?_
  exact Curbs.script_done _ (.of_built (.succeed _))

end Parser

namespace Grammar

open Descent.Parser

theorem SExp.curbs_expressionOver (curbs : q.Curbs limit p) :
    (expressionOver limit q).Curbs limit (expressionOver none p) :=
  ((curbs.split .spaces).between (.literal _ _) (.literal _ _)).either curbs_integer

theorem SExp.curbs_expression : (expression limit).Curbs limit expression :=
  Curbs.recursive fun _ _ => curbs_expressionOver

namespace Json

theorem built_string : Built False string := by
  have escaped : Built False escaped := by
    apply Built.script
    apply Script.uses_bind (Script.uses_parse (Built.literal _ _))
    intro _ _
    apply Script.uses_bind (Script.uses_text (Built.token 1))
    intro letter _
    by_cases code : letter = "u"
    · rw [if_pos code]
      exact Built.map _ (.collect _ (.digit 16))
    · rw [if_neg code]
      exact Built.succeed _
  exact .between (.literal _ _) (.label _ (.literal _ _))
    (.text _ (.either escaped (.noneOf _ _ _ (.token 1))))

theorem built_boolean : Built False boolean :=
  .map _ (.label _ (.either (.literal _ _) (.literal _ _)))

theorem built_null : Built False null :=
  .label _ (.choice (List.forall_mem_singleton.mpr
    (.chain (.literal _ _) (List.forall_mem_singleton.mpr (.succeed _)))))

/-- Numbers are the only values that a limit stops. -/
theorem curbs_valueOver (curbs : q.Curbs limit p) :
    (valueOver limit q).Curbs limit (valueOver none p) := by
  have mark (text : String) : Built False (trim (Parser.literal text)) := .trim (.literal text _)
  have member : (Json.member q).Curbs limit (Json.member p) := by
    refine (Curbs.of_built built_string).script_parse fun key => ?_
    refine (Curbs.of_built (mark ":")).script_parse fun _ => ?_
    exact curbs.script_parse fun val => Curbs.script_done _ (.of_built (.succeed _))
  have object : (object q).Curbs limit (object p) :=
    ((member.split (mark ",")).between (mark "\x7b") (mark "\x7d")).map dictionary
  have array : (array q).Curbs limit (array p) :=
    (curbs.split (mark ",")).between (mark "[") (mark "]")
  exact (object.choice (.cons array (.cons (.of_built built_boolean) (.cons (.of_built built_null)
    (.cons (.of_built built_string) (.cons curbs_real .nil)))))).trim

theorem curbs_value : (value limit).Curbs limit value :=
  Curbs.recursive fun _ _ => curbs_valueOver

end Json
end Grammar

/-! ## Texts that are parsed -/

namespace Parser

/-- With a limit a text is parsed to what it is parsed to without one, or the limit stops the
parse. -/
theorem Curbs.parseValue (curbs : q.Curbs limit p) (t : String) :
    (q.parseValue (.ofString t)).result = (p.parseValue (.ofString t)).result ∨
      ∃ fault, (q.parseValue (.ofString t)).result = .error fault ∧
        Overlong limit t.toList fault := by
  have followed : (q.followedBy atEnd).Curbs limit (p.followedBy atEnd) :=
    curbs.followedBy (.of_built .atEnd)
  rw [parseValue_result, parseValue_result]
  cases followed _ _ _ (State.Within.start t) with
  | same result ensures => exact .inl (by rw [result])
  | stopped fault result because => exact .inr ⟨fault, by rw [result]; rfl, because⟩

/-- What is accepted with a limit is accepted without one. -/
theorem Curbs.accepted (curbs : q.Curbs limit p)
    (accepted : (q.parseValue (.ofString t)).result = .ok v) :
    (p.parseValue (.ofString t)).result = .ok v := by
  rcases curbs.parseValue t with same | ⟨fault, stopped, _⟩
  · exact same.symm.trans accepted
  · cases accepted.symm.trans stopped

end Parser
end Descent
