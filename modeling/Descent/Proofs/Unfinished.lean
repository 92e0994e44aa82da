import Descent.Proofs.Bases
import Descent.Proofs.Draining
import Descent.Proofs.Openings

/-!
# Items that are not finished yet

An item that is read in chunks is there in part before it is there. A leaf does not give up on the
part: it succeeds on it, or fails and blames the end of the text, and a handle that is open waits
for the rest. This holds of literals, of whole numbers in all bases, of numerals with a suffix and
of cardinals in words, at every place where an item that they take may be cut.

A number stops where its digits stop, so that on a part without digits it waits for one and on
every other part it succeeds. A cardinal begins with a word for tens or with one below twenty; that
word alone is a number already, and whatever else is there may be missing.
-/

namespace Descent

variable {whole : Array Char} {chars full b row mark middle rest : List Char} {base direction : Int}
  {p q : Parser} {mid post : Value → List Char → Prop} {v : Value} {t : String}
  {limit : Option Nat}

/-! ## Handles that wait -/

/-- The characters of a fresh text are all of them. -/
theorem State.Within.front (userState : Value) (position : Position) (chars : List Char) :
    (State.front userState position chars).Within chars.toArray chars where
  ready := State.front_ready userState position chars
  input := rfl
  ahead := State.textAhead_front userState position chars

namespace Parser

/-- A parser that fails in a given way or reads ends on a fresh text, and so does its failure. -/
theorem FailsOr.runs {ended : Bool} (failsOr : p.FailsOr b.toArray b ended post)
    (userState : Value) (position : Position) :
    ∃ reached, (p.run (State.front userState position b)).result = .ok reached ∧
      ∀ e, reached.error = some e → e.wasEof = ended := by
  have within := State.Within.front userState position b
  rcases failsOr with fails | ⟨v, rest, reads, _⟩
  · obtain ⟨reached, e, ran, failed, blames⟩ := fails _ within
    refine ⟨reached, ran, fun f same => ?_⟩
    obtain rfl := Option.some.inj (failed.symm.trans same)
    exact blames
  · obtain ⟨reached, ran, _, onward⟩ := reads _ within
    refine ⟨reached, ran, fun e failed => ?_⟩
    rw [onward.ready.clean] at failed
    cases failed

/-- An open handle stays as it is where its parser bides the buffer and fails. -/
theorem Bides.handle_waits {h : Handle} (bides : p.Bides b.toArray b post)
    (serves : h.parser = p.collect (.atLeast 1)) (opened : h.closed = false)
    (buffer : h.buffer = b.toArray) {reached : State}
    (ran : (p.run h.front).result = .ok reached) (failed : reached.failed = true) :
    h.pass.result = .ok { handle := h } := by
  have within : h.front.Within b.toArray b := by
    rw [Handle.front, buffer]
    exact State.Within.front _ _ _
  have waits : p.Waits b.toArray b := by
    rcases bides with waits | ⟨v, rest, reads, _⟩
    · exact waits
    · obtain ⟨other, again, _, onward⟩ := reads _ within
      obtain rfl := Except.ok.inj (ran.symm.trans again)
      exact absurd failed (State.not_failed_of_clean onward.ready.clean)
  obtain ⟨last, e, went, found, blames⟩ := waits.collect _ within
  rw [← serves] at went
  rw [h.pass_reached (by simp [opened]) went, found]
  simp [Handle.afterFailure, blames, opened]

end Parser

/-! ## Whole numbers -/

/-- A beginning of two texts is one of the first text, or all of it and a beginning of the
second. -/
theorem prefix_append_cases {first second : List Char} (begins : b <+: first ++ second) :
    b <+: first ∨ ∃ back, b = first ++ back ∧ back <+: second := by
  rcases List.prefix_or_prefix_of_prefix begins (List.prefix_append first second) with
    shorter | ⟨back, rfl⟩
  · exact .inl shorter
  · exact .inr ⟨back, rfl, (List.prefix_append_right_inj first).mp begins⟩

/-- What a text begins with its beginnings do. -/
theorem head?_cut (begins : b <+: row) : ∀ c ∈ b.head?, c ∈ row.head? := by
  obtain ⟨left, rfl⟩ := begins
  cases b with
  | nil => nofun
  | cons c b => exact fun d head => head

theorem EndsWhole.cut (letters : EndsWhole row) (begins : b <+: row) : EndsWhole b :=
  fun c head => letters c (head?_cut begins c head)

namespace Parser

/-- Of a whole number a beginning is read, unless nothing is there yet. -/
theorem bides_natural (numeral : Numeral base limit row) (begins : b <+: row) :
    (natural base limit).Bides whole b fun v rest => ∃ n, v = .int n ∧ rest = [] := by
  rcases b with _ | ⟨c, b⟩
  · have waits : (digit base).Waits whole [] := (waits_test _).label _
    exact waits.collect.textOf.map.failsOr
  · obtain ⟨taken, n, read⟩ := numeral.cut begins
    have reads : (natural base limit).Reads whole (c :: b ++ []) (.int n) [] :=
      reads_natural_in (List.cons_ne_nil c b) taken read nofun
    rw [List.append_nil] at reads
    exact reads.failsOr ⟨n, rfl, rfl⟩

/-- A beginning of a sign and digits is a sign or none and a beginning of the digits. -/
theorem Sign.prefix_append (sign : Sign mark direction) (begins : b <+: mark ++ row) :
    ∃ front back factor, b = front ++ back ∧ Sign front factor ∧ back <+: row := by
  have marked {letter : Char} (signed : Sign [letter] direction) (begins : b <+: [letter] ++ row) :
      ∃ front back factor, b = front ++ back ∧ Sign front factor ∧ back <+: row := by
    cases b with
    | nil => exact ⟨[], [], 1, rfl, .none, List.nil_prefix⟩
    | cons c back =>
      obtain ⟨rfl, later⟩ := List.cons_prefix_cons.mp begins
      exact ⟨[c], back, direction, rfl, signed, later⟩
  cases sign with
  | plus => exact marked .plus begins
  | minus => exact marked .minus begins
  | none => exact ⟨[], b, 1, rfl, .none, begins⟩

/-- Of a whole number with a sign a beginning is read, unless there are no digits yet. -/
theorem bides_integer (sign : Sign mark direction) (numeral : Numeral base limit row)
    (begins : b <+: mark ++ row) : (integer base limit).Bides whole b fun _ rest => rest = [] := by
  obtain ⟨front, back, factor, rfl, signed, shorter⟩ := Sign.prefix_append sign begins
  have follows : ∀ c ∈ back.head?, c ≠ '+' ∧ c ≠ '-' :=
    fun c head => numeral.unsigned c (head?_cut shorter c head)
  have first : signOrPlus.Bides whole (front ++ back) fun v left =>
      ∃ n, v = .int n ∧ left = back :=
    (reads_sign signed fun _ => follows).failsOr ⟨factor, rfl, rfl⟩
  refine first.script_int ?_
  rintro _ _ rfl
  refine FailsOr.script_int (bides_natural numeral shorter) ?_
  rintro n _ rfl
  exact FailsOr.script_done _ (Reads.failsOr (reads_succeed _) rfl)

/-! ## Literals -/

/-- The parser takes some texts as they are, and bides a text that agrees with one of them as far as
it goes. -/
structure Offers (p : Parser) (offered : List Char → Prop) : Prop where
  settles : ∀ (whole : Array Char) (chars : List Char), p.Settles whole chars fun _ rest =>
    ∃ taken, chars = taken ++ rest ∧ offered taken
  bides : ∀ (whole : Array Char) {chars taken : List Char}, offered taken →
    (chars <+: taken ∨ taken <+: chars) → p.Bides whole chars fun _ _ => True

theorem offers_literal (wanted : String) (casing : Casing) :
    (literal wanted casing).Offers (casing.Spells (casing.target wanted).toList) where
  settles _ _ := (settles_literal wanted casing).mono
    fun _ _ ⟨taken, divided, _, spells⟩ => ⟨taken, divided, spells⟩
  bides _ _ _ spells agrees := bides_literal spells agrees

theorem offers_oneOf (option : String) (more : List String) (casing : Casing) :
    (oneOf option more casing).Offers fun taken =>
      ∃ wanted ∈ option :: more, casing.Spells (casing.target wanted).toList taken where
  settles _ _ := (settles_oneOf option more casing).mono
    fun _ _ ⟨wanted, listed, taken, divided, _, spells⟩ => ⟨taken, divided, wanted, listed, spells⟩
  bides _ _ _ := fun ⟨_, listed, spells⟩ agrees => bides_oneOf listed spells agrees

variable {offered : List Char → Prop}

/-- Wherever a text that is accepted may be cut, its beginning is bided. -/
theorem Offers.bides_cut (offers : p.Offers offered)
    (accepted : (p.parseValue (.ofString t)).result = .ok v) (cut : b <+: t.toList) :
    p.Bides whole b fun _ _ => True := by
  obtain ⟨taken, divided, stands⟩ := (offers.settles _ _).accepted accepted
  rw [List.append_nil] at divided
  rw [divided] at cut
  exact offers.bides whole stands (.inl cut)

/-! ## Numerals with a suffix -/

/-- A suffix is a text of some letters. -/
structure Suffix (p : Parser) (offered : List Char → Prop) : Prop extends p.Offers offered where
  inhabited : ∃ taken, offered taken
  letters : ∀ taken, offered taken → EndsWhole taken

theorem suffix_oneOf (option : String) (more : List String)
    (letters : ∀ wanted ∈ option :: more, EndsWhole wanted.toList) :
    (oneOf option more).Suffix fun taken => ∃ wanted ∈ option :: more,
      Casing.exact.Spells (Casing.exact.target wanted).toList taken where
  toOffers := offers_oneOf option more .exact
  inhabited := ⟨_, option, List.mem_cons_self, Casing.spells_exact_iff.mpr rfl⟩
  letters := by
    rintro taken ⟨wanted, listed, spells⟩
    rw [Casing.spells_exact_iff.mp spells]
    exact letters wanted listed

theorem suffix_literal (wanted : String) (letters : EndsWhole wanted.toList) :
    (literal wanted).Suffix
      (Casing.exact.Spells (Casing.exact.target wanted).toList) where
  toOffers := offers_literal wanted .exact
  inhabited := ⟨_, Casing.spells_exact_iff.mpr rfl⟩
  letters := by
    rintro taken spells
    rwa [Casing.spells_exact_iff.mp spells]

/-- Every number has a suffix. -/
theorem suffix_ordinalSuffix (n : Int) : ∃ offered, (ordinalSuffix n).Suffix offered := by
  have th : EndsWhole "th".toList := by rintro c ⟨⟩; decide
  have st : EndsWhole "st".toList := by rintro c ⟨⟩; decide
  have nd : ∀ wanted ∈ ["nd", "d"], EndsWhole wanted.toList := by
    simp [EndsWhole]
  have rd : ∀ wanted ∈ ["rd", "d"], EndsWhole wanted.toList := by
    simp [EndsWhole]
  unfold ordinalSuffix
  split
  · exact ⟨_, suffix_literal "th" th⟩
  · split
    · exact ⟨_, suffix_literal "st" st⟩
    · split
      · exact ⟨_, suffix_oneOf "nd" ["d"] nd⟩
      · split
        · exact ⟨_, suffix_oneOf "rd" ["d"] rd⟩
        · exact ⟨_, suffix_literal "th" th⟩

/-- A suffix is waited for. -/
theorem Suffix.bides_nil (suffix : p.Suffix offered) : p.Bides whole [] fun _ _ => True := by
  obtain ⟨taken, stands⟩ := suffix.inhabited
  exact suffix.bides whole stands (.inl List.nil_prefix)

/-- A beginning of a numeral with its suffix is bided. -/
theorem bides_shortOrdinal
    (accepted : ((shortOrdinal limit).parseValue (.ofString t)).result = .ok v)
    (cut : b <+: t.toList) : (shortOrdinal limit).Bides whole b fun _ _ => True := by
  have takes : (shortOrdinal limit).Attempts t.toList.toArray t.toList fun _ rest =>
      ∃ row suffix, t.toList = row ++ (suffix ++ rest) ∧ Digits row ∧
        exceeded? limit 10 row.length = none ∧
        ∃ offered, (ordinalSuffix (Decimal.ofDigits row)).Suffix offered ∧ offered suffix := by
    refine Attempts.script_int (attempts_natural limit _ _) ?_
    rintro _ left ⟨row, divided, digits, fits, rfl⟩
    obtain ⟨offered, suffix⟩ := suffix_ordinalSuffix (Decimal.ofDigits row)
    refine Settles.script_parse (suffix.settles _ left) ?_
    rintro _ rest ⟨taken, rfl, stands⟩
    exact Settles.script_done _
      (Reads.settles (reads_succeed _)
        ⟨row, taken, divided, digits, fits, offered, suffix, stands⟩)
  obtain ⟨row, taken, divided, digits, fits, offered, suffix, stands⟩ := takes.accepted accepted
  rw [List.append_nil] at divided
  rw [divided] at cut
  rcases prefix_append_cases cut with shorter | ⟨back, rfl, begins⟩
  · refine (bides_natural (digits.numeral fits) shorter).script_int ?_
    rintro n _ rfl
    obtain ⟨_, suffix⟩ := suffix_ordinalSuffix n
    exact suffix.bides_nil.script_parse fun _ _ _ =>
      FailsOr.script_done _ (Reads.failsOr (reads_succeed _) trivial)
  · have ends : EndsWhole back := (suffix.letters taken stands).cut begins
    have number : (natural 10 limit).Bides whole (row ++ back) fun v left =>
        ∃ n, v = .int n ∧ n = Decimal.ofDigits row ∧ left = back :=
      (reads_natural digits ends fits).failsOr ⟨_, rfl, rfl, rfl⟩
    refine number.script_int ?_
    rintro _ _ ⟨rfl, rfl⟩
    exact (suffix.bides whole stands (.inl begins)).script_parse fun _ _ _ =>
      FailsOr.script_done _ (Reads.failsOr (reads_succeed _) trivial)

/-- A beginning of a number with a sign and any suffix is bided. -/
theorem bides_looseOrdinal
    (accepted : ((looseOrdinal limit).parseValue (.ofString t)).result = .ok v)
    (cut : b <+: t.toList) : (looseOrdinal limit).Bides whole b fun _ _ => True := by
  have suffix := suffix_oneOf "th" ["st", "nd", "rd"] (by simp [EndsWhole])
  have takes : (looseOrdinal limit).Attempts t.toList.toArray t.toList fun _ rest =>
      ∃ text n, ∃ taken, t.toList = text ++ (taken ++ rest) ∧ WholeText text n ∧
        overlong? limit text = none ∧ ∃ wanted ∈ ["th", "st", "nd", "rd"],
          Casing.exact.Spells (Casing.exact.target wanted).toList taken := by
    refine Attempts.followedBy (attempts_integer limit _ _) ?_
    rintro _ left ⟨n, rfl, text, divided, numeral, fits⟩
    refine (suffix.settles _ left).mono ?_
    rintro _ rest ⟨taken, rfl, stands⟩
    exact ⟨text, n, taken, divided, numeral, fits, stands⟩
  obtain ⟨text, n, taken, divided, numeral, fits, stands⟩ := takes.accepted accepted
  rw [List.append_nil] at divided
  rw [divided] at cut
  rcases prefix_append_cases cut with shorter | ⟨back, rfl, begins⟩
  · cases numeral with
    | signed sign digits =>
      rw [overlong?, sign.behindSign digits.unsigned] at fits
      refine (bides_integer sign (digits.numeral fits) shorter).followedBy ?_
      rintro _ _ rfl
      exact suffix.bides_nil
  · have ends : EndsWhole back := (suffix.letters taken stands).cut begins
    have number : (integer 10 limit).Bides whole (text ++ back) fun _ left => left = back :=
      (reads_integer numeral ends fits).failsOr rfl
    refine number.followedBy ?_
    rintro _ _ rfl
    exact suffix.bides whole stands (.inl begins)

/-! ## All leaves -/

/-- The leaves of which a part is always as good as more to come. To the digits of numerals there
may be a limit. -/
inductive Leaf : Parser → Prop where
  | literal (wanted : String) (casing : Casing) : Leaf (literal wanted casing)
  | oneOf (option : String) (more : List String) (casing : Casing) : Leaf (oneOf option more casing)
  | natural (base : Int) (limit : Option Nat) : Leaf (natural base limit)
  | integer (base : Int) (limit : Option Nat) : Leaf (integer base limit)
  | shortOrdinal (limit : Option Nat) : Leaf (shortOrdinal limit)
  | looseOrdinal (limit : Option Nat) : Leaf (looseOrdinal limit)
  | cardinal : Leaf cardinal

/-- A leaf bides every beginning of a text that it accepts. -/
theorem Leaf.bides_cut (leaf : Leaf p) (accepted : (p.parseValue (.ofString t)).result = .ok v)
    (cut : b <+: t.toList) : p.Bides whole b fun _ _ => True := by
  cases leaf with
  | literal wanted casing => exact (offers_literal wanted casing).bides_cut accepted cut
  | oneOf option more casing => exact (offers_oneOf option more casing).bides_cut accepted cut
  | natural base limit =>
    obtain ⟨n, _, row, divided, numeral⟩ := (natural_takes base limit _ _).accepted accepted
    rw [List.append_nil] at divided
    exact (bides_natural numeral (divided ▸ cut)).mono fun _ _ _ => trivial
  | integer base limit =>
    obtain ⟨mark, row, direction, divided, sign, numeral⟩ :=
      (integer_takes base limit _ _).accepted accepted
    rw [List.append_nil] at divided
    exact (bides_integer sign numeral (divided ▸ cut)).mono fun _ _ _ => trivial
  | shortOrdinal limit => exact bides_shortOrdinal accepted cut
  | looseOrdinal limit => exact bides_looseOrdinal accepted cut
  | cardinal => exact (bides_cardinal accepted cut).mono fun _ _ _ => trivial

end Parser

/-- A text that a leaf accepts may be cut anywhere: on what is there of it the leaf succeeds, or
fails and blames the end of the input. A handle that is open and fails on it waits for the rest. -/
theorem leaves_await_the_rest (leaf : Parser.Leaf p)
    (accepted : (p.parseValue (.ofString t)).result = .ok v) (cut : b <+: t.toList) :
    (∀ (userState : Value) (position : Position),
        ∃ reached, (p.run (State.front userState position b)).result = .ok reached ∧
          Failure.Mendable reached.error) ∧
      ∀ (h : Handle) (reached : State), h.parser = p.collect (.atLeast 1) → h.closed = false →
        h.buffer = b.toArray → (p.run h.front).result = .ok reached → reached.failed = true →
        h.pass.result = .ok { handle := h } := by
  refine ⟨fun userState position => (leaf.bides_cut accepted cut).runs userState position, ?_⟩
  intro h reached serves opened buffer ran failed
  exact (leaf.bides_cut accepted cut).handle_waits serves opened buffer ran failed

/-- A cardinal that is cut within its word for tens. -/
theorem leaves_await_the_rest_of_sixty_six :
    Parser.Leaf Parser.cardinal ∧
      (Parser.cardinal.parseValue (.ofString "sixty-six")).result = .ok (.int 66) ∧
      "sixt".toList <+: "sixty-six".toList ∧
      ∃ reached, (Parser.cardinal.run (State.front .null {} "sixt".toList)).result = .ok reached ∧
        Failure.Mendable reached.error := by
  have sixty : Words.tens[4]? = some "sixty" := rfl
  have six : (Words.onesOf .cardinal)[5]? = some "six" := rfl
  have number : NumberText .cardinal Words.units.length "sixty-six".toList 66 :=
    .group (.small (.tensAndOnes sixty (.inl rfl) six))
  have accepted : (Parser.cardinal.parseValue (.ofString "sixty-six")).result = .ok (.int 66) :=
    Parser.parses_words number "cardinal"
  have cut : "sixt".toList <+: "sixty-six".toList := by decide
  exact ⟨.cardinal, accepted, cut, (leaves_await_the_rest .cardinal accepted cut).1 .null {}⟩

end Descent
