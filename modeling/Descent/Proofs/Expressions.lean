import Descent.Proofs.DigitLimits

/-!
# The language of symbolic expressions

The reader of symbolic expressions accepts just the texts of its grammar, with the values that the
grammar gives them. One half goes by induction on the derivation: no choice and no repetition takes
anything from the text that belongs to what comes later. The other half goes by induction on the
number of characters left: whatever the reader takes is derived.
-/

namespace Descent.Grammar.SExp

open Descent.Parser

/-! ## The grammar -/

/-- What stands between two expressions: blanks, at least one. -/
structure Gap (run : List Char) : Prop where
  some : run ≠ []
  all : ∀ c ∈ run, blank c = true

/-- An expression in a list that is not the first one, with the gap in front of it. -/
structure Item where
  gap : List Char
  value : Value
  text : List Char

/-- The text of the later expressions of a list. -/
def itemsText (items : List Item) : List Char :=
  items.flatMap fun item => item.gap ++ item.text

/-- A text is derived as an expression with a value: a number, or a list of expressions. If there
is a limit to the digits of a number, it is kept. -/
inductive Derives (limit : Option Nat) : Value → List Char → Prop where
  | number {text : List Char} {n : Int} (numeral : WholeText text n)
    (fits : overlong? limit text = none) : Derives limit (.int n) text
  | empty : Derives limit (.list []) ['(', ')']
  | list {first : Value} {text : List Char} {items : List Item} (head : Derives limit first text)
    (gaps : ∀ item ∈ items, Gap item.gap)
    (each : ∀ item ∈ items, Derives limit item.value item.text) :
    Derives limit (.list (first :: items.map Item.value))
      ('(' :: (text ++ (itemsText items ++ [')'])))

variable {whole : Array Char} {inner : Parser} {v : Value} {chars text rest : List Char}
  {item : Item} {items : List Item} {below : Nat} {limit : Option Nat} {fault : Fault}

/-- A number begins with no blank and with no parenthesis. -/
theorem number_start {n : Int} (numeral : WholeText text n) :
    ∃ c others, text = c :: others ∧ blank c = false ∧ c ≠ '(' := by
  obtain ⟨c, others, rfl, start⟩ := numeral.head
  refine ⟨c, others, rfl, ?_, ?_⟩
  · rw [← Bool.not_eq_true, blank_iff]
    rintro (rfl | rfl | rfl | rfl) <;> exact absurd start (by decide)
  · rintro rfl
    exact absurd start (by decide)

/-- An expression does not begin with a blank. -/
theorem Derives.head (derived : Derives limit v text) :
    ∃ c others, text = c :: others ∧ blank c = false := by
  cases derived with
  | empty => exact ⟨'(', _, rfl, rfl⟩
  | list => exact ⟨'(', _, rfl, rfl⟩
  | number numeral _ =>
    obtain ⟨c, others, spelled, solid, _⟩ := number_start numeral
    exact ⟨c, others, spelled, solid⟩

/-! ## Everything derived is read -/

/-- With fewer than so many characters left, a parser reads an expression that is derived. -/
def ReadsDerived (p : Parser) (whole : Array Char) (below : Nat) (v : Value) (text : List Char) :
    Prop :=
  ∀ rest, EndsWhole rest → (text ++ rest).length < below → p.Reads whole (text ++ rest) v rest

/-- A gap is read in front of an expression. -/
theorem reads_gap {run : List Char} (gap : Gap run) (started : ∀ c ∈ rest.head?, blank c = false) :
    spaces.Reads whole (run ++ rest) (.text " ") rest := by
  cases run with
  | nil => exact absurd rfl gap.some
  | cons c run =>
    refine reads_spaces c run rest (gap.all c List.mem_cons_self) ?_ started
    intro d member
    exact gap.all d (List.mem_cons_of_mem _ member)

/-- What begins with a gap begins with no digit. -/
theorem Gap.endsWhole {run : List Char} (gap : Gap run) (rest : List Char) :
    EndsWhole (run ++ rest) := by
  cases run with
  | nil => exact absurd rfl gap.some
  | cons c others =>
    have space : blank c = true := gap.all c List.mem_cons_self
    rintro d ⟨⟩
    rcases (blank_iff c).mp space with rfl | rfl | rfl | rfl <;> decide

/-- Behind the expressions of a list comes a gap or what comes after them, and no digit. -/
theorem endsWhole_items (gaps : ∀ item ∈ items, Gap item.gap) (ends : EndsWhole rest) :
    EndsWhole (itemsText items ++ rest) := by
  cases items with
  | nil => exact ends
  | cons item items =>
    rw [itemsText, List.flatMap_cons, List.append_assoc, List.append_assoc]
    exact (gaps item List.mem_cons_self).endsWhole _

/-- The end of a list is no digit. -/
theorem endsWhole_closing (rest : List Char) : EndsWhole (')' :: rest) := by
  rintro c ⟨⟩
  decide

/-- A gap comes to what the expression behind it comes to. -/
theorem gap_comesTo (gap : Gap item.gap) (derived : Derives limit item.value item.text)
    (rest : List Char) :
    spaces.Reads whole (item.gap ++ (item.text ++ rest)) (.text " ") (item.text ++ rest) := by
  obtain ⟨c, others, spelled, solid⟩ := derived.head
  apply reads_gap gap
  rw [spelled]
  rintro d ⟨⟩
  exact solid

/-- The later expressions of a list are read one after another. -/
theorem row_items (gaps : ∀ item ∈ items, Gap item.gap)
    (each : ∀ item ∈ items, Derives limit item.value item.text)
    (reads : ∀ item ∈ items, ReadsDerived inner whole below item.value item.text)
    (ends : EndsWhole rest) (fits : (itemsText items ++ rest).length < below) :
    Row ((chain spaces [inner]).Steps whole) (itemsText items ++ rest)
      (items.map Item.value) rest := by
  unfold itemsText at fits ⊢
  induction items with
  | nil => exact .none
  | cons item items inductionHypothesis =>
    have gap := gaps item List.mem_cons_self
    have later : ∀ other ∈ items, Gap other.gap := by
      intro other member
      exact gaps other (List.mem_cons_of_mem _ member)
    rw [List.flatMap_cons, List.append_assoc, List.append_assoc] at fits ⊢
    have some : 0 < item.gap.length := List.length_pos_iff.mpr gap.some
    rw [List.length_append] at fits
    refine .more ⟨(gap_comesTo gap (each item List.mem_cons_self) _).before
      (reads item List.mem_cons_self _ (endsWhole_items later ends) ?_), ?_⟩
      (inductionHypothesis later ?_ ?_ ?_)
    · exact Nat.lt_of_le_of_lt (Nat.le_add_left _ _) fits
    · simp only [List.length_append]
      omega
    · exact fun other member => each other (List.mem_cons_of_mem _ member)
    · exact fun other member => reads other (List.mem_cons_of_mem _ member)
    · simp only [List.length_append] at fits ⊢
      omega

/-- The rule inside itself reads what the rule does, where fewer characters are left. -/
theorem readsDerived_inside
    (reads : ∀ rest, EndsWhole rest → (expression limit).Reads whole (text ++ rest) v rest) :
    ReadsDerived (Parser.within (expressionOver limit) below) whole below v text :=
  fun rest ends fits => (reads rest ends).inside fits

/-- Where a number begins there is no list. -/
theorem refuses_list {n : Int} (numeral : WholeText text n) (rest : List Char) :
    (list inner).Refuses whole (text ++ rest) := by
  obtain ⟨c, others, rfl, _, noList⟩ := number_start numeral
  exact Refuses.between (refuses_literal_at rfl (by rintro d ⟨⟩; exact noList))

/-- A derived expression is read to its end, if no digit follows. -/
theorem reads_derived (derived : Derives limit v text) :
    ∀ rest, EndsWhole rest → (expression limit).Reads whole (text ++ rest) v rest := by
  induction derived with
  | @number text n numeral fits =>
    intro rest ends
    exact Answers.recursive ((refuses_list numeral rest).either (reads_integer numeral ends fits))
  | empty =>
    intro rest _
    have noItem : (Parser.within (expressionOver limit) (['(', ')'] ++ rest).length).Refuses whole
        (')' :: rest) := by
      refine Answers.inside (Answers.recursive (Refuses.either (Refuses.between ?_) ?_))
        (Nat.lt_succ_self _)
      · exact refuses_literal_at rfl (by rintro d ⟨⟩; decide)
      · exact refuses_integer_at (endsWhole_closing rest) (by rintro d ⟨⟩; decide)
    exact Answers.recursive (Reads.choice ((reads_literal rfl (')' :: rest)).before
      (noItem.split.followedBy (reads_literal rfl rest))))
  | @list first text items head gaps each headRead eachRead =>
    intro rest _
    rw [List.cons_append, List.append_assoc, List.append_assoc, List.singleton_append]
    have fits : (text ++ (itemsText items ++ ')' :: rest)).length <
        ('(' :: (text ++ (itemsText items ++ ')' :: rest))).length := Nat.lt_succ_self _
    have fewer : (itemsText items ++ ')' :: rest).length <
        ('(' :: (text ++ (itemsText items ++ ')' :: rest))).length := by
      simp only [List.length_cons, List.length_append]
      omega
    have row := row_items gaps each
      (fun item member => readsDerived_inside (eachRead item member)) (endsWhole_closing rest) fewer
    have first := readsDerived_inside headRead _
      (endsWhole_items gaps (endsWhole_closing rest)) fits
    have noGap : (chain spaces [Parser.within (expressionOver limit)
        ('(' :: (text ++ (itemsText items ++ ')' :: rest))).length]).Refuses whole (')' :: rest) :=
      Refuses.chain (refuses_spaces (by rintro d ⟨⟩; rfl))
    exact Answers.recursive (Reads.choice ((reads_literal rfl _).before
      ((row_split first row noGap).followedBy (reads_literal rfl rest))))

/-- A text that is derived is accepted with its value. -/
theorem derived_accepted {t : String} (derived : Derives limit v t.toList) :
    (parse (.ofString t) limit).result = .ok v := by
  refine Reads.parseValue ?_
  have reads : (expression limit).Reads t.toList.toArray (t.toList ++ []) v [] :=
    reads_derived derived [] nofun
  rwa [List.append_nil] at reads

/-! ## What is not derived within a limit -/

/-- An expression stops the reader, whatever follows that is no digit. -/
def Stops (limit : Option Nat) (text : List Char) : Prop :=
  ∃ fault, ∀ whole rest, EndsWhole rest → (expression limit).Raises whole (text ++ rest) fault

/-- Of expressions that are derived or stop the reader there is a first one that stops it, or all
are derived. -/
theorem items_or_stop
    (each : ∀ item ∈ items, Derives limit item.value item.text ∨ Stops limit item.text) :
    (∀ item ∈ items, Derives limit item.value item.text) ∨
      ∃ before item after, items = before ++ item :: after ∧
        (∀ item ∈ before, Derives limit item.value item.text) ∧ Stops limit item.text := by
  induction items with
  | nil => exact .inl nofun
  | cons first items inductionHypothesis =>
    obtain ⟨derived | stops, later⟩ := List.forall_mem_cons.mp each
    · rcases inductionHypothesis later with all | ⟨before, item, after, rfl, front, stops⟩
      · exact .inl (List.forall_mem_cons.mpr ⟨derived, all⟩)
      · refine .inr ⟨first :: before, item, after, rfl, ?_, stops⟩
        exact List.forall_mem_cons.mpr ⟨derived, front⟩
    · exact .inr ⟨[], first, items, rfl, nofun, stops⟩

/-- What stops the reader inside a list stops it at the list. -/
theorem raises_list {middle : List Char}
    (raises : (split (Parser.within (expressionOver limit) ('(' :: middle).length) spaces).Raises
      whole middle fault) : (expression limit).Raises whole ('(' :: middle) fault :=
  Raises.recursive (Raises.choice ((reads_literal rfl middle).chain_raises raises.bind))

/-- Behind derived expressions of a list, one that stops the reader stops it at the list. -/
theorem raises_later {first : Value} {before after : List Item} (head : Derives limit first text)
    (gaps : ∀ other ∈ before ++ item :: after, Gap other.gap)
    (front : ∀ other ∈ before, Derives limit other.value other.text)
    (derived : Derives none item.value item.text)
    (stops : ∀ whole rest, EndsWhole rest →
      (expression limit).Raises whole (item.text ++ rest) fault) (rest : List Char) :
    (expression limit).Raises whole
      ('(' :: (text ++ (itemsText (before ++ item :: after) ++ ')' :: rest))) fault := by
  obtain ⟨early, gap, late⟩ : (∀ other ∈ before, Gap other.gap) ∧ Gap item.gap ∧
      ∀ other ∈ after, Gap other.gap := by
    simpa [or_imp, forall_and] using gaps
  have divided : itemsText (before ++ item :: after) ++ ')' :: rest =
      itemsText before ++ (item.gap ++ (item.text ++ (itemsText after ++ ')' :: rest))) := by
    simp only [itemsText, List.flatMap_append, List.flatMap_cons, List.append_assoc]
  rw [divided]
  have closed : EndsWhole (itemsText after ++ ')' :: rest) :=
    endsWhole_items late (endsWhole_closing rest)
  have spaced : EndsWhole (item.gap ++ (item.text ++ (itemsText after ++ ')' :: rest))) :=
    gap.endsWhole _
  apply raises_list
  refine row_split_raises
    (readsDerived_inside (reads_derived head) _ (endsWhole_items early spaced)
      (Nat.lt_succ_self _))
    (row_items early front
      (fun other member => readsDerived_inside (reads_derived (front other member))) spaced ?_)
    ((gap_comesTo gap derived _).chain_raises ((stops whole _ closed).inside ?_))
  · simp only [List.length_cons, List.length_append]
    omega
  · simp only [List.length_cons, List.length_append]
    omega

/-- A derived expression is derived within a limit, or it stops the reader. -/
theorem derives_or_stops (derived : Derives none v text) :
    Derives limit v text ∨ Stops limit text := by
  induction derived with
  | @number text n numeral _ =>
    cases beyond : overlong? limit text with
    | none => exact .inl (.number numeral beyond)
    | some most =>
      refine .inr ⟨.badNumeral 10 (.long most (behindSign text).length), ?_⟩
      intro whole rest ends
      apply Raises.recursive
      exact (refuses_list numeral rest).either_raises (raises_integer numeral ends beyond)
  | empty => exact .inl .empty
  | @list first text items _ gaps each headDerived eachDerived =>
    have closed (rest : List Char) := endsWhole_items gaps (endsWhole_closing rest)
    rcases headDerived with head | ⟨fault, stops⟩
    · rcases items_or_stop eachDerived with all | ⟨before, item, after, rfl, front, fault, stops⟩
      · exact .inl (.list head gaps all)
      · refine .inr ⟨fault, fun whole rest _ => ?_⟩
        rw [List.cons_append, List.append_assoc, List.append_assoc, List.singleton_append]
        exact raises_later head gaps front (each item (by simp)) stops rest
    · refine .inr ⟨fault, fun whole rest _ => ?_⟩
      rw [List.cons_append, List.append_assoc, List.append_assoc, List.singleton_append]
      exact raises_list (Raises.split ((stops whole _ (closed rest)).inside (Nat.lt_succ_self _)))

/-! ## Everything read is derived -/

/-- What follows an expression in a list: a gap and another one. -/
def stepDerived (left : List Char) (v : Value) (rest : List Char) : Prop :=
  ∃ gap text, left = gap ++ (text ++ rest) ∧ Gap gap ∧ Derives none v text

/-- A row of gaps and expressions is the text of items. -/
theorem row_derived {values : List Value} (row : Row stepDerived chars values rest) :
    ∃ items : List Item, values = items.map Item.value ∧ chars = itemsText items ++ rest ∧
      (∀ item ∈ items, Gap item.gap) ∧ ∀ item ∈ items, Derives none item.value item.text := by
  induction row with
  | none => exact ⟨[], rfl, rfl, nofun, nofun⟩
  | more first later inductionHypothesis =>
    obtain ⟨gap, text, rfl, some, derived⟩ := first
    obtain ⟨items, rfl, rfl, gaps, each⟩ := inductionHypothesis
    refine ⟨⟨gap, _, text⟩ :: items, rfl, ?_, ?_, ?_⟩
    · simp only [itemsText, List.flatMap_cons, List.append_assoc]
    · exact List.forall_mem_cons.mpr ⟨some, gaps⟩
    · exact List.forall_mem_cons.mpr ⟨derived, each⟩

theorem settles_gap :
    spaces.Settles whole chars fun _ rest => ∃ gap, chars = gap ++ rest ∧ Gap gap := by
  cases chars with
  | nil => exact Refuses.settles (refuses_spaces nofun)
  | cons c others =>
    cases first : blank c with
    | false => exact Refuses.settles (refuses_spaces (by rintro d ⟨⟩; exact first))
    | true =>
      have divided : others.takeWhile blank ++ dropBlanks others = others :=
        List.takeWhile_append_dropWhile
      have all : ∀ d ∈ others.takeWhile blank, blank d = true := fun d => List.mem_takeWhile_imp
      have reads : spaces.Reads whole (c :: (others.takeWhile blank ++ dropBlanks others))
          (.text " ") (dropBlanks others) := reads_spaces c _ _ first all (head_dropBlanks others)
      rw [divided] at reads
      refine Reads.settles reads ⟨c :: others.takeWhile blank, ?_, List.cons_ne_nil _ _, ?_⟩
      · rw [List.cons_append, divided]
      · exact List.forall_mem_cons.mpr ⟨first, all⟩

/-- Whatever is taken of a list is derived, if that is so for the expressions inside it. -/
theorem settles_list {middle : List Char}
    (inside : ∀ left : List Char, left.length ≤ middle.length →
      inner.Settles whole left fun v rest => ∃ text, left = text ++ rest ∧ Derives none v text) :
    (split inner spaces).Settles whole middle fun v rest =>
      (v = .list [] ∧ rest = middle) ∨
        ∃ first text items, v = .list (first :: items.map Item.value) ∧ Derives none first text ∧
          (∀ item ∈ items, Gap item.gap) ∧ (∀ item ∈ items, Derives none item.value item.text) ∧
            middle = text ++ (itemsText items ++ rest) := by
  have each : ∀ v later, (∃ text, middle = text ++ later ∧ Derives none v text) →
      ∀ left : List Char, left.length ≤ later.length → (chain spaces [inner]).Settles whole left
        fun v rest => rest.length < left.length ∧ stepDerived left v rest := by
    rintro v later ⟨text, rfl, _⟩ left fewer
    rw [List.length_append] at inside
    refine settles_gap.before ?_
    rintro _ behind ⟨gap, rfl, some⟩
    have length : 0 < gap.length := List.length_pos_iff.mpr some.some
    rw [List.length_append] at fewer
    refine (inside behind (by omega)).mono ?_
    rintro w rest ⟨other, rfl, derived⟩
    refine ⟨?_, gap, other, rfl, some, derived⟩
    simp only [List.length_append]
    omega
  refine (settles_split (inside middle (Nat.le_refl _)) each).mono ?_
  rintro v rest (empty | ⟨first, values, behind, rfl, ⟨text, rfl, derived⟩, row⟩)
  · exact Or.inl empty
  · obtain ⟨items, rfl, rfl, gaps, all⟩ := row_derived row
    exact Or.inr ⟨first, text, items, rfl, derived, gaps, all, rfl⟩

/-- Whatever is taken from a text that is not known is derived. -/
theorem settles_expression :
    expression.Settles whole chars fun v rest =>
      ∃ text, chars = text ++ rest ∧ Derives none v text := by
  induction size : chars.length using Nat.strong_induction_on generalizing chars with
  | _ count inductionHypothesis =>
    subst size
    have inside : ∀ left : List Char, left.length < chars.length →
        (Parser.within (expressionOver none) chars.length).Settles whole left fun v rest =>
          ∃ text, left = text ++ rest ∧ Derives none v text :=
      fun left fewer => Settles.inside (inductionHypothesis left.length fewer rfl) fewer
    have numbers : integer.Settles whole chars fun v rest =>
        ∃ text, chars = text ++ rest ∧ Derives none v text := by
      refine (settles_integer rfl).mono ?_
      rintro _ rest ⟨n, rfl, text, divided, numeral, fits⟩
      exact ⟨text, divided, .number numeral fits⟩
    refine Settles.recursive (Settles.either ?_ numbers)
    have opening : (literal "(").Picks (Casing.exact.takes '(') := literal_picks rfl
    have closing : (literal ")").Picks (Casing.exact.takes ')') := literal_picks rfl
    refine opening.settles.before ?_
    rintro _ middle ⟨first, rfl, -, taken⟩
    obtain rfl : first = '(' := eq_of_beq taken
    refine (settles_list fun left fewer => inside left (Nat.lt_succ_of_le fewer)).followedBy ?_
    intro v later found
    refine closing.settles.mono ?_
    rintro _ rest ⟨last, rfl, -, taken⟩
    obtain rfl : last = ')' := eq_of_beq taken
    rcases found with ⟨rfl, rfl⟩ | ⟨first, text, items, rfl, derived, gaps, each, rfl⟩
    · exact ⟨['(', ')'], rfl, .empty⟩
    · refine ⟨_, ?_, .list derived gaps each⟩
      simp only [List.cons_append, List.append_assoc, List.nil_append]

/-- Without a limit the reader accepts what is derived, and refuses everything else. -/
theorem parse_exact (t : String) :
    (∃ v, Derives none v t.toList ∧ (parse (.ofString t)).result = .ok v) ∨
      (∀ v, ¬ Derives none v t.toList) ∧
        ∃ failure, (parse (.ofString t)).result = .error (.rejected failure) := by
  have settles : expression.Settles t.toList.toArray t.toList fun v rest =>
      ∃ text, t.toList = text ++ rest ∧ Derives none v text := settles_expression
  obtain ⟨reply, answer, sound⟩ := settles
  rcases answer.parseValue with ⟨v, rfl, parsed⟩ | ⟨_, failure, rejected⟩
  · obtain ⟨text, divided, derived⟩ := sound v [] rfl
    rw [List.append_nil] at divided
    subst divided
    exact .inl ⟨v, derived, parsed⟩
  · refine .inr ⟨?_, failure, rejected⟩
    intro v derived
    exact absurd (rejected.symm.trans (derived_accepted derived)) nofun

/-- The reader of symbolic expressions accepts just what is derived, with the values that are
derived, and refuses what is not. That is all where the runtime sets no limit to the digits of a
number, since every number is derived then. Where it sets one, there is one thing more that may come
of a text: it has more digits in a row than the limit allows, and the fault says so. -/
theorem expression_exact (limit : Option Nat) (t : String) :
    (∀ v, (parse (.ofString t) limit).result = .ok v ↔ Derives limit v t.toList) ∧
      ((∃ v, Derives limit v t.toList) ∨
        ((∀ v, ¬ Derives none v t.toList) ∧
          ∃ failure, (parse (.ofString t) limit).result = .error (.rejected failure)) ∨
        ∃ fault, Overlong limit t.toList fault ∧
          (parse (.ofString t) limit).result = .error fault) := by
  have sound : ∀ v, (parse (.ofString t) limit).result = .ok v → Derives limit v t.toList := by
    intro v parsed
    rcases parse_exact t with ⟨w, derived, free⟩ | ⟨_, failure, rejected⟩
    · obtain rfl : w = v := Except.ok.inj (free.symm.trans (curbs_expression.accepted parsed))
      refine (derives_or_stops derived).resolve_right ?_
      rintro ⟨fault, stops⟩
      have raises : (expression limit).Raises t.toList.toArray (t.toList ++ []) fault :=
        stops _ [] nofun
      rw [List.append_nil] at raises
      exact absurd (raises.parseValue.symm.trans parsed) nofun
    · exact absurd (rejected.symm.trans (curbs_expression.accepted parsed)) nofun
  refine ⟨fun v => ⟨sound v, derived_accepted⟩, ?_⟩
  have curbs : (expression limit).Curbs limit expression := curbs_expression
  rcases curbs.parseValue t with same | ⟨fault, stopped, overlong⟩
  · rcases parse_exact t with ⟨v, _, parsed⟩ | ⟨underived, failure, rejected⟩
    · exact .inl ⟨v, sound v (same.trans parsed)⟩
    · exact .inr (.inl ⟨underived, failure, same.trans rejected⟩)
  · exact .inr (.inr ⟨fault, overlong, stopped⟩)

end Descent.Grammar.SExp
