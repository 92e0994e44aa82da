import Descent.Proofs.Rows
import Mathlib.Data.List.TakeWhile

/-!
# Literals, blanks and digits on a text

A literal answers by the characters that come first. Matched exactly, it reads just the text that
begins with it; folded, it reads as many characters, each of which folds to the wanted one. A
choice between literals of one character each picks a character, and so do a digit and what is
none of some characters.

Blanks go together: allowing them before a parser means that it starts on the first character
that is not one, and allowing them after it means that what it leaves begins with no blank.
-/

namespace Descent

variable {whole : Array Char} {chars taken rest : List Char} {v : Value} {reply : Reply}
  {p : Parser}

/-- What is checked of all codes below a bound holds of all characters below it. -/
theorem of_codes {motive : Char → Prop} {bound : Nat}
    (table : ∀ code < bound, motive (Char.ofNat code)) {c : Char} (below : c.toNat < bound) :
    motive c := by
  have listed := table c.toNat below
  rwa [Char.ofNat_toNat] at listed

/-! ## Literals -/

namespace Casing

/-- Whether a character of the input stands for a wanted one. -/
def takes : Casing → Char → Char → Bool
  | exact, wanted, c => c == wanted
  | folded, wanted, c => Text.lowercase c.toString == wanted.toString

theorem admits_text (casing : Casing) (wanted c : Char) :
    casing.admits wanted (.text c.toString) = .ok (casing.takes wanted c) := by
  cases casing with
  | folded => rfl
  | exact =>
    have same : (c.toString == wanted.toString) = (c == wanted) := by
      rw [Bool.eq_iff_iff, beq_iff_eq, beq_iff_eq]
      exact String.singleton_inj
    exact congrArg Except.ok same

/-- In a folded match a character stands for its small form. -/
theorem takes_folded_iff {wanted c : Char} :
    folded.takes wanted c = true ↔ Text.foldAfter [] [c] = [wanted] := by
  have letters : c.toString.toList = [c] := by simp
  have target : wanted.toString.toList = [wanted] := by simp
  rw [takes, beq_iff_eq, Text.lowercase, ← String.toList_inj, String.toList_ofList, letters, target]

/-- In a folded match a character stands for the one that it folds to, and for no other. -/
theorem takes_folded_eq {wanted c : Char} :
    folded.takes wanted c = true ↔ Text.foldChar c = [wanted] := by
  rw [takes_folded_iff, Text.foldAfter_singleton]

/-- Some characters stand for wanted ones, one for each. -/
def Spells (casing : Casing) (wanted taken : List Char) : Prop :=
  List.Forall₂ (fun w c => casing.takes w c = true) wanted taken

/-- Exactly matched characters are the wanted ones. -/
theorem spells_exact_iff {wanted : List Char} : exact.Spells wanted taken ↔ taken = wanted := by
  unfold Spells
  constructor
  · intro spells
    induction spells with
    | nil => rfl
    | cons first later inductionHypothesis => rw [eq_of_beq first, inductionHypothesis]
  · rintro rfl
    induction taken with
    | nil => exact .nil
    | cons c taken inductionHypothesis => exact .cons (beq_self_eq_true c) inductionHypothesis

end Casing

namespace Parser

/-- A character is taken if it stands for the wanted one. -/
theorem admits_picks (casing : Casing) (wanted : Char) :
    (satisfying (casing.admits wanted)).Picks (casing.takes wanted) :=
  satisfying_picks (casing.admits_text wanted)

/-- The characters of a literal are taken one after another, and come behind those matched
before. -/
theorem spelling_reads {casing : Casing} {wanted : List Char} (name matched : String)
    (spells : casing.Spells wanted taken) (rest : List Char) :
    (script name (spelling casing matched wanted)).Reads whole (taken ++ rest)
      (.text (matched ++ String.ofList taken)) rest := by
  induction spells generalizing matched with
  | nil =>
    rw [String.ofList_nil, String.append_empty]
    exact (reads_succeed _).script_done name
  | @cons w c wanted taken first later inductionHypothesis =>
    have joined : matched ++ String.ofList (c :: taken) =
        matched ++ c.toString ++ String.ofList taken := by
      rw [String.append_assoc]
      simp
    rw [joined]
    exact Reads.script_text ((admits_picks casing w).reads first) (inductionHypothesis _)

/-- If no beginning of the text stands for the literal, the matching fails at some character. -/
theorem spelling_refuses {casing : Casing} {wanted : List Char} (name matched : String)
    (unlike : ∀ taken rest, chars = taken ++ rest → ¬ casing.Spells wanted taken) :
    (script name (spelling casing matched wanted)).Refuses whole chars := by
  induction wanted generalizing matched chars with
  | nil => exact absurd .nil (unlike [] chars rfl)
  | cons w wanted inductionHypothesis =>
    by_cases first : ∃ c ∈ chars.head?, casing.takes w c = true
    · obtain ⟨c, head, taken⟩ := first
      obtain ⟨rest, rfl⟩ := List.head?_eq_some_iff.mp head
      refine Reads.script_text ((admits_picks casing w).reads taken) (inductionHypothesis _ ?_)
      rintro later left rfl spells
      exact unlike (c :: later) left rfl (.cons taken spells)
    · refine Refuses.script name ((admits_picks casing w).refuses ?_)
      intro c head
      rw [← Bool.not_eq_true]
      intro taken
      exact first ⟨c, head, taken⟩

/-- A literal reads what stands for it. -/
theorem reads_spelled {casing : Casing} {wanted : String}
    (spells : casing.Spells (casing.target wanted).toList taken) (rest : List Char) :
    (literal wanted casing).Reads whole (taken ++ rest) (.text (String.ofList taken)) rest := by
  refine Answers.label _ ?_
  have front : "" ++ String.ofList taken = String.ofList taken := String.empty_append
  rw [← front]
  exact spelling_reads "match_chars" "" spells rest

/-- A literal refuses a text that does not begin with what stands for it. -/
theorem refuses_spelled {casing : Casing} {wanted : String}
    (unlike : ∀ taken rest, chars = taken ++ rest →
      ¬ casing.Spells (casing.target wanted).toList taken) :
    (literal wanted casing).Refuses whole chars :=
  Answers.label _ (spelling_refuses _ _ unlike)

/-- A literal is read off the beginning of a text. -/
theorem reads_literal {wanted : String} (letters : wanted.toList = taken) (rest : List Char) :
    (literal wanted).Reads whole (taken ++ rest) (.text wanted) rest := by
  have spells : Casing.exact.Spells (Casing.exact.target wanted).toList taken :=
    Casing.spells_exact_iff.mpr letters.symm
  have same : wanted = String.ofList taken := by
    rw [← letters, String.ofList_toList]
  rw [same] at spells ⊢
  exact reads_spelled spells rest

/-- A literal is refused where the text does not begin with it. -/
theorem refuses_literal {wanted : String} (unlike : ¬ wanted.toList <+: chars) :
    (literal wanted).Refuses whole chars := by
  refine refuses_spelled ?_
  rintro taken rest rfl spells
  rw [Casing.spells_exact_iff.mp spells] at unlike
  exact unlike (List.prefix_append _ _)

/-- A literal is refused where another character than its first one comes next. -/
theorem refuses_literal_at {wanted : String} {first : Char} {others : List Char}
    (letters : wanted.toList = first :: others) (unlike : ∀ c ∈ chars.head?, c ≠ first) :
    (literal wanted).Refuses whole chars := by
  refine refuses_literal ?_
  rw [letters]
  rintro ⟨rest, rfl⟩
  exact unlike first rfl rfl

/-- A literal of one character. -/
theorem literal_picks {wanted : String} {casing : Casing} {letter : Char}
    (letters : (casing.target wanted).toList = [letter]) :
    (literal wanted casing).Picks (casing.takes letter) := by
  refine picks_of ?_ ?_
  · intro whole c rest taken
    have spells : casing.Spells (casing.target wanted).toList [c] := by
      rw [letters]
      exact .cons taken .nil
    exact reads_spelled spells rest
  · intro whole chars other
    refine refuses_spelled ?_
    rw [letters]
    rintro taken rest rfl spells
    cases spells with
    | cons first later =>
      rw [other _ rfl] at first
      exact absurd first Bool.false_ne_true

/-- Any character but a quote. -/
theorem quoteless_picks : (noneOf "\"" []).Picks fun c => !(c == '"') :=
  Picks.label (Picks.guard (literal_picks rfl).choice_nil) _

end Parser

/-! ## Blanks -/

/-- Whether a character is a blank: a space, a tab, a newline or a return. -/
def blank (c : Char) : Bool := c == ' ' || (c == '\t' || (c == '\n' || c == '\r'))

theorem blank_iff (c : Char) : blank c = true ↔ c = ' ' ∨ c = '\t' ∨ c = '\n' ∨ c = '\r' := by
  simp [blank]

/-- A text from its first character on that is no blank. -/
def dropBlanks (chars : List Char) : List Char := chars.dropWhile blank

/-- Blanks at the beginning do not matter once they are dropped. -/
theorem dropBlanks_append (blanks : ∀ c ∈ taken, blank c = true) (rest : List Char) :
    dropBlanks (taken ++ rest) = dropBlanks rest :=
  List.dropWhile_append_of_pos blanks

/-- What begins with no blank stays as it is. -/
theorem dropBlanks_eq_self (started : ∀ c ∈ chars.head?, blank c = false) :
    dropBlanks chars = chars := by
  cases chars with
  | nil => rfl
  | cons c rest => exact List.dropWhile_cons_of_neg (by simp [started c rfl])

theorem dropBlanks_cons {c : Char} (solid : blank c = false) (rest : List Char) :
    dropBlanks (c :: rest) = c :: rest :=
  dropBlanks_eq_self (by rintro d ⟨⟩; exact solid)

/-- What begins behind a run of characters that pass a test does not pass it. -/
theorem head_dropWhile (test : Char → Bool) (chars : List Char) :
    ∀ c ∈ (chars.dropWhile test).head?, test c = false := by
  intro c head
  have shown := List.head?_dropWhile_not test chars
  rw [Option.mem_def.mp head] at shown
  exact shown

/-- No blank is left at the beginning. -/
theorem head_dropBlanks (chars : List Char) : ∀ c ∈ (dropBlanks chars).head?, blank c = false :=
  head_dropWhile blank chars

theorem dropBlanks_dropBlanks (chars : List Char) :
    dropBlanks (dropBlanks chars) = dropBlanks chars :=
  dropBlanks_eq_self (head_dropBlanks chars)

/-- Dropping blanks makes a text no longer. -/
theorem length_dropBlanks_le (chars : List Char) : (dropBlanks chars).length ≤ chars.length :=
  List.length_dropWhile_le blank chars

namespace Parser

theorem space_picks : space.Picks blank := by
  refine Picks.label (Picks.label ?_ _) _
  exact (literal_picks rfl).choice
    ((literal_picks rfl).choice ((literal_picks rfl).choice (literal_picks rfl).choice_nil))

/-- A run of blanks is read as a whole. -/
theorem reads_spaces (c : Char) (taken : List Char) (rest : List Char)
    (first : blank c = true) (others : ∀ d ∈ taken, blank d = true)
    (stops : ∀ d ∈ rest.head?, blank d = false) :
    spaces.Reads whole (c :: (taken ++ rest)) (.text " ") rest := by
  refine Answers.label _ ((space_picks.reads first).chain ?_)
  have dropped : space.dropping.Reads whole (taken ++ rest) .absent rest :=
    (row_collect_any (space_picks.row taken rest others) (space_picks.refuses stops)).before
      (reads_succeed _)
  exact dropped.chain (reads_succeed _).chain_nil

/-- There has to be a blank. -/
theorem refuses_spaces (started : ∀ c ∈ chars.head?, blank c = false) :
    spaces.Refuses whole chars :=
  Answers.label _ (Refuses.chain (space_picks.refuses started))

/-- Where a blank comes, all blanks are read. -/
theorem reads_blanks {c : Char} (first : blank c = true) (rest : List Char) :
    spaces.Reads whole (c :: rest) (.text " ") (dropBlanks rest) := by
  have divided : rest.takeWhile blank ++ dropBlanks rest = rest := List.takeWhile_append_dropWhile
  have all : ∀ d ∈ rest.takeWhile blank, blank d = true := fun d => List.mem_takeWhile_imp
  have run : spaces.Reads whole (c :: (rest.takeWhile blank ++ dropBlanks rest)) (.text " ")
      (dropBlanks rest) := reads_spaces c _ _ first all (head_dropBlanks rest)
  rwa [divided] at run

/-- Where blanks are allowed, all of them are dropped. -/
theorem reads_optional_spaces (whole : Array Char) (chars : List Char) :
    ∃ v, (optional spaces).Reads whole chars v (dropBlanks chars) := by
  by_cases started : ∃ c ∈ chars.head?, blank c = true
  · obtain ⟨c, head, first⟩ := started
    obtain ⟨rest, rfl⟩ := List.head?_eq_some_iff.mp head
    have dropped : dropBlanks (c :: rest) = dropBlanks rest := List.dropWhile_cons_of_pos first
    rw [dropped]
    exact ⟨_, (reads_blanks first rest).choice⟩
  · have none : ∀ c ∈ chars.head?, blank c = false := by
      intro c head
      rw [← Bool.not_eq_true]
      exact fun first => started ⟨c, head, first⟩
    rw [dropBlanks_eq_self none]
    exact ⟨_, (refuses_spaces none).optional⟩

/-- Blanks on both sides of what is read are dropped. -/
theorem Reads.trim (reads : p.Reads whole (dropBlanks chars) v rest) :
    (trim p).Reads whole chars v (dropBlanks rest) := by
  obtain ⟨_, before⟩ := reads_optional_spaces whole chars
  obtain ⟨_, after⟩ := reads_optional_spaces whole rest
  exact before.before (reads.followedBy after)

theorem Refuses.trim (refuses : p.Refuses whole (dropBlanks chars)) :
    (Parser.trim p).Refuses whole chars := by
  obtain ⟨_, before⟩ := reads_optional_spaces whole chars
  exact before.before refuses.followedBy

end Parser
end Descent
