import Descent.Proofs.Tables

/-!
# Cells that are not closed

The rule for quoted cells fails where the closing quote does not come. But a cell may also be bare,
and a bare cell holds anything but commas and line endings, so that a quote may well be in it. The
failure of the one rule is not the failure of the other: a text whose first quote is never closed is
read as if its quotes meant nothing, and the table has the quote in its first cell.

What is rejected is rejected for another reason. Behind the first cell there may be a quote in
front again; the cell that it opens is closed by the last of the quotes next to it, and nothing but
a comma or a line ending may follow there. Hence the text is divided into cells at its commas and
line endings, whatever is between quotes, and it is accepted just if all cells but the first are
written as cells are.
-/

namespace Descent.Grammar.Csv

open Descent.Parser

/-! ## Texts and their parts -/

/-- Quotes come in pairs only. -/
inductive Paired : List Char → Prop where
  | none : Paired []
  | plain {c : Char} {rest : List Char} (noQuote : c ≠ '"') (later : Paired rest) :
    Paired (c :: rest)
  | pair {rest : List Char} (later : Paired rest) : Paired ('"' :: '"' :: rest)

/-- A text begins with a quote that is never closed. -/
inductive Unclosed : List Char → Prop where
  | opened {rest : List Char} (paired : Paired rest) : Unclosed ('"' :: rest)

/-- A character is no comma and belongs to no line ending. -/
def Inner (c : Char) : Prop := c ≠ ',' ∧ c ≠ '\n' ∧ c ≠ '\r'

/-- Neither a comma nor a line ending is in a text. -/
def Plain (text : List Char) : Prop := ∀ c ∈ text, Inner c

/-- A line is divided at its commas. -/
inductive LineParts : List (List Char) → List Char → Prop where
  | cells {first : List Char} {more : List (List Char)}
    (plain : ∀ cell ∈ first :: more, Plain cell) :
    LineParts (first :: more) (first ++ more.flatMap (',' :: ·))

/-- A text is divided at its line endings and commas. Of the line endings the longest is taken, and
behind the last one there is a line only if it is not empty. -/
inductive TableParts : List (List (List Char)) → List Char → Prop where
  | none : TableParts [] []
  | last {cells : List (List Char)} {text : List Char} (line : LineParts cells text)
    (some : text ≠ []) : TableParts [cells] text
  | ended {cells : List (List Char)} {lines : List (List (List Char))}
    {text ending rest : List Char} (line : LineParts cells text) (one : Ending ending)
    (longest : ∀ c ∈ rest.head?, ¬ Ending (ending ++ [c])) (others : TableParts lines rest) :
    TableParts (cells :: lines) (text ++ (ending ++ rest))

/-- A character belongs to no line ending. -/
def notEnding (c : Char) : Bool := c != '\n' && c != '\r'

/-- A text is a way to write some cell down. -/
def IsCell (text : List Char) : Prop := ∃ content, CellText content text

variable {whole : Array Char} {v : Value} {c : Char}
  {text front rest chars ending : List Char} {more cells : List (List Char)}
  {lines : List (List (List Char))} {contents : List String} {rows : List (List String)}

/-! ## Pairs of quotes -/

/-- Between a comma or a line ending and the next one, quotes are in pairs as well. -/
theorem Paired.divide (paired : Paired (front ++ c :: rest)) (noQuote : c ≠ '"') :
    Paired front ∧ Paired rest := by
  -- A pair lies before the character as a whole, because the character is no quote.
  generalize same : front ++ c :: rest = chars at paired
  induction paired generalizing front with
  | none => simp at same
  | plain first later inductionHypothesis =>
    cases front with
    | nil =>
      obtain ⟨rfl, rfl⟩ := List.cons.inj same
      exact ⟨.none, later⟩
    | cons d front =>
      obtain ⟨rfl, sameBehind⟩ := List.cons.inj same
      obtain ⟨before, behind⟩ := inductionHypothesis sameBehind
      exact ⟨.plain first before, behind⟩
  | pair later inductionHypothesis =>
    rcases front with _ | ⟨d, _ | ⟨e, front⟩⟩
    · exact absurd (List.cons.inj same).1 noQuote
    · exact absurd (List.cons.inj (List.cons.inj same).2).1 noQuote
    · obtain ⟨rfl, sameNext⟩ := List.cons.inj same
      obtain ⟨rfl, sameBehind⟩ := List.cons.inj sameNext
      obtain ⟨before, behind⟩ := inductionHypothesis sameBehind
      exact ⟨.pair before, behind⟩

/-- Quotes in pairs are what is written for quotes between quotes. -/
theorem Paired.doubled (paired : Paired text) : ∃ content, text = Csv.doubled content := by
  induction paired with
  | none => exact ⟨[], rfl⟩
  | @plain c _ noQuote later inductionHypothesis =>
    obtain ⟨content, rfl⟩ := inductionHypothesis
    refine ⟨c :: content, ?_⟩
    rw [Csv.doubled, Csv.doubled, List.flatMap_cons, if_neg noQuote]
    rfl
  | pair later inductionHypothesis =>
    obtain ⟨content, rfl⟩ := inductionHypothesis
    exact ⟨'"' :: content, rfl⟩

/-- Where a quote comes in front, the cell that it opens is closed by the last quote next to it. -/
theorem Paired.opened (paired : Paired text) : (∀ c ∈ text.head?, c ≠ '"') ∨
    ∃ content rest, text = '"' :: (Csv.doubled content ++ '"' :: rest) ∧
      ∀ c ∈ rest.head?, c ≠ '"' := by
  induction paired with
  | none => exact .inl nofun
  | plain noQuote =>
    refine .inl ?_
    rintro c ⟨⟩
    exact noQuote
  | @pair rest later inductionHypothesis =>
    rcases inductionHypothesis with unquoted | ⟨content, rest, rfl, unquoted⟩
    · exact .inr ⟨[], rest, rfl, unquoted⟩
    · exact .inr ⟨'"' :: content, rest, rfl, unquoted⟩

/-- Behind a comma or a line ending, quotes are in pairs from there on. -/
theorem Unclosed.divide (unclosed : Unclosed (front ++ c :: rest)) (noQuote : c ≠ '"') :
    Unclosed front ∧ Paired rest := by
  generalize same : front ++ c :: rest = chars at unclosed
  cases unclosed with
  | opened paired =>
    cases front with
    | nil => exact absurd (List.cons.inj same).1 noQuote
    | cons d front =>
      obtain ⟨rfl, rfl⟩ := List.cons.inj same
      obtain ⟨before, behind⟩ := paired.divide noQuote
      exact ⟨.opened before, behind⟩

/-- A line ending is a character that is no quote, and others like it. -/
theorem Ending.spelled (one : Ending ending) :
    ∃ c others, ending = c :: others ∧ ∀ d ∈ c :: others, d ≠ '"' := by
  cases one <;> exact ⟨_, _, rfl, by simp⟩

/-- In front of quotes in pairs there may be other characters. -/
theorem Paired.behind (others : ∀ d ∈ front, d ≠ '"') (paired : Paired (front ++ rest)) :
    Paired rest := by
  induction front with
  | nil => exact paired
  | cons d front inductionHypothesis =>
    have first : Paired ([] ++ d :: (front ++ rest)) := paired
    exact inductionHypothesis (fun e member => others e (List.mem_cons_of_mem d member))
      (first.divide (others d List.mem_cons_self)).2

theorem Paired.divideLine (one : Ending ending) (paired : Paired (text ++ (ending ++ rest))) :
    Paired text ∧ Paired rest := by
  obtain ⟨c, others, rfl, noQuote⟩ := one.spelled
  obtain ⟨before, behind⟩ := paired.divide (noQuote c List.mem_cons_self)
  exact ⟨before, behind.behind fun d member => noQuote d (List.mem_cons_of_mem c member)⟩

theorem Unclosed.divideLine (one : Ending ending) (unclosed : Unclosed (text ++ (ending ++ rest))) :
    Unclosed text ∧ Paired rest := by
  obtain ⟨c, others, rfl, noQuote⟩ := one.spelled
  obtain ⟨before, behind⟩ := unclosed.divide (noQuote c List.mem_cons_self)
  exact ⟨before, behind.behind fun d member => noQuote d (List.mem_cons_of_mem c member)⟩

/-- In each cell of a line quotes are in pairs, if they are in the line. -/
theorem Paired.each {first : List Char} (paired : Paired (first ++ more.flatMap (',' :: ·))) :
    ∀ cell ∈ first :: more, Paired cell := by
  induction more generalizing first with
  | nil =>
    rw [List.flatMap_nil, List.append_nil] at paired
    exact List.forall_mem_singleton.mpr paired
  | cons second more inductionHypothesis =>
    obtain ⟨before, behind⟩ := paired.divide (by decide)
    exact List.forall_mem_cons.mpr ⟨before, inductionHypothesis behind⟩

/-- In a line whose first quote is never closed, this is so in each cell but the first. -/
theorem Unclosed.others {first : List Char}
    (unclosed : Unclosed (first ++ more.flatMap (',' :: ·))) :
    ∀ cell ∈ more, Paired cell := by
  cases more with
  | nil => nofun
  | cons second more => exact (unclosed.divide (by decide)).2.each

/-! ## Cells -/

/-- What stands between quotes in pairs is no closing quote. -/
theorem refuses_unclosed (unclosed : Unclosed chars) : quotedCell.Refuses whole chars := by
  cases unclosed with
  | opened paired =>
    obtain ⟨content, rfl⟩ := paired.doubled
    have none : quotedChar.Refuses whole [] :=
      Refuses.either (quoteless_picks.refuses nofun) (Refuses.chain (refuses_literal_at rfl nofun))
    have row : Row (quotedChar.Steps whole) (doubled content ++ []) _ [] :=
      row_quotedChar content []
    rw [List.append_nil] at row
    have unended : (choice (literal "\"")
        [failing "expected quote at the end of cell"]).Refuses whole [] :=
      Refuses.either (refuses_literal_at rfl nofun) (refuses_failing _ _)
    exact Reads.script_parse (reads_literal rfl _)
      ((Reads.textOf (row_collect_any row none)).script_parse (unended.script _))

/-- A cell that is not closed is read as a bare one. -/
theorem reads_unclosed (unclosed : Unclosed (text ++ rest)) (plain : Plain text)
    (ends : EndsCell rest) :
    cell.Reads whole (text ++ rest) (.text (String.ofList text)) rest :=
  reads_bareCell plain ends (refuses_unclosed unclosed)

/-- A written cell that begins with a quote ends in one. -/
theorem IsCell.closed (isCell : IsCell ('"' :: rest)) :
    rest.getLast? = some '"' := by
  obtain ⟨content, written⟩ := isCell
  generalize same : '"' :: rest = text at written
  cases written with
  | bare plain unquoted => exact absurd rfl (unquoted '"' (by rw [← same]; rfl))
  | quoted =>
    rw [(List.cons.inj same).2]
    exact List.getLast?_concat

/-- A parser stops before a character that ends neither a cell nor a line. -/
def Sticks (p : Parser) (whole : Array Char) (chars : List Char) : Prop :=
  ∃ v c left, p.Reads whole chars v (c :: left) ∧ Inner c ∧ left.length < chars.length

/-- Where a text with its quotes in pairs is not written as a cell is, the cell that is read there
ends too early. -/
theorem cell_sticks (whole : Array Char) (paired : Paired text) (plain : Plain text)
    (unwritten : ¬ IsCell text) (rest : List Char) : Sticks cell whole (text ++ rest) := by
  -- A quote in front opens a cell that is closed within the text; what is behind the closing quote
  -- is nothing, and then the text is a written cell, or the character that stops the reading.
  rcases paired.opened with unquoted | ⟨content, others, rfl, noQuote⟩
  · have bare : CellText (String.ofList text) (String.ofList text).toList := by
      refine .bare ?_ ?_ <;> rw [String.toList_ofList]
      · exact plain
      · exact unquoted
    rw [String.toList_ofList] at bare
    exact absurd ⟨_, bare⟩ unwritten
  · cases others with
    | nil =>
      have written := CellText.quoted (String.ofList content)
      rw [String.toList_ofList] at written
      exact absurd ⟨_, written⟩ unwritten
    | cons c others =>
      have reads : quotedCell.Reads whole
          ('"' :: (doubled (String.ofList content).toList ++ '"' :: c :: (others ++ rest))) _ _ :=
        reads_quotedCell (String.ofList content) (by rintro d ⟨⟩; exact noQuote c rfl)
      rw [String.toList_ofList] at reads
      refine ⟨.text (String.ofList content), c, others ++ rest, ?_, plain c (by simp), ?_⟩
      · rw [List.cons_append, List.append_assoc]
        exact Reads.choice reads
      · simp only [List.cons_append, List.length_cons, List.length_append]
        omega

/-! ## Lines -/

/-- Cells that come after commas are read up to one that is not written as a cell is. -/
theorem row_sticks (whole : Array Char) (plain : ∀ cell ∈ more, Plain cell)
    (paired : ∀ cell ∈ more, Paired cell) (unwritten : ∃ cell ∈ more, ¬ IsCell cell)
    (ends : EndsLine rest) :
    ∃ values c left, Row ((chain (literal ",") [cell]).Steps whole)
      (more.flatMap (',' :: ·) ++ rest) values (c :: left) ∧ Inner c := by
  induction more with
  | nil => simp at unwritten
  | cons text more inductionHypothesis =>
    obtain ⟨plainFirst, plainMore⟩ := List.forall_mem_cons.mp plain
    obtain ⟨pairedFirst, pairedMore⟩ := List.forall_mem_cons.mp paired
    rw [List.flatMap_cons, List.append_assoc, List.cons_append]
    by_cases written : IsCell text
    · have later := (List.or_exists_of_exists_mem_cons unwritten).resolve_left
        (not_not_intro written)
      obtain ⟨values, c, left, row, inner⟩ := inductionHypothesis plainMore pairedMore later
      obtain ⟨content, written⟩ := written
      have reads : (chain (literal ",") [cell]).Reads whole _ (.text content) _ :=
        (reads_literal rfl _).before (reads_cell written (endsCell_cells more ends))
      refine ⟨.text content :: values, c, left, .more ⟨reads, ?_⟩ row, inner⟩
      simp only [List.length_cons, List.length_append]
      omega
    · obtain ⟨v, c, left, reads, inner, fewer⟩ := cell_sticks whole pairedFirst plainFirst written
        (more.flatMap (',' :: ·) ++ rest)
      have step : (chain (literal ",") [cell]).Reads whole _ v _ :=
        (reads_literal rfl _).before reads
      exact ⟨[v], c, left, .more ⟨step, Nat.succ_lt_succ fewer⟩ .none, inner⟩

/-- Behind a first cell that is read, the reading of a line stops in the cells behind commas. -/
theorem line_sticks (first : cell.Reads whole (text ++ (more.flatMap (',' :: ·) ++ rest)) v
      (more.flatMap (',' :: ·) ++ rest))
    (plain : ∀ cell ∈ more, Plain cell) (paired : ∀ cell ∈ more, Paired cell)
    (unwritten : ∃ cell ∈ more, ¬ IsCell cell) (ends : EndsLine rest) :
    Sticks line whole (text ++ (more.flatMap (',' :: ·) ++ rest)) := by
  obtain ⟨values, c, left, row, inner⟩ := row_sticks whole plain paired unwritten ends
  have fewer : (c :: left).length ≤ (more.flatMap (',' :: ·) ++ rest).length :=
    row.length_le fun _ _ _ step => Nat.le_of_lt step.2
  refine ⟨_, c, left, reads_cells first row (by rintro d ⟨⟩; exact inner.1), inner, ?_⟩
  rw [List.length_append]
  exact Nat.lt_of_lt_of_le fewer (Nat.le_add_left _ _)

/-- Cells that are all written have contents. -/
theorem exists_contents (all : ¬ ∃ cell ∈ cells, ¬ IsCell cell) :
    ∃ contents, List.Forall₂ CellText contents cells := by
  have each : ∀ cell ∈ cells, IsCell cell := by simpa using all
  clear all
  induction cells with
  | nil => exact ⟨[], .nil⟩
  | cons cell cells inductionHypothesis =>
    obtain ⟨⟨content, written⟩, others⟩ := List.forall_mem_cons.mp each
    obtain ⟨contents, later⟩ := inductionHypothesis others
    exact ⟨content :: contents, .cons written later⟩

/-- A line of written cells is read. -/
theorem line_written (parts : LineParts cells text) (written : List.Forall₂ CellText contents cells)
    (ends : EndsLine rest) : line.Reads whole (text ++ rest) (lineValue contents) rest := by
  cases parts with
  | cells plain =>
    cases written with
    | cons first later => exact reads_written first later ends

/-- In a line with a cell that is not written as a cell is, the reading stops there. -/
theorem line_unwritten (parts : LineParts cells text) (paired : Paired text)
    (unwritten : ∃ cell ∈ cells, ¬ IsCell cell) (ends : EndsLine rest) :
    Sticks line whole (text ++ rest) := by
  cases parts with
  | @cells first more plain =>
    obtain ⟨plainFirst, plainMore⟩ := List.forall_mem_cons.mp plain
    obtain ⟨pairedFirst, pairedMore⟩ := List.forall_mem_cons.mp paired.each
    rw [List.append_assoc]
    by_cases written : IsCell first
    · have later := (List.or_exists_of_exists_mem_cons unwritten).resolve_left
        (not_not_intro written)
      obtain ⟨content, written⟩ := written
      exact line_sticks (reads_cell written (endsCell_cells more ends)) plainMore pairedMore later
        ends
    · obtain ⟨v, c, left, reads, inner, fewer⟩ := cell_sticks whole pairedFirst plainFirst written
        (more.flatMap (',' :: ·) ++ rest)
      exact ⟨_, c, left, reads_cells reads .none (by rintro d ⟨⟩; exact inner.1), inner, fewer⟩

/-- The first line, with the cell that is not closed: it is read if the other cells are written, and
otherwise the reading stops in one of them. -/
theorem line_unclosed (whole : Array Char) (rest : List Char) {first : List Char}
    (parts : LineParts (first :: more) text) (unclosed : Unclosed (text ++ rest))
    (here : Unclosed text) (ends : EndsLine rest) :
    (∀ contents, List.Forall₂ CellText contents more →
      line.Reads whole (text ++ rest) (lineValue (String.ofList first :: contents)) rest) ∧
    ((∃ cell ∈ more, ¬ IsCell cell) → Sticks line whole (text ++ rest)) := by
  cases parts with
  | cells plain =>
    obtain ⟨plainFirst, plainMore⟩ := List.forall_mem_cons.mp plain
    rw [List.append_assoc] at unclosed ⊢
    have reads : cell.Reads whole _ (.text (String.ofList first)) _ :=
      reads_unclosed unclosed plainFirst (endsCell_cells more ends)
    constructor
    · intro contents written
      exact reads_cells reads (row_cells written ends) ends.noComma
    · intro unwritten
      exact line_sticks reads plainMore here.others unwritten ends

/-! ## Tables -/

/-- A text is not gone through to its end where the reading of a line stops in it. -/
theorem covers_sticks (sticks : Sticks line whole chars) :
    ∃ ended last c left, Covers whole chars ended last (c :: left) := by
  obtain ⟨v, c, left, reads, inner, fewer⟩ := sticks
  have unended : lineEnd.Refuses whole (c :: left) :=
    refuses_lineEnd (by rintro d ⟨⟩; exact inner.2)
  exact ⟨[], v, c, left,
    covers_last (List.length_pos_iff.mp (Nat.zero_lt_of_lt fewer)) reads unended⟩

theorem Covers.refuses {ended : List Value} {last : Value}
    (covers : Covers whole chars ended last (c :: rest)) : table.Refuses whole chars := by
  obtain ⟨unended, row, refuses, atLast⟩ := covers
  exact (row_collect_any row refuses).script_items (atLast.script_parse
    ((refuses_atEnd c rest).script _))

/-- Lines of written cells are gone through to their end. -/
theorem covers_written (whole : Array Char) (parts : TableParts lines text)
    (written : List.Forall₂ (List.Forall₂ CellText) rows lines) :
    ∃ ended last, Covers whole text ended last [] ∧ withLast ended last = rows.map lineValue := by
  induction parts generalizing rows with
  | none =>
    cases written
    exact ⟨[], .absent, covers_none, rfl⟩
  | @last cells text line some =>
    cases written with
    | cons first none =>
      cases none
      have reads : Csv.line.Reads whole (text ++ []) _ [] := line_written line first endsLine_nil
      rw [List.append_nil] at reads
      exact ⟨[], _, covers_last some reads (refuses_lineEnd nofun), rfl⟩
  | ended line one longest others inductionHypothesis =>
    cases written with
    | cons first later =>
      obtain ⟨ended, last, covers, all⟩ := inductionHypothesis later
      refine ⟨_, last, covers.more one longest (line_written line first (one.endsLine _)), ?_⟩
      rw [withLast_cons, all, List.map_cons]

/-- Lines with a cell that is not written as a cell is are not gone through to their end. -/
theorem covers_unwritten (whole : Array Char) (parts : TableParts lines text) (paired : Paired text)
    (unwritten : ∃ cells ∈ lines, ∃ cell ∈ cells, ¬ IsCell cell) :
    ∃ ended last c left, Covers whole text ended last (c :: left) := by
  induction parts with
  | none => simp at unwritten
  | @last cells text line some =>
    obtain ⟨cells, member, unwritten⟩ := unwritten
    obtain rfl := List.mem_singleton.mp member
    have sticks : Sticks Csv.line whole (text ++ []) :=
      line_unwritten line paired unwritten endsLine_nil
    rw [List.append_nil] at sticks
    exact covers_sticks sticks
  | @ended cells lines text ending rest line one longest others inductionHypothesis =>
    obtain ⟨before, behind⟩ := paired.divideLine one
    by_cases here : ∃ cell ∈ cells, ¬ IsCell cell
    · exact covers_sticks (line_unwritten line before here (one.endsLine rest))
    · have later := (List.or_exists_of_exists_mem_cons unwritten).resolve_left here
      obtain ⟨ended, last, c, left, covers⟩ := inductionHypothesis behind later
      obtain ⟨contents, written⟩ := exists_contents here
      exact ⟨_, last, c, left, covers.more one longest
        (line_written line written (one.endsLine rest))⟩

/-! ## The division of a text -/

/-- What holds no line ending can be divided into cells. -/
theorem exists_lineParts (unended : ∀ c ∈ text, c ≠ '\n' ∧ c ≠ '\r') :
    ∃ cells, LineParts cells text := by
  induction text with
  | nil => exact ⟨[[]], @LineParts.cells [] [] (by simp [Plain])⟩
  | cons c text inductionHypothesis =>
    obtain ⟨noEnding, others⟩ := List.forall_mem_cons.mp unended
    obtain ⟨_, ⟨plain⟩⟩ := inductionHypothesis others
    obtain ⟨first, more⟩ := List.forall_mem_cons.mp plain
    by_cases comma : c = ','
    · subst comma
      exact ⟨_, @LineParts.cells [] _ (List.forall_mem_cons.mpr ⟨nofun, plain⟩)⟩
    · have longer : Plain (c :: _) := List.forall_mem_cons.mpr ⟨⟨comma, noEnding⟩, first⟩
      exact ⟨_, @LineParts.cells _ _ (List.forall_mem_cons.mpr ⟨longer, more⟩)⟩

/-- Where a line ending begins there is a longest one. -/
theorem exists_ending (starts : c = '\n' ∨ c = '\r') (rest : List Char) :
    ∃ ending later, c :: rest = ending ++ later ∧ Ending ending ∧
      ∀ d ∈ later.head?, ¬ Ending (ending ++ [d]) := by
  by_cases longer : ∃ d ∈ rest.head?, Ending [c, d]
  · obtain ⟨d, head, one⟩ := longer
    obtain ⟨later, rfl⟩ := List.head?_eq_some_iff.mp head
    exact ⟨[c, d], later, rfl, one, fun e _ => nofun⟩
  · refine ⟨[c], rest, rfl, ?_, fun d head one => longer ⟨d, head, one⟩⟩
    rcases starts with rfl | rfl
    · exact .newline
    · exact .carriageReturn

/-- Every text can be divided into lines and cells. The induction is on its length. -/
theorem exists_tableParts (text : List Char) : ∃ lines, TableParts lines text := by
  induction count : text.length using Nat.strong_induction_on generalizing text with
  | _ count inductionHypothesis =>
    subst count
    have divided : text.takeWhile notEnding ++ text.dropWhile notEnding = text :=
      List.takeWhile_append_dropWhile
    have unended : ∀ c ∈ text.takeWhile notEnding, c ≠ '\n' ∧ c ≠ '\r' := by
      intro c member
      simpa [notEnding] using List.mem_takeWhile_imp member
    obtain ⟨cells, line⟩ := exists_lineParts unended
    cases behind : text.dropWhile notEnding with
    | nil =>
      rw [behind, List.append_nil] at divided
      rw [divided] at line
      by_cases some : text = []
      · exact ⟨[], some ▸ .none⟩
      · exact ⟨[cells], .last line some⟩
    | cons c rest =>
      have starts : c = '\n' ∨ c = '\r' := by
        have stops := head_dropWhile notEnding text c (by rw [behind]; rfl)
        rw [notEnding, Bool.and_eq_false_iff, bne_eq_false_iff_eq, bne_eq_false_iff_eq] at stops
        exact stops
      obtain ⟨ending, later, same, one, longest⟩ := exists_ending starts rest
      rw [behind, same] at divided
      have fewer : later.length < text.length := by
        have some : 0 < ending.length := one.length_pos
        rw [← divided, List.length_append, List.length_append]
        omega
      obtain ⟨lines, others⟩ := inductionHypothesis _ fewer later rfl
      exact ⟨cells :: lines, divided ▸ .ended line one longest others⟩

/-! ## A first cell that is not closed -/

/-- A table with a first cell that is not closed is gone through to its end just if its other cells
are written as cells are. -/
theorem covers_unclosed (whole : Array Char) {first : List Char}
    (parts : TableParts ((first :: more) :: lines) text)
    (unclosed : Unclosed text) :
    (∀ contents rows, List.Forall₂ CellText contents more →
      List.Forall₂ (List.Forall₂ CellText) rows lines →
      ∃ ended last, Covers whole text ended last [] ∧
        withLast ended last = ((String.ofList first :: contents) :: rows).map lineValue) ∧
    ((∃ cell ∈ more ++ lines.flatten, ¬ IsCell cell) →
      ∃ ended last c left, Covers whole text ended last (c :: left)) := by
  cases parts with
  | last line some =>
    have reads := line_unclosed whole [] line
      ((List.append_nil text).symm ▸ unclosed) unclosed endsLine_nil
    rw [List.append_nil] at reads
    constructor
    · intro contents rows written none
      cases none
      exact ⟨[], _, covers_last some (reads.1 contents written) (refuses_lineEnd nofun), rfl⟩
    · intro unwritten
      rw [List.flatten_nil, List.append_nil] at unwritten
      exact covers_sticks (reads.2 unwritten)
  | @ended _ _ text ending rest line one longest others =>
    obtain ⟨before, behind⟩ := unclosed.divideLine one
    have reads := line_unclosed whole (ending ++ rest) line unclosed before (one.endsLine rest)
    constructor
    · intro contents rows written later
      obtain ⟨ended, last, covers, all⟩ := covers_written whole others later
      refine ⟨_, last, covers.more one longest (reads.1 contents written), ?_⟩
      rw [withLast_cons, all, List.map_cons]
    · rintro ⟨cell, member, unwritten⟩
      by_cases here : ∃ cell ∈ more, ¬ IsCell cell
      · exact covers_sticks (reads.2 here)
      · obtain ⟨contents, written⟩ := exists_contents here
        have later : ∃ cells ∈ lines, ∃ cell ∈ cells, ¬ IsCell cell := by
          rcases List.mem_append.mp member with member | member
          · exact absurd ⟨cell, member, unwritten⟩ here
          · obtain ⟨cells, listed, member⟩ := List.mem_flatten.mp member
            exact ⟨cells, listed, cell, member, unwritten⟩
        obtain ⟨ended, last, c, left, covers⟩ := covers_unwritten whole others behind later
        exact ⟨_, last, c, left, covers.more one longest (reads.1 contents written)⟩

/-- A text that begins with a quote which is never closed is accepted just if all its cells but the
first are written as cells are. The first cell is given as it stands, with the quote. -/
theorem unclosed_cells_kept (t : String) (unclosed : Unclosed t.toList) :
    (∃ first more later, TableParts ((first :: more) :: later) t.toList) ∧
    ∀ first more later, TableParts ((first :: more) :: later) t.toList →
      (∀ contents rows, List.Forall₂ CellText contents more →
        List.Forall₂ (List.Forall₂ CellText) rows later →
        (parse (.ofString t)).result =
          .ok (.list (((String.ofList first :: contents) :: rows).map lineValue))) ∧
      ((∃ cell ∈ more ++ later.flatten, ¬ IsCell cell) →
        ∃ failure, (parse (.ofString t)).result = .error (.rejected failure)) := by
  constructor
  · obtain ⟨lines, parts⟩ := exists_tableParts t.toList
    generalize t.toList = text at parts unclosed
    cases parts with
    | none => cases unclosed
    | last line some =>
      cases line with
      | cells plain => exact ⟨_, _, _, .last (.cells plain) some⟩
    | ended line one longest others =>
      cases line with
      | cells plain => exact ⟨_, _, _, .ended (.cells plain) one longest others⟩
  · intro first more later parts
    obtain ⟨accepts, rejects⟩ := covers_unclosed t.toList.toArray parts unclosed
    constructor
    · intro contents rows written others
      obtain ⟨ended, last, covers, all⟩ := accepts contents rows written others
      rw [← all]
      exact Reads.parseValue covers.reads
    · intro unwritten
      obtain ⟨ended, last, c, left, covers⟩ := rejects unwritten
      exact Refuses.parseValue covers.refuses

/-- Two lines with a quoted cell in the second of them; and a quoted cell that goes on behind its
closing quote. -/
theorem unclosed_cells_kept_two_lines :
    (parse (.ofString "\"a,b\n\"\"")).result =
        .ok (.list [.list [.text "\"a", .text "b"], .list [.text ""]]) ∧
      ∃ failure, (parse (.ofString "\"a,\"\"b")).result = .error (.rejected failure) := by
  constructor
  · have unclosed : Unclosed "\"a,b\n\"\"".toList :=
      .opened (.plain (by decide) (.plain (by decide) (.plain (by decide) (.plain (by decide)
        (.pair .none)))))
    have first : LineParts [['"', 'a'], ['b']] "\"a,b".toList :=
      @LineParts.cells ['"', 'a'] [['b']] (by simp [Plain, Inner])
    have second : LineParts [['"', '"']] "\"\"".toList :=
      @LineParts.cells ['"', '"'] [] (by simp [Plain, Inner])
    have parts : TableParts [[['"', 'a'], ['b']], [['"', '"']]] "\"a,b\n\"\"".toList :=
      .ended first .newline (by rintro c ⟨⟩ ⟨⟩) (.last second (by decide))
    have bare : CellText "b" "b".toList := .bare (by simp) (by simp)
    exact ((unclosed_cells_kept _ unclosed).2 _ _ _ parts).1 ["b"] [[""]] (.cons bare .nil)
      (.cons (.cons (.quoted "") .nil) .nil)
  · have unclosed : Unclosed "\"a,\"\"b".toList :=
      .opened (.plain (by decide) (.plain (by decide) (.pair (.plain (by decide) .none))))
    have line : LineParts [['"', 'a'], ['"', '"', 'b']] "\"a,\"\"b".toList :=
      @LineParts.cells ['"', 'a'] [['"', '"', 'b']] (by simp [Plain, Inner])
    refine ((unclosed_cells_kept _ unclosed).2 _ _ _ (.last line (by decide))).2
      ⟨['"', '"', 'b'], List.mem_singleton_self _, fun isCell => ?_⟩
    exact absurd isCell.closed (by decide)

/-- A text that is a quote and three letters is accepted, and its one cell is the whole of it. -/
theorem unclosed_cell_accepted :
    Unclosed "\"abc".toList ∧
      (parse (.ofString "\"abc")).result = .ok (.list [.list [.text "\"abc"]]) := by
  have unclosed : Unclosed "\"abc".toList :=
    .opened (.plain (by decide) (.plain (by decide) (.plain (by decide) .none)))
  have line : LineParts [['"', 'a', 'b', 'c']] "\"abc".toList :=
    @LineParts.cells ['"', 'a', 'b', 'c'] [] (by simp [Plain, Inner])
  have covered : ∃ ended last, Covers "\"abc".toList.toArray "\"abc".toList ended last [] ∧
      withLast ended last = [["\"abc"]].map lineValue :=
    (covers_unclosed _ (.last line (by decide)) unclosed).1 [] [] .nil .nil
  obtain ⟨ended, last, covers, all⟩ := covered
  refine ⟨unclosed, ?_⟩
  have reads := Reads.parseValue covers.reads
  rw [all] at reads
  exact reads

end Descent.Grammar.Csv
