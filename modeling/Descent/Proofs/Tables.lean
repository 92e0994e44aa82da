import Descent.Grammar.Csv
import Descent.Proofs.Spelling
import Mathlib.Data.List.Forall2

/-!
# Written tables

There are many ways to write a table down: cells may be bare or quoted, lines may end in four ways,
and the last of them need not end. All of these are read back as the table that was written.

The grammar of written tables says what a writer may do. That the reader agrees is shown from the
inside out, for characters, cells, lines and tables. Each part is read to its end because of what
comes next: a quoted cell ends before a character that is no quote, a bare one before a comma or a
line ending, a line before a line ending. A line ending of one character is not taken for the
beginning of a longer one, because the same table never ends its lines in two ways.
-/

namespace Descent.Grammar.Csv

open Descent.Parser

/-! ## Writing -/

/-- A text with its quotes doubled. -/
def doubled (content : List Char) : List Char :=
  content.flatMap fun c => if c = '"' then ['"', '"'] else [c]

/-- A cell is written bare if nothing in it says otherwise, or between quotes. -/
inductive CellText : String → List Char → Prop where
  | bare {content : String} (plain : ∀ c ∈ content.toList, c ≠ ',' ∧ c ≠ '\n' ∧ c ≠ '\r')
    (unquoted : ∀ c ∈ content.toList.head?, c ≠ '"') : CellText content content.toList
  | quoted (content : String) : CellText content ('"' :: (doubled content.toList ++ ['"']))

/-- The cells of a line, at least one, with commas between them. -/
inductive LineText : List String → List Char → Prop where
  | cells {content : String} {text : List Char} {others : List (String × List Char)}
    (first : CellText content text) (more : ∀ cell ∈ others, CellText cell.1 cell.2) :
    LineText (content :: others.map Prod.fst) (text ++ others.flatMap fun cell => ',' :: cell.2)

/-- The four line endings. -/
inductive Ending : List Char → Prop where
  | newline : Ending ['\n']
  | carriageReturn : Ending ['\r']
  | returnNewline : Ending ['\r', '\n']
  | newlineReturn : Ending ['\n', '\r']

/-- The lines of a table, each with the same ending. The last one may lack it unless nothing else
shows that it is there. -/
inductive TableText (ending : List Char) : List (List String) → List Char → Prop where
  | none : TableText ending [] []
  | unended {cells : List String} {text : List Char} (line : LineText cells text)
    (some : text ≠ []) : TableText ending [cells] text
  | ended {cells : List String} {lines : List (List String)} {text later : List Char}
    (line : LineText cells text) (others : TableText ending lines later) :
    TableText ending (cells :: lines) (text ++ (ending ++ later))

/-- A line as a value. -/
def lineValue (cells : List String) : Value := .list (cells.map .text)

variable {whole : Array Char} {content : String} {cells : List String}
  {lines : List (List String)} {text rest ending : List Char}

/-! ## Cells -/

/-- A text begins with what comes after a cell. -/
def EndsCell (rest : List Char) : Prop := ∀ c ∈ rest.head?, c = ',' ∨ c = '\n' ∨ c = '\r'

/-- A text begins with what comes after a line. -/
def EndsLine (rest : List Char) : Prop := ∀ c ∈ rest.head?, c = '\n' ∨ c = '\r'

/-- At the end of the text nothing comes at all. -/
theorem endsLine_nil : EndsLine [] := by
  rintro c ⟨⟩

theorem EndsLine.endsCell (ends : EndsLine rest) : EndsCell rest :=
  fun c head => Or.inr (ends c head)

theorem bare_picks :
    (noneOf "," ["\n", "\r"]).Picks fun c => !(c == ',' || (c == '\n' || c == '\r')) :=
  Picks.label (Picks.guard ((literal_picks rfl).choice
    ((literal_picks rfl).choice (literal_picks rfl).choice_nil))) _

/-- A character between quotes is read back, a doubled quote as one. -/
theorem reads_quotedChar (c : Char) (rest : List Char) :
    quotedChar.Reads whole ((if c = '"' then ['"', '"'] else [c]) ++ rest) (.text c.toString)
      rest := by
  by_cases quote : c = '"'
  · subst quote
    rw [if_pos rfl]
    have doubledQuote : (chain (literal "\"\"") [succeed (.text "\"")]).Reads whole
        (['"', '"'] ++ rest) (.text "\"") rest :=
      (reads_literal rfl rest).before (reads_succeed _)
    exact Refuses.either (quoteless_picks.refuses (by rintro c ⟨⟩; rfl)) doubledQuote
  · rw [if_neg quote]
    exact Reads.choice (quoteless_picks.reads (by simpa using quote))

/-- One quote is no character between quotes. -/
theorem refuses_quotedChar (follows : ∀ c ∈ rest.head?, c ≠ '"') :
    quotedChar.Refuses whole ('"' :: rest) := by
  refine Refuses.either (quoteless_picks.refuses (by rintro c ⟨⟩; rfl)) (Refuses.chain ?_)
  refine refuses_literal ?_
  rintro ⟨later, same⟩
  obtain rfl : rest = '"' :: later := (List.cons.inj same).2.symm
  exact follows '"' rfl rfl

/-- The characters between the quotes are read one after another. -/
theorem row_quotedChar (content rest : List Char) :
    Row (quotedChar.Steps whole) (doubled content ++ rest)
      ((content.map Char.toString).map .text) rest := by
  induction content with
  | nil => exact .none
  | cons c content inductionHypothesis =>
    rw [doubled, List.flatMap_cons, List.append_assoc]
    refine .more ⟨reads_quotedChar c _, ?_⟩ inductionHypothesis
    have some : 0 < (if c = '"' then ['"', '"'] else [c]).length := by split <;> simp
    simp only [List.length_append]
    omega

/-- A quoted cell is read to its closing quote, which is one that no other quote follows. -/
theorem reads_quotedCell (content : String) (noQuote : ∀ c ∈ rest.head?, c ≠ '"') :
    quotedCell.Reads whole ('"' :: (doubled content.toList ++ '"' :: rest)) (.text content)
      rest := by
  have inside : (Parser.text quotedChar).Reads whole (doubled content.toList ++ '"' :: rest)
      (.text content) ('"' :: rest) := by
    have row : Row (quotedChar.Steps whole) _ _ ('"' :: rest) := row_quotedChar content.toList _
    have reads := Reads.textOf (row_collect_any row (refuses_quotedChar noQuote))
    rwa [join_map_toString, String.ofList_toList] at reads
  exact Reads.script_parse (reads_literal rfl _)
    (inside.script_parse ((reads_literal rfl rest).choice.script_parse
      ((reads_succeed _).script_done _)))

/-- Where no quoted cell is read, a cell is everything before a comma or a line ending. -/
theorem reads_bareCell (plain : ∀ c ∈ text, c ≠ ',' ∧ c ≠ '\n' ∧ c ≠ '\r') (ends : EndsCell rest)
    (unquoted : quotedCell.Refuses whole (text ++ rest)) :
    cell.Reads whole (text ++ rest) (.text (String.ofList text)) rest := by
  refine unquoted.either (bare_picks.text_reads 0 text rest ?_ ?_ (Nat.zero_le _))
  · intro c member
    simpa using plain c member
  · intro c head
    rcases ends c head with rfl | rfl | rfl <;> rfl

/-- A cell is read back however it is written. -/
theorem reads_cell (written : CellText content text) (ends : EndsCell rest) :
    cell.Reads whole (text ++ rest) (.text content) rest := by
  have noQuote : ∀ c ∈ rest.head?, c ≠ '"' := by
    intro c head
    rcases ends c head with rfl | rfl | rfl <;> decide
  cases written with
  | bare plain unquoted =>
    have noQuote : ∀ c ∈ (content.toList ++ rest).head?, c ≠ '"' := by
      cases letters : content.toList with
      | nil => exact noQuote
      | cons first others =>
        rintro c ⟨⟩
        exact unquoted first (by rw [letters]; rfl)
    have bare : cell.Reads whole (content.toList ++ rest) (.text (String.ofList content.toList))
        rest := reads_bareCell plain ends ((refuses_literal_at rfl noQuote).script _)
    rwa [String.ofList_toList] at bare
  | quoted =>
    rw [List.cons_append, List.append_assoc]
    exact Reads.choice (reads_quotedCell content noQuote)

/-! ## Lines -/

/-- A cell ends where other cells come after commas, or the line ends. -/
theorem endsCell_cells (more : List (List Char)) (ends : EndsLine rest) :
    EndsCell (more.flatMap (',' :: ·) ++ rest) := by
  cases more with
  | nil => exact ends.endsCell
  | cons cell more =>
    rintro c ⟨⟩
    exact Or.inl rfl

/-- Cells that come after commas are read one after another. -/
theorem row_cells {contents : List String} {more : List (List Char)}
    (written : List.Forall₂ CellText contents more) (ends : EndsLine rest) :
    Row ((chain (literal ",") [cell]).Steps whole) (more.flatMap (',' :: ·) ++ rest)
      (contents.map .text) rest := by
  induction written with
  | nil => exact .none
  | @cons content cell contents more first later inductionHypothesis =>
    rw [List.flatMap_cons, List.append_assoc, List.cons_append]
    refine .more ⟨(reads_literal rfl _).before (reads_cell first (endsCell_cells more ends)), ?_⟩
      inductionHypothesis
    simp only [List.length_cons, List.length_append]
    omega

/-- A line is a first cell with a row of others, up to where no comma comes. -/
theorem reads_cells {chars middle : List Char} {v : Value} {values : List Value}
    (first : cell.Reads whole chars v middle)
    (row : Row ((chain (literal ",") [cell]).Steps whole) middle values rest)
    (stops : ∀ c ∈ rest.head?, c ≠ ',') : line.Reads whole chars (.list (v :: values)) rest :=
  Reads.choice (row_split first row (Refuses.chain (refuses_literal_at rfl stops)))

theorem EndsLine.noComma (ends : EndsLine rest) : ∀ c ∈ rest.head?, c ≠ ',' := by
  intro c head
  rcases ends c head with rfl | rfl <;> decide

/-- Written cells with commas between them are read as a line. -/
theorem reads_written {more : List (List Char)} (first : CellText content text)
    (later : List.Forall₂ CellText cells more) (ends : EndsLine rest) :
    line.Reads whole (text ++ more.flatMap (',' :: ·) ++ rest) (lineValue (content :: cells))
      rest := by
  rw [List.append_assoc]
  exact reads_cells (reads_cell first (endsCell_cells more ends)) (row_cells later ends)
    ends.noComma

/-- A line is read to its end. -/
theorem reads_line (written : LineText cells text) (ends : EndsLine rest) :
    line.Reads whole (text ++ rest) (lineValue cells) rest := by
  cases written with
  | @cells content text others first more =>
    have later : List.Forall₂ CellText (others.map Prod.fst) (others.map Prod.snd) := by
      rw [List.forall₂_map_left_iff, List.forall₂_map_right_iff, List.forall₂_same]
      exact more
    have behind : (others.flatMap fun cell => ',' :: cell.2) =
        (others.map Prod.snd).flatMap (',' :: ·) := (List.flatMap_map _ _ _).symm
    rw [behind]
    exact reads_written first later ends

/-- A cell does not begin with a line ending. -/
theorem CellText.head (written : CellText content text) :
    ∀ c ∈ text.head?, c ≠ '\n' ∧ c ≠ '\r' := by
  cases written with
  | bare plain =>
    intro c head
    exact (plain c (List.mem_of_mem_head? head)).2
  | quoted =>
    rintro c ⟨⟩
    decide

/-- A line does not begin with a line ending. -/
theorem LineText.head (written : LineText cells text) : ∀ c ∈ text.head?, c ≠ '\n' ∧ c ≠ '\r' := by
  cases written with
  | @cells content text others first more =>
    cases text with
    | cons c text => exact first.head
    | nil =>
      cases others with
      | nil => nofun
      | cons second others =>
        rintro c ⟨⟩
        decide

/-! ## Line endings -/

/-- A line ending is a line ending to the cells before it. -/
theorem Ending.endsLine (one : Ending ending) (rest : List Char) : EndsLine (ending ++ rest) := by
  rintro c head
  cases one <;> cases head <;> decide

theorem Ending.length_pos (one : Ending ending) : 0 < ending.length := by
  cases one <;> exact Nat.succ_pos _

/-- A line ending is read in full, if it is not the beginning of a longer one. -/
theorem reads_lineEnd (one : Ending ending) (longest : ∀ c ∈ rest.head?, ¬ Ending (ending ++ [c])) :
    lineEnd.Reads whole (ending ++ rest) (.text (String.ofList ending)) rest := by
  refine Answers.label _ ?_
  cases one with
  | newline =>
    have alone : ¬ "\n\r".toList <+: ['\n'] ++ rest := by
      rintro ⟨later, same⟩
      obtain rfl : rest = '\r' :: later := (List.cons.inj same).2.symm
      exact longest '\r' rfl .newlineReturn
    refine (refuses_literal alone).choice ((refuses_literal_at rfl ?_).choice
      (reads_literal rfl rest).choice)
    rintro c ⟨⟩
    decide
  | carriageReturn =>
    have alone : ¬ "\r\n".toList <+: ['\r'] ++ rest := by
      rintro ⟨later, same⟩
      obtain rfl : rest = '\n' :: later := (List.cons.inj same).2.symm
      exact longest '\n' rfl .returnNewline
    have other : ∀ c ∈ (['\r'] ++ rest).head?, c ≠ '\n' := by
      rintro c ⟨⟩
      decide
    exact (refuses_literal_at rfl other).choice ((refuses_literal alone).choice
      ((refuses_literal_at rfl other).choice (reads_literal rfl rest).choice))
  | returnNewline =>
    refine (refuses_literal_at rfl ?_).choice (reads_literal rfl rest).choice
    rintro c ⟨⟩
    decide
  | newlineReturn => exact (reads_literal rfl rest).choice

/-- Where no character of a line ending comes, there is no line ending. -/
theorem refuses_lineEnd (stops : ∀ c ∈ rest.head?, c ≠ '\n' ∧ c ≠ '\r') :
    lineEnd.Refuses whole rest := by
  refine Answers.label _ (refuses_choice ?_)
  intro part member
  simp only [List.mem_cons, List.not_mem_nil, or_false] at member
  rcases member with rfl | rfl | rfl | rfl
  · exact refuses_literal_at rfl fun c head => (stops c head).1
  · exact refuses_literal_at rfl fun c head => (stops c head).2
  · exact refuses_literal_at rfl fun c head => (stops c head).1
  · exact refuses_literal_at rfl fun c head => (stops c head).2

/-! ## Tables -/

/-- Where a table goes on, its line ending is not the beginning of a longer one. -/
theorem TableText.longest (one : Ending ending) (written : TableText ending lines text) :
    ∀ c ∈ text.head?, ¬ Ending (ending ++ [c]) := by
  have ordinary {cells : List String} {text : List Char} (line : LineText cells text) :
      ∀ c ∈ text.head?, ¬ Ending (ending ++ [c]) := by
    intro c head longer
    have noEnding := line.head c head
    cases one with
    | newline => cases longer; exact noEnding.2 rfl
    | carriageReturn => cases longer; exact noEnding.1 rfl
    | returnNewline | newlineReturn => cases longer
  cases written with
  | none => nofun
  | unended line => exact ordinary line
  | @ended cells lines text later line others =>
    intro c head
    cases text with
    | cons first text => exact ordinary line c head
    | nil =>
      intro longer
      cases one <;> cases head <;> cases longer

/-- A line that holds one empty cell may be written as nothing at all. -/
theorem LineText.empty : LineText [""] [] := by
  have cell : CellText "" "".toList := .bare (by simp) (by simp)
  exact @LineText.cells "" [] [] cell nofun

/-- A text is gone through line by line. The ended lines make a row, and what is left when no other
one comes is read as the last line, or it is nothing. -/
def Covers (whole : Array Char) (chars : List Char) (ended : List Value) (last : Value)
    (left : List Char) : Prop :=
  ∃ rest, Row ((line.followedBy lineEnd).Steps whole) chars ended rest ∧
    (line.followedBy lineEnd).Refuses whole rest ∧
    (optional (guarded atEnd [line])).Reads whole rest last left

section
variable {chars left : List Char} {v last : Value} {ended : List Value}

theorem covers_none : Covers whole [] [] .absent [] :=
  ⟨[], .none, (reads_line .empty endsLine_nil).followedBy_refuses (refuses_lineEnd nofun),
    (Refuses.chain reads_atEnd.refusing).optional⟩

/-- The last line has no ending. -/
theorem covers_last (some : chars ≠ []) (reads : line.Reads whole chars v left)
    (unended : lineEnd.Refuses whole left) : Covers whole chars [] v left := by
  refine ⟨chars, .none, reads.followedBy_refuses unended, ?_⟩
  cases chars with
  | nil => exact absurd rfl some
  | cons c chars => exact Reads.choice ((refuses_atEnd c chars).refusing.before reads)

theorem Covers.more (one : Ending ending) (longest : ∀ c ∈ rest.head?, ¬ Ending (ending ++ [c]))
    (reads : line.Reads whole (text ++ (ending ++ rest)) v (ending ++ rest))
    (covers : Covers whole rest ended last left) :
    Covers whole (text ++ (ending ++ rest)) (v :: ended) last left := by
  obtain ⟨unended, row, refuses, atLast⟩ := covers
  refine ⟨unended, .more ⟨reads.followedBy (reads_lineEnd one longest), ?_⟩ row, refuses, atLast⟩
  have some : 0 < ending.length := one.length_pos
  simp only [List.length_append]
  omega

/-- A text that is gone through to its end is a table. -/
theorem Covers.reads (covers : Covers whole chars ended last []) :
    table.Reads whole chars (.list (withLast ended last)) [] := by
  obtain ⟨rest, row, refuses, atLast⟩ := covers
  exact (row_collect_any row refuses).script_items (atLast.script_parse
    (reads_atEnd.script_parse ((reads_succeed _).script_done _)))

theorem withLast_cons (v : Value) (ended : List Value) (last : Value) :
    withLast (v :: ended) last = v :: withLast ended last := by
  cases last <;> rfl

end

/-- A table is gone through to its end. -/
theorem covers_table (one : Ending ending) (written : TableText ending lines text) :
    ∃ ended last, Covers whole text ended last [] ∧ withLast ended last = lines.map lineValue := by
  induction written with
  | none => exact ⟨[], .absent, covers_none, rfl⟩
  | @unended cells text line some =>
    have reads : Csv.line.Reads whole (text ++ []) (lineValue cells) [] :=
      reads_line line endsLine_nil
    rw [List.append_nil] at reads
    exact ⟨[], lineValue cells, covers_last some reads (refuses_lineEnd nofun), rfl⟩
  | @ended cells lines text later line others inductionHypothesis =>
    obtain ⟨ended, last, covers, all⟩ := inductionHypothesis
    refine ⟨lineValue cells :: ended, last,
      covers.more one (others.longest one) (reads_line line (one.endsLine later)), ?_⟩
    rw [withLast_cons, all, List.map_cons]

/-- A table is read back as it was written, in whatever way. -/
theorem table_read_back {t : String} (one : Ending ending)
    (written : TableText ending lines t.toList) :
    (parse (.ofString t)).result = .ok (.list (lines.map lineValue)) := by
  have covered : ∃ ended last, Covers t.toList.toArray t.toList ended last [] ∧
      withLast ended last = lines.map lineValue := covers_table one written
  obtain ⟨ended, last, covers, all⟩ := covered
  rw [← all]
  exact Reads.parseValue covers.reads

/-- A line with a comma and a quote in its first cell and nothing in its second, and a line that
does not end. -/
theorem table_read_back_quoted :
    TableText ['\r', '\n'] [["a,\"b", ""], ["x"]] "\"a,\"\"b\",\r\nx".toList ∧
      (parse (.ofString "\"a,\"\"b\",\r\nx")).result =
        .ok (.list [.list [.text "a,\"b", .text ""], .list [.text "x"]]) := by
  have blank : CellText "" "".toList := .bare (by simp) (by simp)
  have bare : CellText "x" "x".toList := .bare (by simp) (by simp)
  have first : LineText ["a,\"b", ""] _ :=
    @LineText.cells _ _ [("", [])] (.quoted "a,\"b") (by simpa using blank)
  have second : LineText ["x"] _ := @LineText.cells _ _ [] bare nofun
  have written : TableText ['\r', '\n'] [["a,\"b", ""], ["x"]] "\"a,\"\"b\",\r\nx".toList :=
    .ended first (.unended second (by decide))
  exact ⟨written, table_read_back .returnNewline written⟩

end Descent.Grammar.Csv
