import Descent.Grammar.Json
import Descent.Proofs.Numerals

/-!
# Written documents

A JSON value may be written in many ways: with blanks wherever a value, a mark of punctuation or a
key begins or ends, with characters of a string as they are or escaped, with numbers in any form
that is a decimal number. Whatever the way, the value is read back.

Blanks are taken together with what they stand next to, before it and after it, and the same run
may be in reach of several rules. Therefore a reading is described up to the blanks it starts
with: it starts where the first character stands that is no blank, and it leaves a text that
begins with no blank. The proof goes by induction on how the value is written. An inner value is
read by the rule inside itself, which has fewer characters left than the outer one.
-/

namespace Descent.Grammar.Json

open Descent.Parser

/-! ## Writing -/

/-- A run of blanks, which may be empty. -/
def Blanks (run : List Char) : Prop := ∀ c ∈ run, blank c = true

/-- A text with blanks on both sides. -/
inductive Padded (core : List Char) : List Char → Prop where
  | around {before after : List Char} (front : Blanks before) (back : Blanks after) :
    Padded core (before ++ (core ++ after))

/-- The letters of the short escapes and what they stand for. -/
inductive Escape : Char → Char → Prop where
  | quote : Escape '"' '"'
  | backslash : Escape '\\' '\\'
  | slash : Escape '/' '/'
  | backspace : Escape 'b' '\x08'
  | formFeed : Escape 'f' '\x0c'
  | newline : Escape 'n' '\n'
  | carriageReturn : Escape 'r' '\r'
  | tab : Escape 't' '\t'

/-- A character of a string is written as it is, unless it is a quote or a backslash, or as a short
escape, or by the four hexadecimal digits of its code point. -/
inductive CharText : Char → List Char → Prop where
  | raw {c : Char} (noQuote : c ≠ '"') (noBackslash : c ≠ '\\') : CharText c [c]
  | short {letter c : Char} (escape : Escape letter c) : CharText c ['\\', letter]
  | hex {c : Char} {digits : List Char} (four : digits.length = 4)
    (code : positional? 16 digits = some c.toNat) : CharText c ('\\' :: 'u' :: digits)

/-- The characters of a string are written one after another. -/
inductive LettersText : List Char → List Char → Prop where
  | none : LettersText [] []
  | more {c : Char} {content text others : List Char} (first : CharText c text)
    (later : LettersText content others) : LettersText (c :: content) (text ++ others)

/-- A string stands between quotes. -/
inductive StringText : String → List Char → Prop where
  | quoted {content : String} {letters : List Char} (letter : LettersText content.toList letters) :
    StringText content ('"' :: (letters ++ ['"']))

/-- Texts with commas between them. If there are none, there may be blanks. -/
inductive CommasText : List (List Char) → List Char → Prop where
  | none {run : List Char} (blanks : Blanks run) : CommasText [] run
  | some (first : List Char) (more : List (List Char)) :
    CommasText (first :: more) (first ++ more.flatMap fun text => ',' :: text)

/-- A key and a value, with a text for each. -/
structure Member where
  key : String
  value : Value
  keyText : List Char
  valueText : List Char

/-- The text of a member. -/
def Member.text (m : Member) : List Char := m.keyText ++ ':' :: m.valueText

/-- A text is a way to write a value down. A number is whatever its text is read as on its own,
within a limit to its digits. -/
inductive Written (limit : Option Nat) : Value → List Char → Prop where
  | null {text : List Char} (padded : Padded ['n', 'u', 'l', 'l'] text) : Written limit .null text
  | truth {text : List Char} (padded : Padded ['t', 'r', 'u', 'e'] text) :
    Written limit (.bool true) text
  | falsity {text : List Char} (padded : Padded ['f', 'a', 'l', 's', 'e'] text) :
    Written limit (.bool false) text
  | number {v : Value} {x : Float} {core text : List Char} (numeral : RealText core x)
    (alone : ((real limit).parseValue (.ofString (String.ofList core))).result = .ok v)
    (padded : Padded core text) : Written limit v text
  | string {content : String} {core text : List Char} (quoted : StringText content core)
    (padded : Padded core text) : Written limit (.text content) text
  | array {items : List (Value × List Char)} {body text : List Char}
    (each : ∀ item ∈ items, Written limit item.1 item.2)
    (inside : CommasText (items.map Prod.snd) body)
    (padded : Padded ('[' :: (body ++ [']'])) text) :
    Written limit (.list (items.map Prod.fst)) text
  | object {members : List Member} {body text : List Char}
    (keys : ∀ m ∈ members, ∃ core, StringText m.key core ∧ Padded core m.keyText)
    (each : ∀ m ∈ members, Written limit m.value m.valueText)
    (distinct : (members.map Member.key).Nodup)
    (inside : CommasText (members.map Member.text) body)
    (padded : Padded ('{' :: (body ++ ['}'])) text) :
    Written limit (.dict (members.map fun m => (.text m.key, m.value))) text

variable {whole : Array Char} {inner p : Parser} {v : Value} {c : Char} {content : String}
  {core text body rest others chars : List Char} {limit : Option Nat}

/-! ## Strings -/

/-- Hexadecimal digits are made into the character whose number they are. -/
theorem character_made {digits : List Char} {n : Nat}
    (code : positional? 16 digits = some n) (character : charOf (n : Int) = .ok c) :
    (do
      let joined ← joinTexts
        ((Value.list ((digits.map Char.toString).map .text)).items?.getD [])
      let code ← readNumeral 16 joined
      let c ← charOf code
      return Value.text c.toString : Except Fault Value) = .ok (.text c.toString) := by
  have number : readNumeral 16 (String.ofList digits) = .ok (n : Int) :=
    readNumeral_found (by omega) code rfl
  rw [Value.items?, Option.getD_some, joinTexts_texts, join_map_toString]
  change (readNumeral 16 (String.ofList digits) >>= fun code => charOf code >>= fun c =>
    Except.ok (Value.text c.toString)) = _
  rw [number]
  change (charOf n >>= fun c => Except.ok (Value.text c.toString)) = _
  rw [character]
  rfl

/-- What is read as a number of base sixteen is made up of its digits. -/
theorem digits_of_code {digits : List Char} {n : Nat} (code : positional? 16 digits = some n) :
    ∀ d ∈ digits, digitOf 16 d = true := by
  intro d member
  obtain ⟨value, read, small⟩ := positional?_digits code d member
  have same := digitOf_eq (by decide : 16 ≤ 20) d
  rw [read] at same
  simpa [small] using same

/-- A character is the one whose number it has. -/
theorem charOf_toNat (c : Char) : charOf (c.toNat : Int) = .ok c := by
  have valid : c.toNat.isValidChar := c.valid
  have below : c.toNat < 0x110000 := by
    rcases valid with low | high
    · omega
    · exact high.2
  rw [charOf, if_neg (by omega), Int.toNat_natCast, if_pos valid, Char.ofNat_toNat]

theorem reads_unicodeHex {digits : List Char} {n : Nat} (four : digits.length = 4)
    (code : positional? 16 digits = some n) (character : charOf (n : Int) = .ok c) :
    unicodeHex.Reads whole (digits ++ rest) (.text c.toString) rest := by
  have row : Row ((digit 16).Steps whole) (digits ++ rest) _ rest :=
    (digit_picks 16).row digits rest (digits_of_code code)
  exact (row_exactly row 4 (by simpa using four)).map (character_made code character)

/-- A code in four digits is read as the character it names. -/
theorem reads_code {digits : List Char} {n : Nat} (four : digits.length = 4)
    (code : positional? 16 digits = some n) (character : charOf (n : Int) = .ok c) :
    escaped.Reads whole ('\\' :: 'u' :: (digits ++ rest)) (.text c.toString) rest := by
  refine Reads.script_parse (reads_literal rfl _) ?_
  refine (reads_token 'u' _).script_text ?_
  rw [if_pos (by decide)]
  exact (reads_unicodeHex four code character).script_done _

/-- A short escape is read as what its letter stands for. -/
theorem reads_escape {letter : Char} (other : letter ≠ 'u')
    (stands : unescaped letter.toString = c.toString) :
    escaped.Reads whole ('\\' :: letter :: rest) (.text c.toString) rest := by
  refine Reads.script_parse (reads_literal rfl (letter :: rest)) ?_
  refine (reads_token letter rest).script_text ?_
  have unlike : letter.toString ≠ "u" := fun same => other (String.singleton_inj.mp same)
  rw [if_neg unlike, stands]
  exact (reads_succeed _).script_done _

/-- A character of a string is read back however it is written. -/
theorem reads_char (written : CharText c text) :
    (choice escaped [noneOf "\"" []]).Reads whole (text ++ rest) (.text c.toString) rest := by
  cases written with
  | raw noQuote noBackslash =>
    have noEscape : escaped.Refuses whole ([c] ++ rest) := by
      refine Refuses.script _ (refuses_literal_at rfl ?_)
      rintro d ⟨⟩
      exact noBackslash
    exact noEscape.either (quoteless_picks.reads (by simpa using noQuote))
  | @short letter _ escape =>
    have known : letter ≠ 'u' ∧ unescaped letter.toString = c.toString := by
      cases escape <;> decide
    exact Reads.choice (reads_escape known.1 known.2)
  | hex four code => exact Reads.choice (reads_code four code (charOf_toNat c))

/-- The characters of a string are read one after another. -/
theorem row_letters {content letters : List Char} (written : LettersText content letters)
    (rest : List Char) :
    Row ((choice escaped [noneOf "\"" []]).Steps whole) (letters ++ rest)
      ((content.map Char.toString).map .text) rest := by
  induction written with
  | none => exact .none
  | more first later inductionHypothesis =>
    rw [List.append_assoc]
    refine .more ⟨reads_char first, ?_⟩ inductionHypothesis
    cases first <;> simp only [List.length_append, List.length_cons] <;> omega

/-- A quote is no character of a string. -/
theorem refuses_char (rest : List Char) :
    (choice escaped [noneOf "\"" []]).Refuses whole ('"' :: rest) := by
  refine Refuses.either (Refuses.script _ (refuses_literal_at rfl ?_)) (quoteless_picks.refuses ?_)
  · rintro c ⟨⟩
    decide
  · rintro c ⟨⟩
    rfl

/-- Characters are read between quotes if they are read up to the closing one. -/
theorem reads_quoted {letters content : List Char}
    (row : Row ((choice escaped [noneOf "\"" []]).Steps whole) (letters ++ '"' :: rest)
      ((content.map Char.toString).map .text) ('"' :: rest)) :
    string.Reads whole ('"' :: (letters ++ '"' :: rest)) (.text (String.ofList content)) rest := by
  have inside := Reads.textOf (row_collect_any row (refuses_char rest))
  rw [join_map_toString] at inside
  exact (reads_literal rfl _).before
    (inside.followedBy (Answers.label _ (reads_literal rfl rest)))

/-- A string is read to its closing quote. -/
theorem reads_string (written : StringText content core) :
    string.Reads whole (core ++ rest) (.text content) rest := by
  cases written with
  | quoted letter =>
    rw [List.cons_append, List.append_assoc, ← String.ofList_toList (s := content)]
    exact reads_quoted (row_letters letter ('"' :: rest))

/-! ## Marks and their blanks -/

/-- A text begins with what may come after a value: a blank, a comma or a closing mark. -/
def EndsValue (rest : List Char) : Prop :=
  ∀ c ∈ rest.head?, blank c = true ∨ c = ',' ∨ c = ']' ∨ c = '}'

theorem EndsValue.endsReal (ends : EndsValue rest) : EndsReal rest := by
  intro c head
  rcases ends c head with space | rfl | rfl | rfl
  · rcases (blank_iff c).mp space with rfl | rfl | rfl | rfl <;> decide
  · decide
  · decide
  · decide

/-- Blanks after a value do not hide what comes after them. -/
theorem EndsValue.behind {run : List Char} (blanks : Blanks run) (ends : EndsValue rest) :
    EndsValue (run ++ rest) := by
  cases run with
  | nil => exact ends
  | cons c run =>
    rintro d ⟨⟩
    exact Or.inl (blanks c List.mem_cons_self)

/-- A text that begins with no blank is reached through the blanks in front of it. -/
theorem Padded.dropBlanks_append (padded : Padded (c :: others) text) (solid : blank c = false)
    (rest : List Char) :
    ∃ after, Blanks after ∧ dropBlanks (text ++ rest) = c :: (others ++ (after ++ rest)) := by
  cases padded with
  | @around before after front back =>
    refine ⟨after, back, ?_⟩
    rw [List.append_assoc, Descent.dropBlanks_append front, List.append_assoc, List.cons_append]
    exact dropBlanks_cons solid _

/-- A mark with blanks around it. -/
theorem reads_mark {mark : String} (letters : mark.toList = [c])
    (found : dropBlanks chars = c :: rest) :
    (trim (literal mark)).Reads whole chars (.text mark) (dropBlanks rest) := by
  refine Reads.trim ?_
  rw [found]
  exact reads_literal letters rest

/-- Another mark is refused. -/
theorem refuses_mark {mark : String} {d : Char} (letters : mark.toList = [d])
    (solid : blank c = false) (other : c ≠ d) :
    (trim (literal mark)).Refuses whole (c :: others) := by
  refine Refuses.trim ?_
  rw [dropBlanks_cons solid]
  refine refuses_literal_at letters ?_
  rintro _ ⟨⟩
  exact other

/-! ## The kinds of values by their first characters -/

theorem refuses_object (solid : blank c = false) (other : c ≠ '{') :
    (object inner).Refuses whole (c :: others) :=
  Refuses.map (Refuses.between (refuses_mark rfl solid other))

theorem refuses_array (solid : blank c = false) (other : c ≠ '[') :
    (array inner).Refuses whole (c :: others) :=
  Refuses.between (refuses_mark rfl solid other)

theorem refuses_boolean (noTruth : c ≠ 't') (noFalsity : c ≠ 'f') :
    boolean.Refuses whole (c :: others) := by
  refine Refuses.map (Answers.label _ (Refuses.either (refuses_literal_at rfl ?_)
    (refuses_literal_at rfl ?_)))
  · rintro _ ⟨⟩
    exact noTruth
  · rintro _ ⟨⟩
    exact noFalsity

theorem refuses_null (other : c ≠ 'n') : null.Refuses whole (c :: others) := by
  refine Answers.label _ (Refuses.choice_nil (Refuses.chain (refuses_literal_at rfl ?_)))
  rintro _ ⟨⟩
  exact other

theorem refuses_string (other : c ≠ '"') : string.Refuses whole (c :: others) := by
  refine Refuses.between (refuses_literal_at rfl ?_)
  rintro _ ⟨⟩
  exact other

/-- A closing mark is no value. -/
theorem refuses_value (closing : c = ']' ∨ c = '}') :
    (value limit).Refuses whole (c :: others) := by
  have solid : blank c = false := by rcases closing with rfl | rfl <;> rfl
  refine Answers.recursive (Refuses.trim ?_)
  rw [dropBlanks_cons solid]
  have unlike (d : Char) (open_ : d ≠ ']' ∧ d ≠ '}') : c ≠ d := by
    rcases closing with rfl | rfl
    · exact open_.1.symm
    · exact open_.2.symm
  refine (refuses_object solid (unlike _ (by decide))).choice
    ((refuses_array solid (unlike _ (by decide))).choice
    ((refuses_boolean (unlike _ (by decide)) (unlike _ (by decide))).choice
    ((refuses_null (unlike _ (by decide))).choice
    ((refuses_string (unlike _ (by decide))).choice (Refuses.choice_nil (refuses_real ?_ ?_))))))
  · rintro _ ⟨⟩
    rcases closing with rfl | rfl <;> decide
  · rintro _ ⟨⟩
    rcases closing with rfl | rfl <;> decide

/-! ## Values between marks -/

/-- With fewer than so many characters left, a parser reads a value that is written down, up to the
blanks at both ends. -/
def ReadsSpaced (p : Parser) (whole : Array Char) (below : Nat) (v : Value) (text : List Char) :
    Prop :=
  ∀ rest, EndsValue rest → (text ++ rest).length < below →
    p.Reads whole (dropBlanks (text ++ rest)) v (dropBlanks rest)

variable {below : Nat} {items : List (Value × List Char)} {member : Member}

/-- What stands behind an item in a list: commas with other items, and the closing mark. -/
def itemsBehind (items : List (Value × List Char)) (rest : List Char) : List Char :=
  (items.flatMap fun item => ',' :: item.2) ++ rest

/-- Items that come after commas are read one after another. -/
theorem row_items (closing : c = ']' ∨ c = '}')
    (each : ∀ item ∈ items, ReadsSpaced p whole below item.1 item.2)
    (fits : (itemsBehind items (c :: rest)).length ≤ below) :
    (EndsValue (itemsBehind items (c :: rest)) ∧
      dropBlanks (itemsBehind items (c :: rest)) = itemsBehind items (c :: rest)) ∧
      Row ((chain comma [p]).Steps whole) (itemsBehind items (c :: rest)) (items.map Prod.fst)
        (c :: rest) := by
  unfold itemsBehind at fits ⊢
  induction items with
  | nil =>
    refine ⟨⟨?_, dropBlanks_eq_self ?_⟩, .none⟩
    · rintro d ⟨⟩
      exact Or.inr (Or.inr closing)
    · rintro d ⟨⟩
      rcases closing with rfl | rfl <;> rfl
  | cons item items inductionHypothesis =>
    rw [List.flatMap_cons, List.append_assoc, List.cons_append] at fits ⊢
    rw [List.length_cons] at fits
    obtain ⟨⟨ends, kept⟩, row⟩ := inductionHypothesis
      (fun later member => each later (List.mem_cons_of_mem _ member))
      (by rw [List.length_append] at fits; omega)
    have reads := each item List.mem_cons_self _ ends (by omega)
    rw [kept] at reads
    refine ⟨⟨?_, dropBlanks_cons rfl _⟩,
      .more ⟨(reads_mark rfl (dropBlanks_cons rfl _)).before reads, ?_⟩ row⟩
    · rintro d ⟨⟩
      exact Or.inr (Or.inl rfl)
    · simp only [List.length_cons, List.length_append]
      omega

/-- Items with commas between them are read up to the closing mark. -/
theorem reads_items (closing : c = ']' ∨ c = '}')
    (each : ∀ item ∈ items, ReadsSpaced p whole below item.1 item.2)
    (inside : CommasText (items.map Prod.snd) body) (empty : p.Refuses whole (c :: rest))
    (fits : (body ++ c :: rest).length < below) :
    (split p comma).Reads whole (dropBlanks (body ++ c :: rest)) (.list (items.map Prod.fst))
      (c :: rest) := by
  have solid : blank c = false := by rcases closing with rfl | rfl <;> rfl
  cases items with
  | nil =>
    cases inside with
    | none blanks =>
      rw [Descent.dropBlanks_append blanks, dropBlanks_cons solid]
      exact empty.split
  | cons first items =>
    have body_eq : body ++ c :: rest = first.2 ++ itemsBehind items (c :: rest) := by
      cases inside with
      | some =>
        rw [List.append_assoc, itemsBehind, List.flatMap_map]
    rw [body_eq] at fits ⊢
    have later : (itemsBehind items (c :: rest)).length ≤ below := by
      rw [List.length_append] at fits
      omega
    obtain ⟨⟨ends, kept⟩, row⟩ := row_items closing
      (fun item member => each item (List.mem_cons_of_mem _ member)) later
    have reads := each first List.mem_cons_self _ ends fits
    rw [kept] at reads
    have noComma : (chain comma [p]).Refuses whole (c :: rest) :=
      Refuses.chain (refuses_mark rfl solid (by rcases closing with rfl | rfl <;> decide))
    exact row_split reads row noComma

/-- Items between two marks. -/
theorem reads_between {opening closing : String} {first : Char} (letters : opening.toList = [first])
    (solid : blank first = false) (mark : closing.toList = [c]) (closes : c = ']' ∨ c = '}')
    (each : ∀ item ∈ items, ReadsSpaced p whole below item.1 item.2)
    (inside : CommasText (items.map Prod.snd) body) (empty : p.Refuses whole (c :: rest))
    (fits : (body ++ c :: rest).length < below) :
    (between (trim (literal opening)) (trim (literal closing)) (split p comma)).Reads whole
      (first :: (body ++ c :: rest)) (.list (items.map Prod.fst)) (dropBlanks rest) := by
  have solidEnd : blank c = false := by rcases closes with rfl | rfl <;> rfl
  exact (reads_mark letters (dropBlanks_cons solid _)).before
    ((reads_items closes each inside empty fits).followedBy
      (reads_mark mark (dropBlanks_cons solidEnd _)))

/-- A key, a colon and a value. -/
theorem reads_member (key : StringText member.key core) (padded : Padded core member.keyText)
    (reads : ReadsSpaced p whole below member.value member.valueText) :
    ReadsSpaced (Json.member p) whole below (.tuple [.text member.key, member.value])
      member.text := by
  intro rest ends fits
  rw [Member.text] at fits ⊢
  rw [List.append_assoc, List.cons_append] at fits ⊢
  cases key with
  | @quoted letters letter =>
    obtain ⟨after, blanks, found⟩ :=
      padded.dropBlanks_append rfl (':' :: (member.valueText ++ rest))
    rw [found]
    refine Reads.script_parse (reads_string (.quoted letter)) ?_
    have colon : dropBlanks (after ++ ':' :: (member.valueText ++ rest)) =
        ':' :: (member.valueText ++ rest) := by
      rw [Descent.dropBlanks_append blanks, dropBlanks_cons rfl]
    refine (reads_mark rfl colon).script_parse ?_
    refine (reads rest ends ?_).script_parse ((reads_succeed _).script_done _)
    rw [List.length_append, List.length_cons] at fits
    omega

/-! ## Dictionaries -/

/-- A key that is not there yet comes last. -/
theorem putEntry_new (key : String) (built : List (String × Value))
    (fresh : ∀ entry ∈ built, entry.1 ≠ key) :
    Value.putEntry (.text key) v (built.map fun entry => (.text entry.1, entry.2)) =
      (built ++ [(key, v)]).map fun entry => (.text entry.1, entry.2) := by
  induction built with
  | nil => rfl
  | cons entry built inductionHypothesis =>
    have differs : Value.same (.text entry.1) (.text key) = false := by
      simpa [Value.same] using fresh entry List.mem_cons_self
    have later := inductionHypothesis fun entry member =>
      fresh entry (List.mem_cons_of_mem _ member)
    rw [List.map_cons, Value.putEntry, differs, if_neg Bool.false_ne_true, later]
    rfl

/-- A dictionary of distinct keys keeps its entries as they are. -/
theorem dictOf_distinct {entries : List (String × Value)}
    (distinct : (entries.map Prod.fst).Nodup) :
    Value.dictOf (entries.map fun entry => (.text entry.1, entry.2)) =
      .dict (entries.map fun entry => (.text entry.1, entry.2)) := by
  -- The entries that come in one by one are new to those that are there.
  have goesOn : ∀ later built : List (String × Value),
      ((built ++ later).map Prod.fst).Nodup →
      (later.map fun entry => ((.text entry.1, entry.2) : Value × Value)).foldl
          (fun built entry => Value.putEntry entry.1 entry.2 built)
          (built.map fun entry => (.text entry.1, entry.2)) =
        (built ++ later).map fun entry => (.text entry.1, entry.2) := by
    intro later
    induction later with
    | nil =>
      intro built _
      rw [List.append_nil]
      rfl
    | cons entry later inductionHypothesis =>
      intro built distinct
      have fresh : ∀ known ∈ built, known.1 ≠ entry.1 := by
        intro known member same
        rw [List.map_append, List.nodup_append] at distinct
        exact distinct.2.2 known.1 (List.mem_map_of_mem member) entry.1 List.mem_cons_self same
      rw [List.map_cons, List.foldl_cons, putEntry_new entry.1 built fresh]
      have onwards := inductionHypothesis (built ++ [entry])
      rw [List.append_assoc] at onwards
      exact onwards distinct
  exact congrArg Value.dict (goesOn entries [] distinct)

/-- Members with different keys make up the dictionary of them. -/
theorem dictionary_members {members : List Member} (distinct : (members.map Member.key).Nodup) :
    dictionary (.list (members.map fun m => .tuple [.text m.key, m.value])) =
      .ok (.dict (members.map fun m => (.text m.key, m.value))) := by
  have pairs : (members.map fun m => Value.tuple [.text m.key, m.value]).mapM pair? =
      some (members.map fun m => (.text m.key, m.value)) := by
    rw [List.mapM_map]
    exact List.mapM_pure
  have same := @dictOf_distinct (members.map fun m => (m.key, m.value))
  rw [List.map_map, List.map_map] at same
  rw [dictionary, Value.items?, Option.getD_some, pairs]
  exact congrArg Except.ok (same distinct)

/-! ## Values -/

/-- Any value, without the blanks around it. -/
def unpadded (limit : Option Nat) (inner : Parser) : Parser :=
  choice (object inner) [array inner, boolean, null, string, real limit]

theorem unpadded_null :
    (unpadded limit inner).Reads whole (['n', 'u', 'l', 'l'] ++ rest) .null rest :=
  (refuses_object rfl (by decide)).choice ((refuses_array rfl (by decide)).choice
    ((refuses_boolean (by decide) (by decide)).choice (Reads.choice (Answers.label _
      (Reads.choice ((reads_literal rfl rest).before (reads_succeed _)))))))

theorem unpadded_boolean {letters : List Char} {b : Bool}
    (reads : boolean.Reads whole (c :: letters) (.bool b) rest) (solid : blank c = false)
    (noObject : c ≠ '{') (noArray : c ≠ '[') :
    (unpadded limit inner).Reads whole (c :: letters) (.bool b) rest :=
  (refuses_object solid noObject).choice ((refuses_array solid noArray).choice (Reads.choice reads))

theorem reads_truth : boolean.Reads whole (['t', 'r', 'u', 'e'] ++ rest) (.bool true) rest :=
  Reads.map (Answers.label _ (Reads.choice (reads_literal rfl rest))) (by simp [Value.same])

theorem reads_falsity :
    boolean.Reads whole (['f', 'a', 'l', 's', 'e'] ++ rest) (.bool false) rest := by
  have other : (literal "true").Refuses whole (['f', 'a', 'l', 's', 'e'] ++ rest) :=
    refuses_literal_at rfl (by rintro c ⟨⟩; decide)
  have word : (literal "false").Reads whole (['f', 'a', 'l', 's', 'e'] ++ rest) (.text "false")
      rest := reads_literal rfl rest
  exact Reads.map (Answers.label _ (other.either word)) (by simp [Value.same])

/-- Where a quote comes, a value is a string or nothing at all. -/
theorem unpadded_quoted {reply : Reply} (answer : string.Answers whole ('"' :: others) reply) :
    (unpadded limit inner).Answers whole ('"' :: others) reply := by
  refine (refuses_object rfl (by decide)).choice ((refuses_array rfl (by decide)).choice
    ((refuses_boolean (by decide) (by decide)).choice ((refuses_null (by decide)).choice ?_)))
  rcases reply with _ | ⟨v, rest⟩
  · have noNumber : (real limit).Refuses whole ('"' :: others) :=
      refuses_real (by rintro c ⟨⟩; decide) (by rintro c ⟨⟩; decide)
    exact Refuses.either answer noNumber
  · exact Reads.choice answer

theorem unpadded_string (written : StringText content core) :
    (unpadded limit inner).Reads whole (core ++ rest) (.text content) rest := by
  have reads : string.Reads whole (core ++ rest) (.text content) rest := reads_string written
  cases written with
  | quoted letter => exact unpadded_quoted reads

/-- A number begins with no blank, and with nothing that another kind of value begins with. -/
theorem number_start {x : Float} (numeral : RealText core x) :
    ∃ c others, core = c :: others ∧ blank c = false ∧
      ∀ d ∈ ['{', '[', 't', 'f', 'n', '"'], c ≠ d := by
  obtain ⟨c, others, rfl, start⟩ := numeral.head
  refine ⟨c, others, rfl, ?_, ?_⟩
  · rw [← Bool.not_eq_true, blank_iff]
    rintro (rfl | rfl | rfl | rfl) <;> exact absurd start (by decide)
  · have table : ∀ d ∈ ['{', '[', 't', 'f', 'n', '"'],
        ¬ (d.isDigit = true ∨ d = '.' ∨ d = '+' ∨ d = '-') := by simp
    rintro d member rfl
    exact table c member start

theorem unpadded_number {x : Float} (numeral : RealText core x) (ends : EndsReal rest)
    (fits : overlong? limit (behindLetter core) = none) :
    (unpadded limit inner).Reads whole (core ++ rest) (.float x) rest := by
  have reads : (real limit).Reads whole (core ++ rest) (.float x) rest :=
    reads_real numeral ends fits
  obtain ⟨c, others, rfl, solid, unlike⟩ := number_start numeral
  exact (refuses_object solid (unlike _ (by decide))).choice
    ((refuses_array solid (unlike _ (by decide))).choice
    ((refuses_boolean (unlike _ (by decide)) (unlike _ (by decide))).choice
    ((refuses_null (unlike _ (by decide))).choice
    ((refuses_string (unlike _ (by decide))).choice (Reads.choice reads)))))

/-- A value is read up to the blanks around it, if its text is read without them. Inside itself
the rule stands where fewer characters are left. -/
theorem reads_padded (padded : Padded (c :: others) text) (solid : blank c = false)
    (ends : EndsValue rest) (start : dropBlanks chars = dropBlanks (text ++ rest))
    (reads : ∀ tail, EndsValue tail → (c :: (others ++ tail)).length ≤ chars.length →
      ∃ left, dropBlanks left = dropBlanks tail ∧
        (unpadded limit (Parser.within (valueOver limit) chars.length)).Reads whole
          (c :: (others ++ tail)) v left) :
    (value limit).Reads whole chars v (dropBlanks rest) := by
  obtain ⟨after, blanks, found⟩ := padded.dropBlanks_append solid rest
  rw [found] at start
  have fits : (c :: (others ++ (after ++ rest))).length ≤ chars.length := by
    rw [← start]
    exact length_dropBlanks_le chars
  obtain ⟨left, same, read⟩ := reads (after ++ rest) (ends.behind blanks) fits
  rw [Descent.dropBlanks_append blanks] at same
  rw [← same]
  refine Answers.recursive (Reads.trim ?_)
  rw [start]
  exact read

/-- The rule inside itself reads what the rule does, where fewer characters are left. -/
theorem readsSpaced_inside (reads : ∀ chars rest, EndsValue rest →
      dropBlanks chars = dropBlanks (text ++ rest) →
        (value limit).Reads whole chars v (dropBlanks rest)) :
    ReadsSpaced (Parser.within (valueOver limit) below) whole below v text := by
  intro rest ends fits
  refine (reads _ rest ends (dropBlanks_dropBlanks _)).inside ?_
  exact Nat.lt_of_le_of_lt (length_dropBlanks_le _) fits

theorem unpadded_array (closing : (body ++ ']' :: rest).length < below)
    (inside : CommasText (items.map Prod.snd) body)
    (each : ∀ item ∈ items,
      ReadsSpaced (Parser.within (valueOver limit) below) whole below item.1 item.2) :
    (unpadded limit (Parser.within (valueOver limit) below)).Reads whole
      ('[' :: (body ++ ']' :: rest)) (.list (items.map Prod.fst)) (dropBlanks rest) := by
  have fewer : (']' :: rest).length < below := by
    rw [List.length_append] at closing
    omega
  have empty : (Parser.within (valueOver limit) below).Refuses whole (']' :: rest) :=
    Answers.inside (refuses_value (Or.inl rfl)) fewer
  exact (refuses_object rfl (by decide)).choice
    (Reads.choice (reads_between rfl rfl rfl (Or.inl rfl) each inside empty closing))

theorem unpadded_object {members : List Member} (closing : (body ++ '}' :: rest).length < below)
    (distinct : (members.map Member.key).Nodup) (inside : CommasText (members.map Member.text) body)
    (keys : ∀ m ∈ members, ∃ core, StringText m.key core ∧ Padded core m.keyText)
    (each : ∀ m ∈ members,
      ReadsSpaced (Parser.within (valueOver limit) below) whole below m.value m.valueText) :
    (unpadded limit (Parser.within (valueOver limit) below)).Reads whole
      ('{' :: (body ++ '}' :: rest)) (.dict (members.map fun m => (.text m.key, m.value)))
      (dropBlanks rest) := by
  have empty : (Json.member (Parser.within (valueOver limit) below)).Refuses whole ('}' :: rest) :=
    Refuses.script _ (refuses_string (by decide))
  have items : ∀ item ∈ members.map fun m => (Value.tuple [.text m.key, m.value], m.text),
      ReadsSpaced (Json.member (Parser.within (valueOver limit) below)) whole below item.1
        item.2 := by
    intro item found
    obtain ⟨m, member, rfl⟩ := List.mem_map.mp found
    obtain ⟨core, key, padded⟩ := keys m member
    exact reads_member key padded (each m member)
  have texts : CommasText
      ((members.map fun m => (Value.tuple [.text m.key, m.value], m.text)).map Prod.snd) body := by
    rw [List.map_map]
    exact inside
  have reads : (between (trim (literal "\x7b")) (trim (literal "\x7d"))
      (split (Json.member (Parser.within (valueOver limit) below)) comma)).Reads whole
      ('{' :: (body ++ '}' :: rest)) _ (dropBlanks rest) :=
    reads_between rfl rfl rfl (Or.inr rfl) items texts empty closing
  rw [List.map_map] at reads
  exact Reads.choice (Reads.map reads (dictionary_members distinct))

/-- A value is read back however it is written, in front of anything that may come after a
value. -/
theorem reads_value (written : Written limit v text) :
    ∀ chars rest, EndsValue rest → dropBlanks chars = dropBlanks (text ++ rest) →
      (value limit).Reads whole chars v (dropBlanks rest) := by
  induction written with
  | null padded =>
    intro chars rest ends start
    exact reads_padded padded rfl ends start fun tail _ _ => ⟨tail, rfl, unpadded_null⟩
  | truth padded =>
    intro chars rest ends start
    exact reads_padded padded rfl ends start fun tail _ _ =>
      ⟨tail, rfl, unpadded_boolean reads_truth rfl (by decide) (by decide)⟩
  | falsity padded =>
    intro chars rest ends start
    exact reads_padded padded rfl ends start fun tail _ _ =>
      ⟨tail, rfl, unpadded_boolean reads_falsity rfl (by decide) (by decide)⟩
  | @number v x core text numeral alone padded =>
    intro chars rest ends start
    obtain ⟨rfl, digits⟩ := alone_real numeral alone
    have reads (tail : List Char) (ends : EndsValue tail) :
        (unpadded limit (Parser.within (valueOver limit) chars.length)).Reads whole (core ++ tail)
          (.float x) tail := unpadded_number numeral ends.endsReal digits
    obtain ⟨c, others, rfl, solid, _⟩ := number_start numeral
    exact reads_padded padded solid ends start fun tail ends _ => ⟨tail, rfl, reads tail ends⟩
  | @string content core text quoted padded =>
    intro chars rest ends start
    have reads (tail : List Char) :
        (unpadded limit (Parser.within (valueOver limit) chars.length)).Reads whole (core ++ tail)
          (.text content) tail := unpadded_string quoted
    cases quoted with
    | quoted letter =>
      exact reads_padded padded rfl ends start fun tail _ _ => ⟨tail, rfl, reads tail⟩
  | @array items body text each inside padded inductionHypothesis =>
    intro chars rest ends start
    refine reads_padded padded rfl ends start ?_
    intro tail _ fits
    rw [List.append_assoc] at fits ⊢
    refine ⟨_, dropBlanks_dropBlanks tail, unpadded_array fits inside ?_⟩
    exact fun item member => readsSpaced_inside (inductionHypothesis item member)
  | @object members body text keys each distinct inside padded inductionHypothesis =>
    intro chars rest ends start
    refine reads_padded padded rfl ends start ?_
    intro tail _ fits
    rw [List.append_assoc] at fits ⊢
    refine ⟨_, dropBlanks_dropBlanks tail, unpadded_object fits distinct inside keys ?_⟩
    exact fun m member => readsSpaced_inside (inductionHypothesis m member)

/-- A value is read back however it is written down. -/
theorem value_read_back {v : Value} {t : String} (written : Written limit v t.toList) :
    (parse (.ofString t) limit).result = .ok v := by
  refine Reads.parseValue ?_
  exact reads_value written _ [] (by rintro c ⟨⟩) (by rw [List.append_nil])

/-- An object with blanks here and there, an escaped key, and an array with a decimal number. -/
theorem value_read_back_nested :
    Written none
        (.dict [(.text "A", .list [.bool true,
          .float (signedFloat (-1) (Decimal.ofParts ['1'] ['5'] 2).toFloat)])])
        " \x7b\"\\u0041\" : [true, -1.5e2 ]\x7d ".toList ∧
      (parse (.ofString " \x7b\"\\u0041\" : [true, -1.5e2 ]\x7d ")).result =
        .ok (.dict [(.text "A", .list [.bool true,
          .float (signedFloat (-1) (Decimal.ofParts ['1'] ['5'] 2).toFloat)])]) := by
  have nothing : Blanks [] := nofun
  have one : Blanks [' '] := List.forall_mem_singleton.mpr rfl
  have digit (c : Char) (digit : c.isDigit = true) : Digits [c] :=
    ⟨List.cons_ne_nil c [], by rintro d (_ | ⟨_, ⟨⟩⟩); exact digit⟩
  have numeral : RealText ['-', '1', '.', '5', 'e', '2']
      (signedFloat (-1) (Decimal.ofParts ['1'] ['5'] 2).toFloat) :=
    .signed .minus (.pointed (digit '1' rfl) (digit '5' rfl).all)
      (.power (Or.inl rfl) (.signed .none (digit '2' rfl)))
  have truth : Written none (.bool true) ['t', 'r', 'u', 'e'] := .truth (.around nothing nothing)
  have number : Written none _ [' ', '-', '1', '.', '5', 'e', '2', ' '] :=
    .number numeral (real_alone numeral rfl) (.around one one)
  have hex : CharText 'A' ['\\', 'u', '0', '0', '4', '1'] :=
    @CharText.hex 'A' ['0', '0', '4', '1'] rfl (by decide)
  have key : StringText "A" ['"', '\\', 'u', '0', '0', '4', '1', '"'] :=
    @StringText.quoted "A" _ (.more hex .none)
  have array : Written none _ " [true, -1.5e2 ]".toList :=
    @Written.array none [(_, _), (_, _)] _ _
      (List.forall_mem_cons.mpr ⟨truth, List.forall_mem_singleton.mpr number⟩) (.some _ [_])
      (.around one nothing)
  have written : Written none (.dict [(.text "A", .list [.bool true,
      .float (signedFloat (-1) (Decimal.ofParts ['1'] ['5'] 2).toFloat)])])
      " \x7b\"\\u0041\" : [true, -1.5e2 ]\x7d ".toList :=
    @Written.object none [⟨"A", _, "\"\\u0041\" ".toList, _⟩] _ _
      (List.forall_mem_singleton.mpr ⟨_, key, .around nothing one⟩)
      (List.forall_mem_singleton.mpr array) (by decide) (.some _ []) (.around one one)
  exact ⟨written, value_read_back written⟩

end Descent.Grammar.Json
