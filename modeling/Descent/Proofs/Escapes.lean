import Descent.Proofs.Endings

/-!
# Escapes that are cut short

In a string a backslash and a `u` ask for the code of a character in four digits. The rule for
escapes refuses where the digits do not come. But a character of a string may also be any one that
is no quote, and the backslash is none: it is taken as it is, and so is the `u` behind it. A cut
escape is therefore no error; it becomes a part of the text.

What a string body is read as is given by a grammar of its own, which covers cut escapes besides
the complete ones. Where a body ends is a matter of pairs only: a backslash and the character behind
it do not close the string, whether they make up an escape or not.
-/

namespace Descent.Grammar.Json

open Descent.Parser

/-! ## String bodies -/

/-- The digits of base sixteen. -/
def hexDigits : List Char :=
  ['0', '1', '2', '3', '4', '5', '6', '7', '8', '9', 'a', 'b', 'c', 'd', 'e', 'f', 'A', 'B', 'C',
    'D', 'E', 'F']

/-- A text begins with a code, which is four digits of base sixteen. -/
def BeginsWithCode (text : List Char) : Prop :=
  ∃ digits later, digits.length = 4 ∧ (∀ c ∈ digits, c ∈ hexDigits) ∧ text = digits ++ later

/-- Between quotes there is no other quote, unless there is a backslash before it. A backslash
takes one character with it. -/
inductive Enclosed : List Char → Prop where
  | none : Enclosed []
  | plain {c : Char} {rest : List Char} (noQuote : c ≠ '"') (noBackslash : c ≠ '\\')
    (later : Enclosed rest) : Enclosed (c :: rest)
  | pair {letter : Char} {rest : List Char} (later : Enclosed rest) :
    Enclosed ('\\' :: letter :: rest)

/-- In a body whose escapes are read from the left, there is a `u` behind a backslash and no code
behind the `u`. -/
inductive CutShort : List Char → Prop where
  | here {rest : List Char} (noCode : ¬ BeginsWithCode rest) : CutShort ('\\' :: 'u' :: rest)
  | behindPlain {c : Char} {rest : List Char} (noBackslash : c ≠ '\\') (later : CutShort rest) :
    CutShort (c :: rest)
  | behindShort {letter : Char} {rest : List Char} (other : letter ≠ 'u') (later : CutShort rest) :
    CutShort ('\\' :: letter :: rest)
  | behindCode {digits rest : List Char} (four : digits.length = 4)
    (hexadecimal : ∀ c ∈ digits, c ∈ hexDigits) (later : CutShort rest) :
    CutShort ('\\' :: 'u' :: (digits ++ rest))

/-- The characters that a body is read as, where it is given what a code is read as. A backslash
without its code stands for itself. -/
inductive LooseText (Stands : Nat → Char → Prop) : List Char → List Char → Prop where
  | none : LooseText Stands [] []
  | plain {c : Char} {content rest : List Char} (noQuote : c ≠ '"') (noBackslash : c ≠ '\\')
    (later : LooseText Stands content rest) : LooseText Stands (c :: content) (c :: rest)
  | short {letter c : Char} {content rest : List Char} (other : letter ≠ 'u')
    (stands : unescaped letter.toString = c.toString) (later : LooseText Stands content rest) :
    LooseText Stands (c :: content) ('\\' :: letter :: rest)
  | code {c : Char} {n : Nat} {digits content rest : List Char} (four : digits.length = 4)
    (code : positional? 16 digits = some n) (character : Stands n c)
    (later : LooseText Stands content rest) :
    LooseText Stands (c :: content) ('\\' :: 'u' :: (digits ++ rest))
  | cut {content rest : List Char} (noCode : ¬ BeginsWithCode rest)
    (later : LooseText Stands content ('u' :: rest)) :
    LooseText Stands ('\\' :: content) ('\\' :: 'u' :: rest)

/-- A code names the character whose number it is. One half of a surrogate pair is no character, so
a code in that range names none. -/
def Names (n : Nat) (c : Char) : Prop := c.toNat = n

/-- A code is taken for what stands for it, and that is also given for the codes that name no
character. -/
def Taken (n : Nat) (c : Char) : Prop := charOf (n : Int) = .ok c

/-- In a body the code of one half of a surrogate pair is written behind a backslash and a `u`. -/
def HasSurrogate (body : List Char) : Prop :=
  ∃ digits n, '\\' :: 'u' :: digits <:+: body ∧ digits.length = 4 ∧
    positional? 16 digits = some n ∧ 0xD800 ≤ n ∧ n ≤ 0xDFFF

variable {Stands : Nat → Char → Prop} {whole : Array Char} {v : Value} {c : Char}
  {digits content body rest others text : List Char} {t : String} {limit : Option Nat}

/-! ## Codes -/

/-- The digits that are accepted in base sixteen. -/
theorem digitOf_sixteen (c : Char) : digitOf 16 c = true ↔ c ∈ hexDigits := by
  have table : ∀ code < 0x80, (asciiDigit? (Char.ofNat code)).any (· < 16) =
      decide (Char.ofNat code ∈ hexDigits) := by
    decide +kernel
  have read : digitOf 16 c = (asciiDigit? c).any (· < 16) := digitOf_eq (by decide : 16 ≤ 20) c
  rw [read]
  by_cases below : c.toNat < 0x80
  · rw [of_codes (motive := fun c => (asciiDigit? c).any (· < 16) = decide (c ∈ hexDigits)) table
      below, decide_eq_true_iff]
  · have unlisted : c ∉ hexDigits := by
      intro listed
      have all : ∀ c ∈ hexDigits, c.toNat < 0x80 := by simp [hexDigits]
      exact below (all c listed)
    rw [asciiDigit?_beyond (Nat.le_of_not_lt below)]
    simp [unlisted]

/-- A code is the number of a character. -/
theorem code_exists (four : digits.length = 4) (hexadecimal : ∀ c ∈ digits, c ∈ hexDigits) :
    ∃ (n : Nat) (c : Char), positional? 16 digits = some n ∧ charOf (n : Int) = .ok c := by
  obtain ⟨n, code⟩ := code_of_digits fun c member => (digitOf_sixteen c).mpr (hexadecimal c member)
  obtain ⟨c, character⟩ := charOf_code four code
  exact ⟨n, c, code, character⟩

/-- Whether a text begins with a code shows in its first four characters. -/
theorem beginsWithCode_iff : BeginsWithCode text ↔
    (text.take 4).length = 4 ∧ (text.take 4).all (hexDigits.contains ·) = true := by
  rw [List.all_eq_true]
  simp only [List.contains_iff_mem]
  constructor
  · rintro ⟨digits, later, four, hexadecimal, rfl⟩
    rw [List.take_left' four]
    exact ⟨four, hexadecimal⟩
  · rintro ⟨four, hexadecimal⟩
    exact ⟨text.take 4, text.drop 4, four, hexadecimal, (List.take_append_drop 4 text).symm⟩

instance : DecidablePred BeginsWithCode := fun _ => decidable_of_iff _ beginsWithCode_iff.symm

/-- What can be read as a code is one. -/
theorem beginsWithCode_append {n : Nat} (four : digits.length = 4)
    (code : positional? 16 digits = some n) (rest : List Char) : BeginsWithCode (digits ++ rest) :=
  ⟨digits, rest, four, fun c member => (digitOf_sixteen c).mp (digits_of_code code c member), rfl⟩

/-- A code does not reach into what begins with no digit. -/
theorem BeginsWithCode.of_append (begins : BeginsWithCode (text ++ rest))
    (stops : ∀ c ∈ rest.head?, c ∉ hexDigits) : BeginsWithCode text := by
  obtain ⟨digits, later, four, hexadecimal, divided⟩ := begins
  rcases List.append_eq_append_iff.mp divided with
    ⟨across, rfl, rest_eq⟩ | ⟨behind, rfl, _⟩
  · cases across with
    | nil => exact ⟨text, [], by simpa using four, by simpa using hexadecimal, by simp⟩
    | cons c across =>
      have digit : c ∈ hexDigits := hexadecimal c (by simp)
      exact absurd digit (stops c (by simp [rest_eq]))
  · exact ⟨digits, behind, four, hexadecimal, rfl⟩

/-- Where no code comes the escape is refused. -/
theorem refuses_escaped (noCode : ¬ BeginsWithCode rest) :
    escaped.Refuses whole ('\\' :: 'u' :: rest) := by
  have refuses : unicodeHex.Refuses whole rest := by
    refine settles_unicodeHex.refuses ?_
    rintro _ later ⟨digits, divided, four, accepted, _⟩
    exact noCode ⟨digits, later, four, fun c member => (digitOf_sixteen c).mp (accepted c member),
      divided⟩
  refine Reads.script_parse (reads_literal rfl _) ?_
  refine (reads_token 'u' rest).script_text ?_
  rw [if_pos (by decide)]
  exact refuses.script_done _

/-! ## Bodies and what they are read as -/

/-- Each character of a short escape stands for one character. -/
theorem short_exists (letter : Char) : ∃ c : Char, unescaped letter.toString = c.toString := by
  unfold unescaped
  split_ifs
  · exact ⟨'\x08', rfl⟩
  · exact ⟨'\x0c', rfl⟩
  · exact ⟨'\n', rfl⟩
  · exact ⟨'\r', rfl⟩
  · exact ⟨'\t', rfl⟩
  · exact ⟨letter, rfl⟩

/-- What follows a character that is no backslash is read by itself. -/
theorem LooseText.behindPlain (noBackslash : c ≠ '\\')
    (loose : LooseText Stands content (c :: rest)) : ∃ later, LooseText Stands later rest := by
  cases loose with
  | plain _ _ later => exact ⟨_, later⟩
  | short | code | cut => exact absurd rfl noBackslash

/-- What follows digits is read by itself. -/
theorem LooseText.behindDigits (hexadecimal : ∀ c ∈ digits, c ∈ hexDigits)
    (loose : LooseText Stands content (digits ++ rest)) :
    ∃ later, LooseText Stands later rest := by
  induction digits generalizing content with
  | nil => exact ⟨content, loose⟩
  | cons c digits inductionHypothesis =>
    have noBackslash : c ≠ '\\' := by
      rintro rfl
      exact absurd (hexadecimal _ List.mem_cons_self) (by decide)
    obtain ⟨later, loose⟩ := loose.behindPlain noBackslash
    exact inductionHypothesis (fun d member => hexadecimal d (List.mem_cons_of_mem c member)) loose

/-- Every body is taken for something. -/
theorem Enclosed.taken (enclosed : Enclosed body) : ∃ content, LooseText Taken content body := by
  induction enclosed with
  | none => exact ⟨[], .none⟩
  | plain noQuote noBackslash later inductionHypothesis =>
    obtain ⟨content, loose⟩ := inductionHypothesis
    exact ⟨_, .plain noQuote noBackslash loose⟩
  | @pair letter rest later inductionHypothesis =>
    obtain ⟨content, loose⟩ := inductionHypothesis
    by_cases other : letter = 'u'
    · subst other
      by_cases begins : BeginsWithCode rest
      · obtain ⟨digits, behind, four, hexadecimal, rfl⟩ := begins
        obtain ⟨n, c, code, character⟩ := code_exists four hexadecimal
        obtain ⟨content, loose⟩ := loose.behindDigits hexadecimal
        exact ⟨_, .code four code character loose⟩
      · exact ⟨_, .cut begins (.plain (by decide) (by decide) loose)⟩
    · obtain ⟨c, stands⟩ := short_exists letter
      exact ⟨_, .short other stands loose⟩

/-- A code is taken for the character that it names, or it is that of a surrogate. -/
theorem Taken.names {n : Nat} (taken : Taken n c) : Names n c ∨ 0xD800 ≤ n ∧ n ≤ 0xDFFF := by
  unfold Taken charOf at taken
  split at taken
  · cases taken
  next inside =>
    by_cases valid : n.isValidChar
    · rw [Int.toNat_natCast, if_pos valid] at taken
      injection taken with same
      have number : (Char.ofNat n).toNat = n := by rw [Char.ofNat, dif_pos valid]; rfl
      exact .inl (same ▸ number)
    · rw [Nat.isValidChar] at valid
      exact .inr (by omega)

/-- What a code names it is taken for. -/
theorem Names.taken {n : Nat} (names : Names n c) : Taken n c := by
  rw [Names] at names
  exact names ▸ charOf_toNat c

/-- A body stands for what it is taken for. -/
theorem LooseText.taken (loose : LooseText Names content body) : LooseText Taken content body := by
  induction loose with
  | none => exact .none
  | plain noQuote noBackslash _ taken => exact .plain noQuote noBackslash taken
  | short other stands _ taken => exact .short other stands taken
  | code four code names _ taken => exact .code four code names.taken taken
  | cut noCode _ taken => exact .cut noCode taken

theorem HasSurrogate.behind (surrogate : HasSurrogate body) (front : List Char) :
    HasSurrogate (front ++ body) := by
  obtain ⟨digits, n, inside, four, code, half⟩ := surrogate
  exact ⟨digits, n, inside.trans (List.suffix_append front body).isInfix, four, code, half⟩

/-- Only a surrogate keeps a body from standing for what it is taken for. -/
theorem LooseText.names (loose : LooseText Taken content body) :
    LooseText Names content body ∨ HasSurrogate body := by
  induction loose with
  | none => exact .inl .none
  | @plain c _ _ noQuote noBackslash _ named =>
    exact named.imp (.plain noQuote noBackslash) (·.behind [c])
  | @short letter _ _ _ other stands _ named =>
    exact named.imp (.short other stands) (·.behind ['\\', letter])
  | @code c n digits content rest four code taken _ named =>
    rcases taken.names with names | half
    · exact named.imp (.code four code names) (·.behind ('\\' :: 'u' :: digits))
    · exact .inr ⟨digits, n, (List.prefix_append ('\\' :: 'u' :: digits) rest).isInfix, four, code,
        half⟩
  | cut noCode _ named => exact named.imp (.cut noCode) (·.behind ['\\'])

theorem Enclosed.append (enclosed : Enclosed body) (later : Enclosed rest) :
    Enclosed (body ++ rest) := by
  induction enclosed with
  | none => exact later
  | plain noQuote noBackslash _ inductionHypothesis =>
    exact .plain noQuote noBackslash inductionHypothesis
  | pair _ inductionHypothesis => exact .pair inductionHypothesis

/-- A body does not end at the quote behind it: a quote inside ends it before, or a backslash at its
end takes that quote with it. -/
def Misclosed (body : List Char) : Prop :=
  ∃ front, Enclosed front ∧ ((∃ back, body = front ++ '"' :: back) ∨ body = front ++ ['\\'])

theorem Misclosed.behind (before : Enclosed body) (misclosed : Misclosed rest) :
    Misclosed (body ++ rest) := by
  obtain ⟨front, enclosed, ⟨back, rfl⟩ | rfl⟩ := misclosed
  · exact ⟨_, before.append enclosed, .inl ⟨back, (List.append_assoc _ _ _).symm⟩⟩
  · exact ⟨_, before.append enclosed, .inr (List.append_assoc _ _ _).symm⟩

/-- A body ends at the quote behind it, or it does not, and it is known why. -/
theorem enclosed_or_misclosed : ∀ body : List Char, Enclosed body ∨ Misclosed body
  | [] => .inl .none
  | c :: rest => by
    by_cases quote : c = '"'
    · exact .inr ⟨[], .none, .inl ⟨rest, congrArg (· :: rest) quote⟩⟩
    by_cases backslash : c = '\\'
    · subst backslash
      match rest with
      | [] => exact .inr ⟨[], .none, .inr rfl⟩
      | letter :: rest =>
        exact (enclosed_or_misclosed rest).imp .pair (Misclosed.behind (.pair .none))
    · exact (enclosed_or_misclosed rest).imp (.plain quote backslash)
        (Misclosed.behind (.plain quote backslash .none))

/-- The letters of a cut escape are found in what the body is read as. -/
theorem CutShort.kept (short : CutShort body) (loose : LooseText Stands content body) :
    ['\\', 'u'] <:+: content := by
  -- Up to the cut escape both grammars take the body apart in the same places.
  induction short generalizing content with
  | here noCode =>
    cases loose with
    | plain _ noBackslash => exact absurd rfl noBackslash
    | short other => exact absurd rfl other
    | code four code => exact absurd (beginsWithCode_append four code _) noCode
    | cut _ later =>
      cases later with
      | @plain _ content => exact (List.prefix_append ['\\', 'u'] content).isInfix
  | behindPlain noBackslash later inductionHypothesis =>
    cases loose with
    | plain _ _ loose => exact List.infix_cons (inductionHypothesis loose)
    | short | code | cut => exact absurd rfl noBackslash
  | behindShort other later inductionHypothesis =>
    cases loose with
    | plain _ noBackslash => exact absurd rfl noBackslash
    | short _ _ loose => exact List.infix_cons (inductionHypothesis loose)
    | code | cut => exact absurd rfl other
  | @behindCode digits rest four hexadecimal later inductionHypothesis =>
    generalize same : digits ++ rest = chars at loose
    cases loose with
    | plain _ noBackslash => exact absurd rfl noBackslash
    | short other => exact absurd rfl other
    | code four' _ _ loose =>
      obtain ⟨_, rfl⟩ := List.append_inj same (four.trans four'.symm)
      exact List.infix_cons (inductionHypothesis loose)
    | cut noCode => exact absurd ⟨digits, rest, four, hexadecimal, same.symm⟩ noCode

/-! ## Reading a body -/

/-- The characters of a body are read one after another, in front of anything that is no digit. -/
theorem row_loose (loose : LooseText Taken content body) (stops : ∀ c ∈ rest.head?, c ∉ hexDigits) :
    Row ((choice escaped [noneOf "\"" []]).Steps whole) (body ++ rest)
      ((content.map Char.toString).map .text) rest := by
  induction loose with
  | none => exact .none
  | plain noQuote noBackslash later inductionHypothesis =>
    exact .more ⟨@reads_char _ _ [_] _ (.raw noQuote noBackslash), Nat.lt_succ_self _⟩
      inductionHypothesis
  | short other stands later inductionHypothesis =>
    exact .more ⟨Reads.choice (reads_escape other stands), Nat.lt_add_of_pos_right Nat.two_pos⟩
      inductionHypothesis
  | @code c n digits content body four code character later inductionHypothesis =>
    rw [List.cons_append, List.cons_append, List.append_assoc]
    refine .more ⟨Reads.choice (reads_code four code character), ?_⟩ inductionHypothesis
    simp only [List.length_cons, List.length_append]
    omega
  | cut noCode later inductionHypothesis =>
    have refuses : escaped.Refuses whole _ :=
      refuses_escaped fun begins => noCode (BeginsWithCode.of_append begins stops)
    exact .more ⟨refuses.either (quoteless_picks.reads (by decide)), Nat.lt_succ_self _⟩
      inductionHypothesis

/-- Between quotes a body is read as what it is in the loose grammar. -/
theorem string_reads_loose (loose : LooseText Taken content body) (rest : List Char) :
    string.Reads whole ('"' :: (body ++ '"' :: rest)) (.text (String.ofList content)) rest :=
  reads_quoted (row_loose loose (by rintro c ⟨⟩; decide))

/-- A string is refused where a body goes on to the end of the text. -/
theorem string_refuses_open (loose : LooseText Taken content body) :
    string.Refuses whole ('"' :: body) := by
  have ended : (choice escaped [noneOf "\"" []]).Refuses whole [] :=
    Refuses.either (Refuses.script _ (refuses_literal_at rfl nofun)) (quoteless_picks.refuses nofun)
  have row : Row ((choice escaped [noneOf "\"" []]).Steps whole) (body ++ []) _ [] :=
    row_loose loose nofun
  rw [List.append_nil] at row
  have unquoted : (label (literal "\"") "closing double-quote").Refuses whole [] :=
    Answers.label _ (refuses_literal_at rfl nofun)
  exact (reads_literal rfl body).before
    ((Reads.textOf (row_collect_any row ended)).followedBy_refuses unquoted)

/-- A text that begins with a quote is a value if it is a string. -/
theorem value_reads_quoted (reads : string.Reads whole ('"' :: others) v rest) :
    (value limit).Reads whole ('"' :: others) v (dropBlanks rest) := by
  refine Answers.recursive (Reads.trim ?_)
  rw [dropBlanks_cons rfl]
  exact unpadded_quoted reads

theorem value_refuses_quoted (refuses : string.Refuses whole ('"' :: others)) :
    (value limit).Refuses whole ('"' :: others) := by
  refine Answers.recursive (Refuses.trim ?_)
  rw [dropBlanks_cons rfl]
  exact unpadded_quoted refuses

/-- A body that does not end at the quote behind it makes no value. -/
theorem Misclosed.rejected (misclosed : Misclosed body)
    (quoted : t.toList = '"' :: (body ++ ['"'])) :
    ∃ failure, (parse (.ofString t) limit).result = .error (.rejected failure) := by
  obtain ⟨front, enclosed, ⟨back, rfl⟩ | rfl⟩ := misclosed
  · obtain ⟨content, loose⟩ := enclosed.taken
    have reads : (value limit).Reads t.toList.toArray t.toList (.text (String.ofList content))
        (dropBlanks (back ++ ['"'])) := by
      rw [quoted, List.append_assoc]
      exact value_reads_quoted (string_reads_loose loose (back ++ ['"']))
    -- The quote behind the body is left over, and it is no blank.
    rcases Answers.parseValue reads with ⟨v, same, _⟩ | ⟨_, rejected⟩
    · have all : ∀ c ∈ back ++ ['"'], blank c = true :=
        List.dropWhile_eq_nil_iff.mp (congrArg Prod.snd (Option.some.inj same))
      exact absurd (all '"' (by simp)) (by decide)
    · exact rejected
  · -- With the quote the body goes on to the end of the text.
    have closed : Enclosed (front ++ ['\\', '"']) := enclosed.append (.pair .none)
    obtain ⟨content, loose⟩ := closed.taken
    refine Refuses.parseValue ?_
    rw [quoted, List.append_assoc]
    exact value_refuses_quoted (string_refuses_open loose)

/-- A string with an escape that is cut short is accepted, and the escape is a part of the text.
Only where the body does not end at the quote behind it the text is rejected. What the text is, is
said of the bodies all of whose codes name characters; the others, which hold the code of a
surrogate, are accepted as well. -/
theorem cut_escapes_kept (limit : Option Nat) (t : String) (body : List Char)
    (quoted : t.toList = '"' :: (body ++ ['"'])) (short : CutShort body) :
    (∀ content, LooseText Names content body → ['\\', 'u'] <:+: content ∧
      (parse (.ofString t) limit).result = .ok (.text (String.ofList content))) ∧
    (Enclosed body → (∃ v, (parse (.ofString t) limit).result = .ok v) ∧
      ((∃ content, LooseText Names content body) ∨ HasSurrogate body)) ∧
    (¬ Enclosed body →
      ∃ failure, (parse (.ofString t) limit).result = .error (.rejected failure)) := by
  have accepted : ∀ {content}, LooseText Taken content body →
      (parse (.ofString t) limit).result = .ok (.text (String.ofList content)) := by
    intro content taken
    apply Reads.parseValue
    rw [quoted]
    exact value_reads_quoted (string_reads_loose taken [])
  refine ⟨?_, ?_, ?_⟩
  · intro content loose
    exact ⟨short.kept loose, accepted loose.taken⟩
  · intro enclosed
    obtain ⟨content, taken⟩ := enclosed.taken
    exact ⟨⟨_, accepted taken⟩, taken.names.imp_left fun loose => ⟨content, loose⟩⟩
  · intro notEnclosed
    exact ((enclosed_or_misclosed body).resolve_left notEnclosed).rejected quoted

/-- A cut escape behind a complete one; and one in a body whose last backslash takes the quote. -/
theorem cut_escapes_kept_behind_code :
    (parse (.ofString "\"\\u00e9\\u12\"")).result = .ok (.text "\u00e9\\u12") ∧
      ∃ failure, (parse (.ofString "\"\\u\\\"")).result = .error (.rejected failure) := by
  have two : LooseText Names ['1', '2'] ['1', '2'] :=
    .plain (by decide) (by decide) (.plain (by decide) (by decide) .none)
  have behind : LooseText Names ['\\', 'u', '1', '2'] ['\\', 'u', '1', '2'] :=
    .cut (by decide) (.plain (by decide) (by decide) two)
  constructor
  · refine ((cut_escapes_kept none _ ("\\u00e9".toList ++ "\\u12".toList) (by decide) ?_).1
      ('\u00e9' :: "\\u12".toList) ?_).2
    · exact @CutShort.behindCode ['0', '0', 'e', '9'] _ rfl (by simp [hexDigits])
        (.here (by decide))
    · exact @LooseText.code _ '\u00e9' _ ['0', '0', 'e', '9'] _ _ rfl rfl rfl behind
  · refine (cut_escapes_kept none _ "\\u\\".toList (by decide) (.here (by decide))).2.2 ?_
    rintro (_ | ⟨_, noBackslash, _⟩ | ⟨_ | ⟨_, noBackslash, _⟩⟩)
    · exact noBackslash rfl
    · exact noBackslash rfl

/-- Two digits instead of four, and the text is accepted. -/
theorem cut_escape_accepted :
    CutShort "\\u12".toList ∧ "\"\\u12\"".toList = '"' :: ("\\u12".toList ++ ['"']) ∧
      (parse (.ofString "\"\\u12\"")).result = .ok (.text "\\u12") := by
  have loose : LooseText Names "\\u12".toList "\\u12".toList :=
    .cut (by decide) (.plain (by decide) (by decide)
      (.plain (by decide) (by decide) (.plain (by decide) (by decide) .none)))
  exact ⟨.here (by decide), by decide,
    Reads.parseValue (value_reads_quoted (string_reads_loose loose.taken []))⟩

end Descent.Grammar.Json
