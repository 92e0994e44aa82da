import Descent.Proofs.Spelling

/-!
# Literals matched exactly

A literal is compared with the text character by character, up to the first one that differs. A
choice between literals takes the first option that the text begins with. If there is none, every
option has been compared as far as it agrees and one character further, and the failure lies at the
furthest of these places. An option within which the text breaks off is compared past the end, and
no other option is compared so far: that is why the choice blames the end just then.

How far an option is compared is a number of characters, and places are ordered as these numbers
are. Merging the failures of two options is therefore taking the greater number.

All this is about offsets that count from the start, past the end as well, where nothing is left of
the text. Offsets that count from the end are another matter: `literal_from_negative_offset`.
-/

namespace Descent

/-- A state that has not failed, ahead of which a text has these characters left. -/
structure State.Faces (s : State) (chars : List Char) : Prop where
  clean : s.error = none
  start : 0 ≤ s.offset
  ahead : s.remaining = .text chars.toArray

/-- The state behind some characters, which are its value. -/
def State.past (s : State) (taken : List Char) : State :=
  { s with
    value := .text (String.ofList taken), offset := s.offset + taken.length,
    position := s.position.overText taken, error := none }

/-- How many characters two texts have in common from their beginnings on. -/
def agreement : List Char → List Char → Nat
  | c :: wanted, d :: chars => if c = d then agreement wanted chars + 1 else 0
  | _, _ => 0

/-- A text ends within a wanted one. -/
def BreaksOff (chars wanted : List Char) : Prop := chars <+: wanted ∧ chars ≠ wanted

instance (chars wanted : List Char) : Decidable (BreaksOff chars wanted) :=
  inferInstanceAs (Decidable (_ ∧ _))

/-- Where a wanted text is missed that is not there: behind the first character that differs, or
one column past the end of what breaks off. -/
def Position.missing (start : Position) (chars wanted : List Char) : Position :=
  if BreaksOff chars wanted then (start.overText chars).nextColumn
  else start.overText (chars.take (agreement wanted chars + 1))

/-- The failure of a choice between options of which a text begins with none. -/
structure Misses (options : List String) (message : String) (start : Position)
    (chars : List Char) (e : Failure) : Prop where
  messages : e.messages = [message]
  kind : e.kind = .expectation
  attained : ∃ option ∈ options, e.position = start.missing chars option.toList
  furthest : ∀ option ∈ options, (start.missing chars option.toList).order e.position ≠ .gt
  blames : e.wasEof = true ↔ ∃ option ∈ options, BreaksOff chars option.toList

/-- What is reached by a choice between options: behind the first of them that the text begins
with, or with a failure that says where all of them are missed. -/
structure Matched (options : List String) (message : String) (s : State) (chars : List Char)
    (reached : State) : Prop where
  succeeds : reached.error = none ↔ ∃ option ∈ options, option.toList <+: chars
  first : ∀ option, options.find? (fun option => option.toList.isPrefixOf chars) = some option →
    reached = s.past option.toList
  misses : ∀ e, reached.error = some e → Misses options message s.position chars e

variable {s : State} {chars wanted rest : List Char} {options : List String} {start : Position}
  {e f : Failure} {c : Char}

/-! ## How far texts agree -/

/-- A text agrees with no more than all of another one. -/
theorem agreement_le (wanted chars : List Char) : agreement wanted chars ≤ chars.length := by
  induction wanted generalizing chars with
  | nil => simp [agreement]
  | cons w wanted inductionHypothesis =>
    cases chars with
    | nil => simp [agreement]
    | cons d chars =>
      simp only [agreement, List.length_cons]
      split
      · exact Nat.succ_le_succ (inductionHypothesis chars)
      · exact Nat.zero_le _

/-- A text agrees with all of what it begins with. -/
theorem agreement_eq_length (begins : chars <+: wanted) :
    agreement wanted chars = chars.length := by
  induction chars generalizing wanted with
  | nil => cases wanted <;> rfl
  | cons d chars inductionHypothesis =>
    obtain ⟨left, rfl⟩ := begins
    simp [agreement, inductionHypothesis (List.prefix_append chars left)]

/-- What a text agrees with all of is a beginning of it. -/
theorem prefix_of_agreement (all : agreement wanted chars = chars.length) : chars <+: wanted := by
  induction chars generalizing wanted with
  | nil => exact List.nil_prefix
  | cons d chars inductionHypothesis =>
    cases wanted with
    | nil => simp [agreement] at all
    | cons w wanted =>
      simp only [agreement, List.length_cons] at all
      split at all
      next same =>
        have others : chars <+: wanted := inductionHypothesis (Nat.succ.inj all)
        exact List.cons_prefix_cons.mpr ⟨same.symm, others⟩
      next => simp at all

/-- Where a wanted text is not there, what is left breaks off within it just if it agrees with all
of what is left. -/
theorem breaksOff_iff (absent : ¬ wanted <+: chars) :
    BreaksOff chars wanted ↔ agreement wanted chars = chars.length := by
  constructor
  · rintro ⟨begins, -⟩
    exact agreement_eq_length begins
  · intro all
    refine ⟨prefix_of_agreement all, ?_⟩
    rintro rfl
    exact absent (List.prefix_refl _)

/-! ## Places -/

/-- The place behind so many characters of a text. One more than there are leads to the column past
the end. -/
def Position.within (start : Position) (chars : List Char) (count : Nat) : Position :=
  start.along ((chars.map (· == '\n') ++ [false]).take count)

/-- A failure that says something lies behind so many of the characters ahead. More than there are
is past the end, which the failure then blames. -/
structure Failure.Behind (e : Failure) (start : Position) (chars : List Char) (count : Nat) :
    Prop where
  worded : e.messages ≠ []
  position : e.position = start.within chars count
  blames : e.wasEof = true ↔ chars.length < count

/-- A run from a state ends with a failure behind so many of the characters ahead. -/
def Parser.FailsBehind (p : Parser) (s : State) (chars : List Char) (count : Nat) : Prop :=
  ∃ reached e, p.run s = pure reached ∧ reached.error = some e ∧ e.Behind s.position chars count

/-- A wanted text is missed one character behind those that agree. -/
theorem missing_eq_within (absent : ¬ wanted <+: chars) :
    start.missing chars wanted = start.within chars (agreement wanted chars + 1) := by
  have most : agreement wanted chars ≤ chars.length := agreement_le wanted chars
  unfold Position.missing Position.within
  by_cases breaks : BreaksOff chars wanted
  · have all : agreement wanted chars = chars.length := (breaksOff_iff absent).mp breaks
    rw [if_pos breaks, all, List.take_of_length_le (by simp), Position.along_append_column,
      Position.overText_eq_along]
  · have fewer : agreement wanted chars + 1 ≤ chars.length :=
      Nat.lt_of_le_of_ne most fun all => breaks ((breaksOff_iff absent).mpr all)
    rw [if_neg breaks, List.take_append_of_le_length (by simpa using fewer), ← List.map_take,
      Position.overText_eq_along]

/-- Places in a text are ordered as the numbers of characters in front of them. -/
theorem order_within {m n : Nat} (left : m ≤ chars.length + 1) (right : n ≤ chars.length + 1) :
    (start.within chars m).order (start.within chars n) = compare m n :=
  Position.order_along_take start _ m n (by simpa using left) (by simpa using right)

/-! ## Single characters -/

namespace State.Faces

/-- The next characters come as a slice. -/
theorem slice (faces : s.Faces chars) (count : Nat) :
    s.input.slice s.offset (s.offset + count) = .text (chars.take count).toArray := by
  rw [slice_eq_extract s faces.start, faces.ahead]
  simp [Input.extract, List.extract_eq_take_drop]

/-- Behind a character the others lie ahead. -/
theorem past (faces : s.Faces (c :: rest)) : (s.past [c]).Faces rest := by
  have start : 0 ≤ (s.past [c]).offset := Int.add_nonneg faces.start (Int.natCast_nonneg _)
  have shown : s.input.extract s.offset.toNat s.input.size = .text (c :: rest).toArray := by
    rw [← remaining_eq_extract s faces.start, faces.ahead]
  have size : s.input.size - s.offset.toNat = rest.length + 1 := by
    have counted := congrArg Input.size shown
    rw [Input.size_extract] at counted
    simpa [Input.size] using counted
  have further : (s.offset + 1).toNat = s.offset.toNat + 1 := by
    have nonneg := faces.start
    omega
  -- What lies behind the character is taken out of the stretch that is known already.
  have whole : min (s.offset.toNat + (rest.length + 1)) s.input.size = s.input.size := by omega
  have later := Input.extract_extract s.input s.offset.toNat s.input.size 1 (rest.length + 1)
  rw [whole, shown] at later
  refine ⟨rfl, start, ?_⟩
  rw [remaining_eq_extract _ start]
  simp only [State.past, List.length_singleton, Int.natCast_one, further, ← later]
  simp [Input.extract, List.extract_eq_take_drop]

end State.Faces

namespace Parser

/-- The next character is consumed. -/
theorem token_ahead (faces : s.Faces (c :: rest)) : token.run s = pure (s.past [c]) := by
  have slice : s.input.slice s.offset (s.offset + 1) = .text #[c] := faces.slice 1
  simp [token, slice, Input.size, Position.over, Input.toValue, State.past]

/-- Behind the last character there is none to consume. -/
theorem token_behind (faces : s.Faces []) :
    token.run s = pure { s with
      offset := s.offset + 1, position := s.position.nextColumn,
      error := some ⟨s.position.nextColumn, ["unexpected eof"], .eof, true⟩ } := by
  have slice : s.input.slice s.offset (s.offset + 1) = .text #[] := faces.slice 1
  have still : s.position.over (.text #[]) = s.position := by
    simp [Position.over, Position.overText_eq_along]
  simp [token, slice, Input.size, still, failing, faces.clean, Failure.merge?]

/-- A wanted character that comes next is taken. -/
theorem admits_same (faces : s.Faces (c :: rest)) :
    (satisfying (Casing.exact.admits c)).run s = pure (s.past [c]) := by
  have passes : Casing.exact.admits c (s.past [c]).value = .ok true := by
    have shown := Casing.exact.admits_text c c
    simp only [Casing.takes, beq_self_eq_true] at shown
    simpa [State.past] using shown
  simp only [satisfying, bind, token_ahead faces, pure_bind]
  rw [passes]
  rfl

/-- A wanted character is missed behind the one that comes in its place, or past the end. -/
theorem admits_other {w : Char} (faces : s.Faces chars) (other : ∀ c ∈ chars.head?, w ≠ c) :
    (satisfying (Casing.exact.admits w)).FailsBehind s chars 1 := by
  cases chars with
  | nil =>
    have ran : (satisfying (Casing.exact.admits w)).run s = pure { s with
        offset := s.offset + 1, position := s.position.nextColumn,
        error := some ⟨s.position.nextColumn, ["unexpected eof"], .eof, true⟩ } := by
      simp only [satisfying, bind, token_behind faces, pure_bind]
      rfl
    exact ⟨_, _, ran, rfl, by simp, rfl, by simp⟩
  | cons c rest =>
    have misses : Casing.exact.admits w (s.past [c]).value = .ok false := by
      have shown := Casing.exact.admits_text w c
      have unlike : (c == w) = false := by simpa using Ne.symm (other c rfl)
      simp only [Casing.takes, unlike] at shown
      simpa [State.past] using shown
    have ran : (satisfying (Casing.exact.admits w)).run s =
        (failing plainMessage).run (s.past [c]) := by
      simp only [satisfying, bind, token_ahead faces, pure_bind]
      rw [misses]
      rfl
    have place : (s.past [c]).position = s.position.within (c :: rest) 1 := by
      simp [State.past, Position.within, Position.overText_eq_along]
    exact ⟨_, _, ran, rfl, by simp, place, by simp⟩

/-! ## Single literals -/

/-- A text in two parts is passed in two steps. -/
theorem past_cons (s : State) (c : Char) (taken : List Char) :
    (s.past (c :: taken)).offset = ((s.past [c]).past taken).offset ∧
      (s.past (c :: taken)).position = ((s.past [c]).past taken).position := by
  constructor
  · simp only [State.past, List.length_cons, List.length_nil]
    omega
  · simp [State.past, Position.overText_eq_along]

/-- After a wanted character the others are compared behind it. -/
theorem spelling_same (name matched : String) (faces : s.Faces (c :: rest)) :
    (script name (spelling .exact matched (c :: wanted))).run s =
      (script name (spelling .exact (matched ++ String.ofList [c]) wanted)).run (s.past [c]) := by
  have first := admits_same faces
  change (satisfying (Casing.exact.admits c)).run s >>= _ = _
  rw [first]
  rfl

/-- Where one character is missed, the whole spelling fails. -/
theorem FailsBehind.spelling {count : Nat} {w : Char} (name matched : String)
    (fails : (satisfying (Casing.exact.admits w)).FailsBehind s chars count) :
    (script name (spelling .exact matched (w :: wanted))).FailsBehind s chars count := by
  obtain ⟨reached, e, ran, failed, shown⟩ := fails
  refine ⟨reached, e, ?_, failed, shown⟩
  change (satisfying (Casing.exact.admits w)).run s >>= _ = _
  rw [ran, pure_bind, if_pos (State.failed_of_error failed)]

/-- What fails behind a character fails one character further on from in front of it. -/
theorem FailsBehind.of_past {p q : Parser} {count : Nat} (same : p.run s = q.run (s.past [c]))
    (fails : q.FailsBehind (s.past [c]) rest count) : p.FailsBehind s (c :: rest) (count + 1) := by
  obtain ⟨reached, e, ran, failed, worded, position, blames⟩ := fails
  refine ⟨reached, e, same.trans ran, failed, worded, ?_, ?_⟩
  · rw [position]
    simp [State.past, Position.within, Position.overText_eq_along]
  · rw [blames, List.length_cons, Nat.add_lt_add_iff_right]

/-- Characters that come next are taken one after another, and come behind those matched before. -/
theorem spelling_present (name matched : String) (faces : s.Faces (wanted ++ rest)) :
    (script name (spelling .exact matched wanted)).run s =
      pure { s.past wanted with value := .text (matched ++ String.ofList wanted) } := by
  induction wanted generalizing s matched with
  | nil =>
    have still : s.position.overText [] = s.position := by simp [Position.overText_eq_along]
    simp [script, spelling, succeed, State.succeed, State.past, still]
    rfl
  | cons c wanted inductionHypothesis =>
    have joined : matched ++ String.ofList [c] ++ String.ofList wanted =
        matched ++ String.ofList (c :: wanted) := by
      rw [String.append_assoc, ← String.ofList_append, List.singleton_append]
    obtain ⟨offset, position⟩ := past_cons s c wanted
    rw [spelling_same name matched faces, inductionHypothesis _ faces.past, joined]
    congr 1
    simp only [State.past] at offset position ⊢
    rw [offset, position]

/-- A wanted text that does not come next is missed one character behind those that agree. -/
theorem spelling_missing (name matched : String) (faces : s.Faces chars)
    (absent : ¬ wanted <+: chars) :
    (script name (spelling .exact matched wanted)).FailsBehind s chars
      (agreement wanted chars + 1) := by
  induction wanted generalizing s matched chars with
  | nil => exact absurd List.nil_prefix absent
  | cons w wanted inductionHypothesis =>
    by_cases first : chars.head? = some w
    · obtain ⟨rest, rfl⟩ := List.head?_eq_some_iff.mp first
      have others : ¬ wanted <+: rest := by
        intro begins
        exact absent (List.cons_prefix_cons.mpr ⟨rfl, begins⟩)
      have depth : agreement (w :: wanted) (w :: rest) = agreement wanted rest + 1 := by
        simp [agreement]
      rw [depth]
      exact (inductionHypothesis _ faces.past others).of_past (spelling_same name matched faces)
    · have unlike : ∀ c ∈ chars.head?, w ≠ c := by
        rintro c head rfl
        exact first head
      have depth : agreement (w :: wanted) chars = 0 := by
        cases chars with
        | nil => rfl
        | cons c rest => simp [agreement, unlike c rfl]
      rw [depth]
      exact (admits_other faces unlike).spelling name matched

/-- A label leaves a success as it is. -/
theorem label_succeeds {p : Parser} {reached : State} (ran : p.run s = pure reached)
    (clean : reached.error = none) (expected : String) :
    (label p expected).run s = pure reached := by
  have same : { reached with error := none } = reached := by rw [← clean]
  simp only [label, ran, pure_bind, clean, Option.map_none, same]

/-- A text that comes next is what the state is past. -/
theorem spelling_taken {option : String} (name : String) (faces : s.Faces chars)
    (begins : option.toList <+: chars) :
    (script name (spelling .exact "" option.toList)).run s = pure (s.past option.toList) := by
  obtain ⟨rest, rfl⟩ := begins
  rw [spelling_present name "" faces]
  simp [State.past]

/-- A literal takes what comes next. -/
theorem literal_present {option : String} (faces : s.Faces chars)
    (begins : option.toList <+: chars) :
    (literal option).run s = pure (s.past option.toList) :=
  label_succeeds (spelling_taken "match_chars" faces begins) rfl _

/-- What fails under a label fails at the same place with other words. -/
theorem FailsBehind.label {p : Parser} {count : Nat} (fails : p.FailsBehind s chars count)
    (expected : String) :
    ∃ reached e, (label p expected).run s = pure reached ∧ reached.error = some e ∧
      e.messages = ["expected " ++ expected] ∧ e.kind = .expectation ∧
      e.Behind s.position chars count := by
  obtain ⟨reached, e, ran, failed, worded, position, blames⟩ := fails
  have relabelled : (Parser.label p expected).run s = pure { reached with
      error := some (e.withMessages ["expected " ++ expected] .expectation) } := by
    simp only [Parser.label, ran, pure_bind, failed, Option.map_some]
  exact ⟨_, _, relabelled, rfl, rfl, rfl, by simp [Failure.withMessages], position, blames⟩

/-- A literal that does not come next is missed one character behind those that agree. -/
theorem literal_missing {option : String} (faces : s.Faces chars)
    (absent : ¬ option.toList <+: chars) :
    (literal option).FailsBehind s chars (agreement option.toList chars + 1) := by
  obtain ⟨reached, e, ran, failed, -, -, behind⟩ :=
    (spelling_missing "match_chars" "" faces absent).label (literalMessage option)
  exact ⟨reached, e, ran, failed, behind⟩

end Parser

/-! ## Choices between literals -/

/-- How many of the characters ahead the option agrees with that agrees with most. -/
def deepest (options : List String) (chars : List Char) : Nat :=
  (options.map fun option => agreement option.toList chars).foldr max 0

@[simp] theorem deepest_cons (option : String) (more : List String) (chars : List Char) :
    deepest (option :: more) chars = max (agreement option.toList chars) (deepest more chars) := rfl

/-- No option agrees with more. -/
theorem agreement_le_deepest (options : List String) (chars : List Char) :
    ∀ option ∈ options, agreement option.toList chars ≤ deepest options chars := by
  induction options with
  | nil => nofun
  | cons first more inductionHypothesis =>
    simp only [List.forall_mem_cons, deepest_cons]
    constructor
    · exact Nat.le_max_left _ _
    · intro option member
      exact Nat.le_trans (inductionHypothesis option member) (Nat.le_max_right _ _)

/-- Some option agrees with as much. -/
theorem exists_agreement_eq_deepest (option : String) (more : List String) (chars : List Char) :
    ∃ deep ∈ option :: more, agreement deep.toList chars = deepest (option :: more) chars := by
  induction more generalizing option with
  | nil => exact ⟨option, by simp [deepest]⟩
  | cons next later inductionHypothesis =>
    obtain ⟨deep, member, same⟩ := inductionHypothesis next
    rcases Nat.le_total (deepest (next :: later) chars) (agreement option.toList chars) with
      first | others
    · exact ⟨option, List.mem_cons_self, (Nat.max_eq_left first).symm⟩
    · exact ⟨deep, List.mem_cons_of_mem _ member, same.trans (Nat.max_eq_right others).symm⟩

/-- No option agrees with more than there is. -/
theorem deepest_le (options : List String) (chars : List Char) :
    deepest options chars ≤ chars.length := by
  induction options with
  | nil => exact Nat.zero_le _
  | cons option more inductionHypothesis =>
    exact Nat.max_le.mpr ⟨agreement_le _ _, inductionHypothesis⟩

/-- Of two failures the one behind more characters is kept, and at one place both blame the end or
neither does. -/
theorem Failure.Behind.merge {m n : Nat} (first : e.Behind start chars m)
    (second : f.Behind start chars n) (left : m ≤ chars.length + 1) (right : n ≤ chars.length + 1) :
    (Failure.merge e f).Behind start chars (max m n) := by
  have worded := Failure.merge_worded e f first.worded second.worded
  rw [Failure.merge_of_worded e f first.worded second.worded, first.position, second.position,
    order_within left right] at worded ⊢
  cases compared : compare m n with
  | gt => rwa [Nat.max_eq_left (Nat.le_of_lt (Nat.compare_eq_gt.mp compared))]
  | lt => rwa [Nat.max_eq_right (Nat.le_of_lt (Nat.compare_eq_lt.mp compared))]
  | eq =>
    obtain rfl := Nat.compare_eq_eq.mp compared
    rw [compared] at worded
    rw [Nat.max_self]
    refine ⟨worded, second.position, ?_⟩
    simp only [Failure.joined, Bool.or_eq_true, first.blames, second.blames, or_self]

/-- What has been merged so far lies behind so many characters; before anything has failed, behind
none. -/
def Behindmost (earlier : Option Failure) (start : Position) (chars : List Char) (count : Nat) :
    Prop :=
  match earlier with
  | none => count = 0
  | some e => e.Behind start chars count

/-- One failure more is merged. -/
theorem Behindmost.merge? {earlier : Option Failure} {m n : Nat}
    (first : Behindmost earlier start chars m) (second : f.Behind start chars n)
    (left : m ≤ chars.length + 1) (right : n ≤ chars.length + 1) :
    ∃ merged, Failure.merge? earlier (some f) = some merged ∧
      merged.Behind start chars (max m n) := by
  cases earlier with
  | some e => exact ⟨_, rfl, Failure.Behind.merge first second left right⟩
  | none =>
    have fresh : m = 0 := first
    subst fresh
    exact ⟨f, rfl, by rwa [Nat.zero_max]⟩

namespace Parser

/-- An attempt that succeeds is the last one. -/
theorem attempt_succeeds {p : Parser} {reached : State} (ran : p.run s = pure reached)
    (clean : reached.error = none) (earlier : Option Failure) (more : List Parser) :
    attempt s earlier p more = pure reached := by
  have succeeded : ¬ reached.failed = true := State.not_failed_of_clean clean
  cases more with
  | nil => rw [attempt_nil, ran, pure_bind, if_neg succeeded]
  | cons next later => rw [attempt_cons, ran, pure_bind, if_neg succeeded]

/-- The first option that comes next is taken, whatever has failed before. -/
theorem attempt_present {first found : String} {more : List String} (faces : s.Faces chars)
    (earlier : Option Failure)
    (sought : (first :: more).find? (fun option => option.toList.isPrefixOf chars) = some found) :
    attempt s earlier (literal first) (more.map (literal ·)) = pure (s.past found.toList) := by
  induction more generalizing first earlier with
  | nil =>
    obtain ⟨begins, same⟩ : first.toList <+: chars ∧ first = found := by simpa using sought
    rw [← same]
    exact attempt_succeeds (literal_present faces begins) rfl earlier []
  | cons next later inductionHypothesis =>
    by_cases begins : first.toList <+: chars
    · have same : first = found := by simpa [begins] using sought
      rw [← same]
      exact attempt_succeeds (literal_present faces begins) rfl earlier _
    · obtain ⟨reached, e, ran, failed, -⟩ := literal_missing faces begins
      have others : (next :: later).find? (fun option => option.toList.isPrefixOf chars) =
          some found := by
        rwa [List.find?_cons_of_neg (by simpa using begins)] at sought
      rw [List.map_cons, attempt_cons, ran, pure_bind, if_pos (State.failed_of_error failed)]
      exact inductionHypothesis _ others

/-- The failure of one option more is merged with those of the options tried before. -/
theorem literal_missing_merged {option : String} {earlier : Option Failure} {count : Nat}
    (faces : s.Faces chars) (absent : ¬ option.toList <+: chars)
    (known : Behindmost earlier s.position chars count) (inside : count ≤ chars.length + 1) :
    ∃ reached merged, (literal option).run s = pure reached ∧ reached.failed = true ∧
      Failure.merge? earlier reached.error = some merged ∧
      merged.Behind s.position chars (max count (agreement option.toList chars + 1)) := by
  obtain ⟨reached, e, ran, failed, behind⟩ := literal_missing faces absent
  have few : agreement option.toList chars + 1 ≤ chars.length + 1 :=
    Nat.succ_le_succ (agreement_le _ _)
  obtain ⟨merged, same, further⟩ := known.merge? behind inside few
  exact ⟨reached, merged, ran, State.failed_of_error failed, by rw [failed, same], further⟩

/-- If no option comes next, the failure lies one character behind the longest agreement. -/
theorem attempt_missing {first : String} {more : List String} {earlier : Option Failure}
    {count : Nat} (faces : s.Faces chars)
    (absent : ∀ option ∈ first :: more, ¬ option.toList <+: chars)
    (known : Behindmost earlier s.position chars count) (inside : count ≤ chars.length + 1) :
    ∃ reached e, attempt s earlier (literal first) (more.map (literal ·)) = pure reached ∧
      reached.error = some e ∧
      e.Behind s.position chars (max count (deepest (first :: more) chars + 1)) := by
  induction more generalizing first earlier count with
  | nil =>
    obtain ⟨reached, merged, ran, failed, same, behind⟩ :=
      literal_missing_merged faces (absent first List.mem_cons_self) known inside
    refine ⟨{ reached with error := some merged }, merged, ?_, rfl, ?_⟩
    · rw [List.map_nil, attempt_nil, ran, pure_bind, if_pos failed, same]
    · simpa [deepest] using behind
  | cons next later inductionHypothesis =>
    obtain ⟨reached, merged, ran, failed, same, behind⟩ :=
      literal_missing_merged faces (absent first List.mem_cons_self) known inside
    have later_known : Behindmost (some merged) s.position chars
        (max count (agreement first.toList chars + 1)) := behind
    have few : agreement first.toList chars ≤ chars.length := agreement_le _ _
    obtain ⟨last, e, went, ended, furthest⟩ := inductionHypothesis
      (fun other member => absent other (List.mem_cons_of_mem _ member)) later_known (by omega)
    refine ⟨last, e, ?_, ended, ?_⟩
    · rw [List.map_cons, attempt_cons, ran, pure_bind, if_pos failed, same, went]
    · rw [deepest_cons]
      rwa [Nat.max_assoc, Nat.add_max_add_right] at furthest

/-- A choice between literals, none of which comes next. -/
theorem choice_missing {first : String} {more : List String} (faces : s.Faces chars)
    (absent : ∀ option ∈ first :: more, ¬ option.toList <+: chars) :
    (choice (literal first) (more.map (literal ·))).FailsBehind s chars
      (deepest (first :: more) chars + 1) := by
  have fresh : Behindmost none s.position chars 0 := rfl
  obtain ⟨reached, e, ran, failed, behind⟩ :=
    attempt_missing faces absent fresh (Nat.zero_le _)
  rw [Nat.zero_max] at behind
  exact ⟨reached, e, ran, failed, behind⟩

end Parser

/-- A failure behind the longest agreement says where all options are missed. -/
theorem Misses.of_behind {first : String} {more : List String} {message : String}
    (absent : ∀ option ∈ first :: more, ¬ option.toList <+: chars)
    (messages : e.messages = [message]) (kind : e.kind = .expectation)
    (behind : e.Behind start chars (deepest (first :: more) chars + 1)) :
    Misses (first :: more) message start chars e := by
  have most : deepest (first :: more) chars ≤ chars.length := deepest_le _ _
  have bound := agreement_le_deepest (first :: more) chars
  obtain ⟨deep, member, same⟩ := exists_agreement_eq_deepest first more chars
  refine ⟨messages, kind, ⟨deep, member, ?_⟩, ?_, ?_⟩
  · rw [behind.position, missing_eq_within (absent deep member), same]
  · intro other inside
    have few : agreement other.toList chars ≤ deepest (first :: more) chars := bound other inside
    rw [behind.position, missing_eq_within (absent other inside),
      order_within (by omega) (by omega), ne_eq, Nat.compare_eq_gt]
    omega
  · rw [behind.blames]
    constructor
    · intro beyond
      have all : agreement deep.toList chars = chars.length := by omega
      exact ⟨deep, member, (breaksOff_iff (absent deep member)).mpr all⟩
    · rintro ⟨other, inside, breaks⟩
      have all := (breaksOff_iff (absent other inside)).mp breaks
      have few := bound other inside
      omega

/-- A parser that takes the first option that comes next, and otherwise fails behind the longest
agreement, matches the options under a label. -/
theorem Matched.of_run {p : Parser} {first : String} {more : List String} (expected : String)
    (present : ∀ found, (first :: more).find? (fun option => option.toList.isPrefixOf chars) =
      some found → p.run s = pure (s.past found.toList))
    (missing : (∀ option ∈ first :: more, ¬ option.toList <+: chars) →
      p.FailsBehind s chars (deepest (first :: more) chars + 1)) :
    ∃ reached, (p.label expected).run s = pure reached ∧
      Matched (first :: more) ("expected " ++ expected) s chars reached := by
  cases sought : (first :: more).find? fun option => option.toList.isPrefixOf chars with
  | some found =>
    have comes : found.toList <+: chars := by simpa using List.find?_some sought
    have taken : (p.label expected).run s = pure (s.past found.toList) :=
      Parser.label_succeeds (present found sought) rfl expected
    refine ⟨_, taken, ?_, ?_, nofun⟩
    · exact ⟨fun _ => ⟨found, List.mem_of_find?_eq_some sought, comes⟩, fun _ => rfl⟩
    · intro other same
      rw [Option.some.inj (sought.symm.trans same)]
  | none =>
    have absent : ∀ option ∈ first :: more, ¬ option.toList <+: chars := by
      simpa only [List.find?_eq_none, List.isPrefixOf_iff_prefix] using sought
    obtain ⟨reached, e, ran, failed, messages, kind, behind⟩ := (missing absent).label expected
    refine ⟨reached, ran, ?_, ?_, ?_⟩
    · rw [failed]
      constructor
      · nofun
      · rintro ⟨other, inside, comes⟩
        exact absurd comes (absent other inside)
    · intro found same
      rw [sought] at same
      cases same
    · intro f same
      obtain rfl := Option.some.inj (failed.symm.trans same)
      exact .of_behind absent messages kind behind

/-- Literals are matched exactly, wherever the offset counts from the start. A choice succeeds just
if what lies ahead begins with an option; it then consumes and gives the first such one, and
otherwise fails, saying what the options are, at the furthest place where one of them is missed. The
end is blamed just if what lies ahead breaks off within an option. A literal alone does the same as
the only option, in its own words. -/
theorem literals_matched_exactly (option : String) (more : List String) (s : State)
    (chars : List Char) (faces : s.Faces chars) :
    (∃ reached, (Parser.oneOf option more).run s = pure reached ∧
      Matched (option :: more)
        ("expected one of \x7b" ++ ",".intercalate (option :: more) ++ "\x7d") s chars reached) ∧
    ∃ reached, (Parser.literal option).run s = pure reached ∧
      Matched [option] ("expected string matching \x7b" ++ option ++ "\x7d") s chars reached := by
  have listing : "expected " ++ ("one of " ++ Parser.listed (option :: more)) =
      "expected one of \x7b" ++ ",".intercalate (option :: more) ++ "\x7d" := by
    have front : "expected " ++ "one of " ++ "\x7b" = "expected one of \x7b" := by decide
    unfold Parser.listed
    simp only [← String.append_assoc, front]
  have naming : "expected " ++ Parser.literalMessage option =
      "expected string matching \x7b" ++ option ++ "\x7d" := by
    have front : "expected " ++ "string matching \x7b" = "expected string matching \x7b" := by
      decide
    unfold Parser.literalMessage
    simp only [← String.append_assoc, front]
  rw [← listing, ← naming]
  constructor
  · apply Matched.of_run
    · intro found sought
      exact Parser.attempt_present faces none sought
    · exact Parser.choice_missing faces
  · apply Matched.of_run
    · intro found sought
      obtain ⟨begins, rfl⟩ : option.toList <+: chars ∧ option = found := by simpa using sought
      exact Parser.spelling_taken "match_chars" faces begins
    · intro absent
      have missing := Parser.spelling_missing "match_chars" "" faces
        (absent option List.mem_cons_self)
      simpa [deepest, Casing.target] using missing

-- The text breaks off within the second option, on the second line.
theorem literals_matched_on_second_line :
    (∃ reached, (Parser.oneOf "b" ["abc"]).run
        ⟨.null, .text "x\nab".toList.toArray, 2, ⟨2, 0, none⟩, .null, none⟩ = pure reached ∧
      Matched ["b", "abc"] "expected one of \x7bb,abc\x7d"
        ⟨.null, .text "x\nab".toList.toArray, 2, ⟨2, 0, none⟩, .null, none⟩ ['a', 'b'] reached) ∧
    BreaksOff ['a', 'b'] "abc".toList ∧
    (⟨2, 0, none⟩ : Position).missing ['a', 'b'] "abc".toList = ⟨2, 3, none⟩ := by
  constructor
  · exact (literals_matched_exactly "b" ["abc"] _ ['a', 'b'] ⟨rfl, by decide, rfl⟩).1
  · decide

/-- From an offset that counts from the end, a character is not found that lies ahead. What is to be
consumed would end at the offset zero, which lies in front of it. -/
theorem literal_from_negative_offset :
    (⟨.null, .text #['b'], -1, {}, .null, none⟩ : State).error = none ∧
    (⟨.null, .text #['b'], -1, {}, .null, none⟩ : State).remaining = .text #['b'] ∧
    (∃ reached, (Parser.oneOf "b" []).run ⟨.null, .text #['b'], -1, {}, .null, none⟩ =
      pure reached ∧ reached.failed = true) ∧
    ∃ reached, (Parser.literal "b").run ⟨.null, .text #['b'], -1, {}, .null, none⟩ =
      pure reached ∧ reached.failed = true := by
  refine ⟨rfl, rfl, ?_, ?_⟩
  · exact ⟨_, rfl, rfl⟩
  · exact ⟨_, rfl, rfl⟩

end Descent
