import Descent.Grammar.EqualRuns
import Descent.Proofs.Settling

/-!
# Runs of equal number on a text

A text is so many of a first letter, as many of the next, and so on to the last; how many is up to
the text. The grammar of equal runs accepts just these texts, and gives each of them back.

The first run decides. It takes all the letters it can, so that nothing is known of the number
beforehand, and each of the others has to be as long and takes no more. That is a statement on the
later runs for every number, and an induction on the letters; it asks nothing of which letters they
are. Only the second letter has to differ from the first one, because the first run would go on
into the second.
-/

namespace Descent.Grammar.EqualRuns

open Descent.Parser

/-- So many of each letter, one letter after the other. -/
def runsOf (count : Nat) (letters : List Char) : List Char :=
  letters.flatMap (List.replicate count)

variable {whole : Array Char} {letter first next : Char} {more chars middle rest : List Char}
  {count : Nat} {earlier : Option Nat} {bounds : Bounds} {xs tail : String}
  {found : String → List Char → Prop} {post : Value → List Char → Prop}

/-- The runs of the letters, the first of them in front. -/
theorem runsOf_cons (count : Nat) (letter : Char) (more : List Char) :
    runsOf count (letter :: more) = List.replicate count letter ++ runsOf count more :=
  List.flatMap_cons

/-- The run of a single letter. -/
theorem runsOf_singleton (count : Nat) (letter : Char) :
    runsOf count [letter] = List.replicate count letter :=
  List.flatMap_singleton _ _

/-- The text of a run in front of the text of the others. -/
theorem ofList_runsOf_cons (count : Nat) (letter : Char) (more : List Char) :
    String.ofList (List.replicate count letter) ++ String.ofList (runsOf count more) =
      String.ofList (runsOf count (letter :: more)) := by
  rw [runsOf_cons, String.ofList_append]

/-- A run is as long as there are letters in it. -/
theorem length_run (count : Nat) (letter : Char) :
    (String.ofList (List.replicate count letter)).length = count := by
  rw [String.length_ofList, List.length_replicate]

/-! ## One run -/

/-- A letter as a parser takes that letter. -/
theorem letter_picks (letter : Char) : (literal letter.toString).Picks (· == letter) :=
  literal_picks (by simp [Casing.target])

/-- A run behind another one repeats as often as that. -/
theorem runBounds_some (positive : 0 < count) : runBounds (some count) = .ok (.exactly count) := by
  cases count with
  | zero => exact absurd positive (Nat.lt_irrefl 0)
  | succ count => rfl

/-- A run of a known number is read, whatever comes behind it. -/
theorem reads_run (count : Nat) (letter : Char) (rest : List Char) :
    (text (literal letter.toString) (.exactly count)).Reads whole
      (List.replicate count letter ++ rest) (.text (String.ofList (List.replicate count letter)))
      rest := by
  have reads : ((literal letter.toString).collect (.exactly _)).Reads whole _ _ rest :=
    (letter_picks letter).exactly_reads (List.replicate count letter) rest
      fun c member => beq_iff_eq.mpr (List.eq_of_mem_replicate member)
  rw [List.length_replicate] at reads
  rw [← join_map_toString]
  exact Reads.textOf reads

/-- Nothing but a run of the known number is taken. -/
theorem settles_run (count : Nat) (letter : Char) :
    (text (literal letter.toString) (.exactly count)).Settles whole chars fun v rest =>
      ∃ t, v = .text t ∧ t = String.ofList (List.replicate count letter) ∧
        chars = List.replicate count letter ++ rest := by
  have collected : ((literal letter.toString).collect (.exactly count)).Settles whole chars _ :=
    (letter_picks letter).exactly_settles count
  rcases collected.cases with refuses | ⟨v, rest, reads, row, rfl, rfl, length, passed⟩
  · exact Refuses.settles (Refuses.textOf refuses)
  · have same : row = List.replicate count letter :=
      List.eq_replicate_iff.mpr ⟨length, fun c member => eq_of_beq (passed c member)⟩
    refine Reads.settles (Reads.textOf reads) ⟨_, rfl, ?_, congrArg (· ++ rest) same⟩
    rw [join_map_toString, same]

/-! ## A run and those behind it -/

theorem reads_last (bounded : runBounds earlier = .ok bounds)
    (run : (text (literal letter.toString) bounds).Reads whole chars (.text xs) rest) :
    (lettersAfter earlier letter.toString []).Reads whole chars (.text xs) rest :=
  script_check bounded (run.script_text ((reads_succeed _).script_done _))

theorem reads_next (bounded : runBounds earlier = .ok bounds)
    (run : (text (literal letter.toString) bounds).Reads whole chars (.text xs) middle)
    (later : (lettersAfter (some xs.length) next.toString (more.map Char.toString)).Reads whole
      middle (.text tail) rest) :
    (lettersAfter earlier letter.toString ((next :: more).map Char.toString)).Reads whole chars
      (.text (xs ++ tail)) rest :=
  script_check bounded (run.script_text (later.script_text ((reads_succeed _).script_done _)))

theorem settles_last (bounded : runBounds earlier = .ok bounds)
    (run : (text (literal letter.toString) bounds).Settles whole chars fun v rest =>
      ∃ t, v = .text t ∧ found t rest)
    (ends : ∀ t rest, found t rest → post (.text t) rest) :
    (lettersAfter earlier letter.toString []).Settles whole chars post :=
  settles_check bounded (Settles.script_text run fun t rest holds =>
    (settles_succeed (ends t rest holds)).script_done _)

theorem settles_next (bounded : runBounds earlier = .ok bounds)
    (run : (text (literal letter.toString) bounds).Settles whole chars fun v middle =>
      ∃ t, v = .text t ∧ found t middle)
    (later : ∀ t middle, found t middle →
      (lettersAfter (some t.length) next.toString (more.map Char.toString)).Settles whole middle
        fun v rest => ∃ tail, v = .text tail ∧ post (.text (t ++ tail)) rest) :
    (lettersAfter earlier letter.toString ((next :: more).map Char.toString)).Settles whole chars
      post :=
  settles_check bounded (Settles.script_text run fun t middle holds =>
    Settles.script_text (later t middle holds) fun _ _ ends =>
      (settles_succeed ends).script_done _)

/-! ## Runs of a known number -/

/-- Where the length of the runs is known, runs of that length are read, by induction on the
letters. -/
theorem reads_following (positive : 0 < count) (rest : List Char) :
    (lettersAfter (some count) letter.toString (more.map Char.toString)).Reads whole
      (runsOf count (letter :: more) ++ rest)
      (.text (String.ofList (runsOf count (letter :: more)))) rest := by
  induction more generalizing letter with
  | nil =>
    rw [runsOf_singleton]
    exact reads_last (runBounds_some positive) (reads_run count letter rest)
  | cons next more inductionHypothesis =>
    rw [← ofList_runsOf_cons, runsOf_cons, List.append_assoc]
    refine reads_next (runBounds_some positive) (reads_run count letter _) ?_
    rw [length_run]
    exact inductionHypothesis

/-- Where the length of the runs is known, nothing but runs of that length is taken. -/
theorem settles_following (positive : 0 < count) :
    (lettersAfter (some count) letter.toString (more.map Char.toString)).Settles whole chars
      fun v rest => ∃ t, v = .text t ∧ t = String.ofList (runsOf count (letter :: more)) ∧
        chars = runsOf count (letter :: more) ++ rest := by
  induction more generalizing letter chars with
  | nil =>
    rw [runsOf_singleton]
    exact settles_last (runBounds_some positive) (settles_run count letter)
      fun t rest holds => ⟨t, rfl, holds⟩
  | cons next more inductionHypothesis =>
    refine settles_next (runBounds_some positive) (settles_run count letter) ?_
    rintro _ middle ⟨rfl, rfl⟩
    rw [length_run]
    refine inductionHypothesis.mono ?_
    rintro _ rest ⟨_, rfl, rfl, rfl⟩
    refine ⟨_, rfl, _, rfl, ofList_runsOf_cons count letter (next :: more), ?_⟩
    rw [runsOf_cons count letter, List.append_assoc]

/-! ## All runs -/

/-- The first run takes no letter of the second one. -/
theorem head_runsOf (apart : ∀ second ∈ more.head?, second ≠ first) (positive : 0 < count) :
    ∀ c ∈ (runsOf count more).head?, (c == first) = false := by
  intro c head
  cases more with
  | nil => cases head
  | cons second more =>
    obtain ⟨count, rfl⟩ := Nat.exists_eq_succ_of_ne_zero positive.ne'
    obtain rfl := Option.some.inj head
    exact beq_eq_false_iff_ne.mpr (apart _ rfl)

/-- Runs of equal number are read to their end. -/
theorem reads_letters (apart : ∀ second ∈ more.head?, second ≠ first) (positive : 0 < count) :
    (letters first.toString (more.map Char.toString)).Reads whole (runsOf count (first :: more))
      (.text (String.ofList (runsOf count (first :: more)))) [] := by
  have run : (text (literal first.toString) (.atLeast 1)).Reads whole
      (List.replicate count first ++ runsOf count more)
      (.text (String.ofList (List.replicate count first))) (runsOf count more) := by
    refine (letter_picks first).text_reads 1 _ _ ?_ (head_runsOf apart positive) ?_
    · exact fun c member => beq_iff_eq.mpr (List.eq_of_mem_replicate member)
    · rw [List.length_replicate]
      exact positive
  cases more with
  | nil =>
    have alone : runsOf count [] = [] := rfl
    rw [alone, List.append_nil] at run
    rw [runsOf_singleton]
    exact reads_last rfl run
  | cons next more =>
    rw [← ofList_runsOf_cons, runsOf_cons]
    refine reads_next rfl run ?_
    rw [length_run]
    have later : (lettersAfter (some count) next.toString (more.map Char.toString)).Reads whole
        (runsOf count (next :: more) ++ []) _ [] := reads_following positive []
    rwa [List.append_nil] at later

/-- Nothing but runs of equal number is taken, at least one of each letter. -/
theorem settles_letters :
    (letters first.toString (more.map Char.toString)).Settles whole chars fun v rest =>
      ∃ count, 0 < count ∧ v = .text (String.ofList (runsOf count (first :: more))) ∧
        chars = runsOf count (first :: more) ++ rest := by
  have run : (text (literal first.toString) (.atLeast 1)).Settles whole chars fun v middle =>
      ∃ t, v = .text t ∧ ∃ count, 0 < count ∧ t = String.ofList (List.replicate count first) ∧
        chars = List.replicate count first ++ middle := by
    refine ((letter_picks first).text_settles 1).mono ?_
    rintro _ middle ⟨row, rfl, rfl, some, passed⟩
    have same : row = List.replicate row.length first :=
      List.eq_replicate_iff.mpr ⟨rfl, fun c member => eq_of_beq (passed c member)⟩
    exact ⟨_, rfl, row.length, some, congrArg String.ofList same, congrArg (· ++ middle) same⟩
  cases more with
  | nil =>
    refine settles_last rfl run ?_
    rintro _ rest ⟨count, positive, rfl, rfl⟩
    rw [← runsOf_singleton]
    exact ⟨count, positive, rfl, rfl⟩
  | cons next more =>
    refine settles_next rfl run ?_
    rintro _ middle ⟨count, positive, rfl, rfl⟩
    rw [length_run]
    refine (settles_following positive).mono ?_
    rintro _ rest ⟨_, rfl, rfl, rfl⟩
    refine ⟨_, rfl, count, positive, ?_, ?_⟩
    · rw [ofList_runsOf_cons count first (next :: more)]
    · rw [runsOf_cons count first, List.append_assoc]

/-- The grammar of equal runs accepts the texts that are so many of each letter in turn, at least
one, and gives back the text. All others it rejects. The first two letters have to differ. -/
theorem equal_runs_recognised (first : Char) (more : List Char)
    (apart : ∀ second ∈ more.head?, second ≠ first) (t : String) :
    (((letters first.toString (more.map Char.toString)).parseValue (.ofString t)).result =
        .ok (.text t) ↔
      ∃ count, 1 ≤ count ∧ t.toList = runsOf count (first :: more)) ∧
    ((¬ ∃ count, 1 ≤ count ∧ t.toList = runsOf count (first :: more)) →
      ∃ failure, ((letters first.toString (more.map Char.toString)).parseValue
        (.ofString t)).result = .error (.rejected failure)) := by
  have accepted (count : Nat) (positive : 1 ≤ count)
      (same : t.toList = runsOf count (first :: more)) :
      ((letters first.toString (more.map Char.toString)).parseValue (.ofString t)).result =
        .ok (.text t) := by
    have reads : (letters first.toString (more.map Char.toString)).Reads t.toList.toArray _ _ [] :=
      reads_letters apart positive
    rw [← same, String.ofList_toList] at reads
    exact Reads.parseValue reads
  have rejected (none : ¬ ∃ count, 1 ≤ count ∧ t.toList = runsOf count (first :: more)) :
      ∃ failure, ((letters first.toString (more.map Char.toString)).parseValue
        (.ofString t)).result = .error (.rejected failure) := by
    have settles : (letters first.toString (more.map Char.toString)).Settles t.toList.toArray
      t.toList _ := settles_letters
    obtain ⟨reply, answer, holds⟩ := settles
    rcases Answers.parseValue answer with ⟨v, rfl, _⟩ | ⟨_, rejected⟩
    · obtain ⟨count, positive, _, divided⟩ := holds v [] rfl
      rw [List.append_nil] at divided
      exact absurd ⟨count, positive, divided⟩ none
    · exact rejected
  refine ⟨⟨?_, fun ⟨count, positive, same⟩ => accepted count positive same⟩, rejected⟩
  intro ok
  by_contra none
  obtain ⟨failure, error⟩ := rejected none
  cases error.symm.trans ok

/-- Two of each of four letters, the third of which is the first one again; and one letter too few
of the last. -/
theorem equal_runs_recognised_four :
    ((letters "a" ["b", "a", "d"]).parseValue (.ofString "aabbaadd")).result =
        .ok (.text "aabbaadd") ∧
      ∃ failure, ((letters "a" ["b", "a", "d"]).parseValue (.ofString "aabbaad")).result =
        .error (.rejected failure) := by
  have apart : ∀ second ∈ ['b', 'a', 'd'].head?, second ≠ 'a' := by
    rintro second ⟨⟩
    decide
  constructor
  · exact (equal_runs_recognised 'a' ['b', 'a', 'd'] apart "aabbaadd").1.mpr
      ⟨2, by decide, by decide⟩
  · refine (equal_runs_recognised 'a' ['b', 'a', 'd'] apart "aabbaad").2 ?_
    rintro ⟨count, -, same⟩
    have length := congrArg List.length same
    simp [runsOf] at length
    omega

end Descent.Grammar.EqualRuns
