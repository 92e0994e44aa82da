import Descent.Proofs.Finality
import Descent.Proofs.Leaves
import Descent.Proofs.Settling

/-!
# Parsers that wait for more text

On a text that was cut short a parser waits if it fails and blames the end of the text. A handle
does not report such a failure as long as more text may come. A parser bides a text if it waits or
reads something from it: it does not give up. The opposite of it is a parser that decides: it reads
something or gives up. There is one rule for each combinator again, for both kinds of failures.

A choice bides a text if one of its alternatives does. The others may give up, but what they say
lies before the end of the text, and the furthest failure is the one that counts.
-/

namespace Descent

/-- A failure, if there is one, that more text might mend. -/
def Failure.Mendable (failure : Option Failure) : Prop := ∀ e, failure = some e → e.wasEof = true

/-- Wherever the characters are left of the whole text, the parser fails. Its failure says whether
the input has ended. -/
def Parser.Fails (p : Parser) (whole : Array Char) (chars : List Char) (ended : Bool) : Prop :=
  ∀ s : State, s.Within whole chars → ∃ reached e,
    (p.run s).result = .ok reached ∧ reached.error = some e ∧ e.wasEof = ended

/-- The parser fails and blames the end of the text. -/
abbrev Parser.Waits (p : Parser) (whole : Array Char) (chars : List Char) : Prop :=
  p.Fails whole chars true

/-- The parser fails because of what is there of the text. -/
abbrev Parser.GivesUp (p : Parser) (whole : Array Char) (chars : List Char) : Prop :=
  p.Fails whole chars false

/-- The parser fails in the given way, or it gives and leaves what satisfies a condition. -/
def Parser.FailsOr (p : Parser) (whole : Array Char) (chars : List Char) (ended : Bool)
    (post : Value → List Char → Prop) : Prop :=
  p.Fails whole chars ended ∨ ∃ v rest, p.Reads whole chars v rest ∧ post v rest

/-- The parser waits for more characters, or it gives and leaves what satisfies a condition. -/
abbrev Parser.Bides (p : Parser) (whole : Array Char) (chars : List Char)
    (post : Value → List Char → Prop) : Prop :=
  p.FailsOr whole chars true post

/-- The parser gives up, or it gives and leaves what satisfies a condition. -/
abbrev Parser.Decides (p : Parser) (whole : Array Char) (chars : List Char)
    (post : Value → List Char → Prop) : Prop :=
  p.FailsOr whole chars false post

variable {whole : Array Char} {chars middle rest : List Char} {v : Value} {p q : Parser}
  {mid post wider : Value → List Char → Prop} {s reached : State} {ended : Bool}

namespace Parser

/-! ## What is known -/

theorem Fails.refuses (fails : p.Fails whole chars ended) : p.Refuses whole chars := by
  intro s within
  obtain ⟨reached, e, ran, failed, _⟩ := fails s within
  exact ⟨reached, ran, State.failed_of_error failed⟩

theorem Fails.failsOr (fails : p.Fails whole chars ended) : p.FailsOr whole chars ended post :=
  .inl fails

theorem Reads.failsOr (reads : p.Reads whole chars v rest) (holds : post v rest) :
    p.FailsOr whole chars ended post :=
  .inr ⟨v, rest, reads, holds⟩

theorem FailsOr.mono (failsOr : p.FailsOr whole chars ended post)
    (weaken : ∀ v rest, post v rest → wider v rest) : p.FailsOr whole chars ended wider :=
  failsOr.imp_right fun ⟨v, rest, reads, holds⟩ => ⟨v, rest, reads, weaken v rest holds⟩

theorem FailsOr.settles (failsOr : p.FailsOr whole chars ended post) :
    p.Settles whole chars post := by
  rcases failsOr with fails | ⟨v, rest, reads, holds⟩
  · exact fails.refuses.settles
  · exact reads.settles holds

/-- What is known of all that a parser may give is known where it fails in a given way or reads. -/
theorem Settles.failsOr (settles : p.Settles whole chars post)
    (failsOr : p.FailsOr whole chars ended mid) : p.FailsOr whole chars ended post := by
  rcases failsOr with fails | ⟨v, rest, reads, _⟩
  · exact fails.failsOr
  · obtain ⟨reply, answer, holds⟩ := settles
    by_cases reachable : ∃ s : State, s.Within whole chars
    · obtain ⟨s, within⟩ := reachable
      obtain ⟨reached, ran, shows⟩ := reads s within
      obtain ⟨other, again, alike⟩ := answer s within
      obtain rfl := Except.ok.inj (ran.symm.trans again)
      exact reads.failsOr (holds v rest (State.Shows.unique alike shows))
    · exact Fails.failsOr fun s within => absurd ⟨s, within⟩ reachable

/-- A parser that fails in a given way or reads, and refuses the text, fails in that way. -/
theorem FailsOr.fails (failsOr : p.FailsOr whole chars ended post)
    (refuses : p.Refuses whole chars) : p.Fails whole chars ended := by
  rcases failsOr with fails | ⟨v, rest, reads, _⟩
  · exact fails
  · intro s within
    obtain ⟨reached, ran, shows⟩ := reads s within
    obtain ⟨other, again, alike⟩ := refuses s within
    obtain rfl := Except.ok.inj (ran.symm.trans again)
    cases State.Shows.unique alike shows

/-! ## Primitive parsers and parsers in order -/

theorem waits_token : token.Waits whole [] := by
  intro s within
  have short : s.unread < max 1 1 := by
    rw [within.unread, List.length_nil]
    omega
  rw [token_short s within.ready.clean within.ready.start 1 short]
  exact ⟨_, _, rfl, rfl, rfl⟩

theorem Fails.renamed (fails : p.Fails whole chars ended) (sameRun : q.run = p.run) :
    q.Fails whole chars ended := by
  intro s within
  rw [sameRun]
  exact fails s within

theorem Fails.label (expected : String) (fails : p.Fails whole chars ended) :
    (p.label expected).Fails whole chars ended := by
  intro s within
  obtain ⟨reached, e, ran, failed, blames⟩ := fails s within
  refine ⟨_, e.withMessages ["expected " ++ expected] .expectation,
    Run.result_bind_ok _ _ _ ran, ?_, blames⟩
  simp only [failed, Option.map_some]

theorem Fails.bind {next : Value → Parser} (first : p.Fails whole chars ended) :
    (p.bind next).Fails whole chars ended := by
  intro s within
  obtain ⟨reached, e, ran, failed, blames⟩ := first s within
  refine ⟨reached, e, ?_, failed, blames⟩
  rw [Parser.bind, Run.result_bind_ok _ _ _ ran, if_pos (State.failed_of_error failed)]
  rfl

theorem Reads.bind_fails {next : Value → Parser} (first : p.Reads whole chars v middle)
    (second : (next v).Fails whole middle ended) : (p.bind next).Fails whole chars ended := by
  intro s within
  obtain ⟨reached, ran, value, onward⟩ := first s within
  obtain ⟨last, e, went, failed, blames⟩ := second reached onward
  refine ⟨last, e, ?_, failed, blames⟩
  rw [Parser.bind, Run.result_bind_ok _ _ _ ran,
    if_neg (State.not_failed_of_clean onward.ready.clean), value]
  exact went

theorem FailsOr.renamed (failsOr : p.FailsOr whole chars ended post) (sameRun : q.run = p.run) :
    q.FailsOr whole chars ended post := by
  rcases failsOr with fails | ⟨v, rest, reads, holds⟩
  · exact (fails.renamed sameRun).failsOr
  · exact Reads.failsOr (Answers.renamed reads sameRun) holds

theorem FailsOr.label (expected : String) (failsOr : p.FailsOr whole chars ended post) :
    (p.label expected).FailsOr whole chars ended post := by
  rcases failsOr with fails | ⟨v, rest, reads, holds⟩
  · exact (fails.label expected).failsOr
  · exact Reads.failsOr (Answers.label expected reads) holds

theorem FailsOr.bind {next : Value → Parser} (first : p.FailsOr whole chars ended mid)
    (second : ∀ v middle, mid v middle → (next v).FailsOr whole middle ended post) :
    (p.bind next).FailsOr whole chars ended post := by
  rcases first with fails | ⟨v, middle, reads, holds⟩
  · exact fails.bind.failsOr
  · rcases second v middle holds with later | ⟨w, rest, onward, last⟩
    · exact (reads.bind_fails later).failsOr
    · exact Reads.failsOr (reads.bind onward) last

theorem FailsOr.chain_nil (failsOr : p.FailsOr whole chars ended post) :
    (chain p []).FailsOr whole chars ended post :=
  failsOr.renamed (funext fun s => run_chain_nil p s)

theorem FailsOr.followedBy (first : p.FailsOr whole chars ended mid)
    (second : ∀ v middle, mid v middle → q.FailsOr whole middle ended fun _ rest => post v rest) :
    (p.followedBy q).FailsOr whole chars ended post :=
  first.bind fun v middle holds => ((second v middle holds).chain_nil).bind fun _ _ last =>
    Reads.failsOr (reads_succeed v) last

theorem FailsOr.map {f : Value → Except Fault Value}
    (failsOr : p.FailsOr whole chars ended fun v rest => ∃ w, f v = .ok w ∧ post w rest) :
    (p.map f).FailsOr whole chars ended post := by
  refine failsOr.bind ?_
  rintro v rest ⟨w, made, holds⟩
  rw [made]
  exact Reads.failsOr (reads_succeed w) holds

theorem Fails.map {f : Value → Except Fault Value} (fails : p.Fails whole chars ended) :
    (p.map f).Fails whole chars ended :=
  fails.bind

theorem Fails.textOf (fails : p.Fails whole chars ended) : (textOf p).Fails whole chars ended :=
  fails.bind

theorem Fails.satisfying {test : Value → Except Fault Bool} (fails : p.Fails whole chars ended) :
    (satisfying test p).Fails whole chars ended :=
  fails.bind

theorem Fails.chain {more : List Parser} (fails : p.Fails whole chars ended) :
    (chain p (q :: more)).Fails whole chars ended := by
  have bound : (p.bind fun _ => Parser.chain q more).Fails whole chars ended := fails.bind
  exact bound.renamed rfl

/-! ## Scripts -/

theorem FailsOr.script_done (name : String) (failsOr : p.FailsOr whole chars ended post) :
    (script name (pure p)).FailsOr whole chars ended post :=
  failsOr.renamed rfl

theorem Fails.script_done (name : String) (fails : p.Fails whole chars ended) :
    (Parser.script name (pure p)).Fails whole chars ended :=
  fails.renamed rfl

theorem Fails.script (name : String) {next : Value → Script Parser}
    (fails : p.Fails whole chars ended) : (script name (.step p next)).Fails whole chars ended := by
  have bound : (p.bind fun v => Parser.script name (next v)).Fails whole chars ended := fails.bind
  exact bound.renamed rfl

/-- A script fails where a later step of it does. -/
theorem Reads.script_fails {name : String} {next : Value → Script Parser}
    (first : p.Reads whole chars v middle)
    (others : (script name (next v)).Fails whole middle ended) :
    (script name (.step p next)).Fails whole chars ended := by
  have bound : (p.bind fun v => script name (next v)).Fails whole chars ended :=
    first.bind_fails others
  exact bound.renamed rfl

/-- A script whose first step fails does so in the same way, or it goes on with the script of the
value. -/
theorem FailsOr.script_step {name : String} {next : Value → Script Parser}
    (first : p.FailsOr whole chars ended mid)
    (others : ∀ v middle, mid v middle → (script name (next v)).FailsOr whole middle ended post) :
    (script name (.step p next)).FailsOr whole chars ended post := by
  have bound : (p.bind fun v => script name (next v)).FailsOr whole chars ended post :=
    first.bind others
  exact bound.renamed rfl

theorem FailsOr.script_parse {name : String} {next : Value → Script Parser}
    (first : p.FailsOr whole chars ended mid)
    (others : ∀ v middle, mid v middle → (script name (next v)).FailsOr whole middle ended post) :
    (script name (Script.parse p >>= next)).FailsOr whole chars ended post :=
  first.script_step others

theorem FailsOr.script_int {name : String} {next : Int → Script Parser}
    {found : Int → List Char → Prop}
    (first : p.FailsOr whole chars ended fun v rest => ∃ n, v = .int n ∧ found n rest)
    (others : ∀ n middle, found n middle → (script name (next n)).FailsOr whole middle ended post) :
    (script name (Script.int p >>= next)).FailsOr whole chars ended post := by
  refine first.script_step ?_
  rintro _ middle ⟨n, rfl, holds⟩
  exact others n middle holds

theorem FailsOr.script_text {name : String} {next : String → Script Parser}
    {found : String → List Char → Prop}
    (first : p.FailsOr whole chars ended fun v rest => ∃ t, v = .text t ∧ found t rest)
    (others : ∀ t middle, found t middle → (script name (next t)).FailsOr whole middle ended post) :
    (script name (Script.text p >>= next)).FailsOr whole chars ended post := by
  refine first.script_step ?_
  rintro _ middle ⟨t, rfl, holds⟩
  exact others t middle holds

theorem failsOr_check {α : Type} {name : String} {checked : Except Fault α} {a : α}
    {next : α → Script Parser} (passed : checked = .ok a)
    (others : (script name (next a)).FailsOr whole chars ended post) :
    (script name (Script.ofExcept checked >>= next)).FailsOr whole chars ended post := by
  rw [passed]
  exact others

/-! ## Alternatives -/

end Parser

/-- What stands for two failures of runs from one state blames the end if one of them does. -/
theorem Situated.wasEof_of_merge? {earlier : Option Failure} {f : Failure} (ready : s.Ready)
    (first : ∀ e, earlier = some e → Situated False s e) (second : Situated False s f)
    (one : (∃ e, earlier = some e ∧ e.wasEof = true) ∨ f.wasEof = true) :
    ∃ e, Failure.merge? earlier (some f) = some e ∧ e.wasEof = true := by
  have merged : ∃ e, Failure.merge? earlier (some f) = some e := by
    cases earlier with
    | none => exact ⟨_, rfl⟩
    | some e => exact ⟨_, rfl⟩
  obtain ⟨e, found⟩ := merged
  refine ⟨e, found, ?_⟩
  by_contra other
  -- If the furthest failure lay before the end, so would both of them.
  have settled : Failure.Settled (Failure.merge? earlier (some f)) := by
    rw [found]
    rintro _ ⟨⟩
    exact Bool.not_eq_true _ ▸ other
  obtain ⟨before, here⟩ := settled_of_merge? ready.start first
    (fun g same => Option.some.inj same ▸ second) settled
  rcases one with ⟨g, same, blames⟩ | blames
  · exact absurd (before g same) (by simp [blames])
  · exact absurd (here f rfl) (by simp [blames])

namespace Parser

/-- If all attempts are refused, and one of them, or something before them, blames the end, then so
does what the choice says. -/
theorem attempt_waits {p : Parser} {more : List Parser} {earlier : Option Failure}
    (within : s.Within whole chars)
    (merged : ∀ e, earlier = some e → Situated False s e)
    (built : ∀ part ∈ p :: more, Built False part)
    (refuses : ∀ part ∈ p :: more, part.Refuses whole chars)
    (one : (∃ e, earlier = some e ∧ e.wasEof = true) ∨ ∃ part ∈ p :: more, part.Waits whole chars) :
    ∃ reached e, (attempt s earlier p more).result = .ok reached ∧ reached.error = some e ∧
      e.wasEof = true := by
  -- What comes before the others are tried: the attempt at the first, and both failures as one.
  obtain ⟨middle, went, shown⟩ := refuses p List.mem_cons_self s within
  have stuck : middle.failed = true := shown
  obtain ⟨f, failed⟩ := middle.error_of_failed stuck
  have leads := (built p List.mem_cons_self).leads s within.ready middle went
  have here : p.Waits whole chars → f.wasEof = true := by
    intro waits
    obtain ⟨reached, e, ran, found, blames⟩ := waits s within
    obtain rfl := Except.ok.inj (went.symm.trans ran)
    obtain rfl := Option.some.inj (failed.symm.trans found)
    exact blames
  have merges := Situated.wasEof_of_merge? within.ready merged (leads.situated f failed)
  rw [attempt_stuck earlier more went stuck, failed]
  cases more with
  | nil =>
    have blames : (∃ e, earlier = some e ∧ e.wasEof = true) ∨ f.wasEof = true := by
      rcases one with before | ⟨part, member, waits⟩
      · exact .inl before
      · exact .inr (here (List.mem_singleton.mp member ▸ waits))
    obtain ⟨e, found, blamed⟩ := merges blames
    exact ⟨_, e, rfl, found, blamed⟩
  | cons next later =>
    have situated : ∀ e, some f = some e → Situated False s e := failed ▸ leads.situated
    refine attempt_waits within
      (Situated.merge? within.ready.start merged situated)
      (fun part member => built part (List.mem_cons_of_mem p member))
      (fun part member => refuses part (List.mem_cons_of_mem p member)) ?_
    rcases one with before | ⟨part, member, waits⟩
    · exact .inl (merges (.inl before))
    · rcases List.mem_cons.mp member with rfl | member
      · exact .inl (merges (.inr (here waits)))
      · exact .inr ⟨part, member, waits⟩
termination_by more.length

/-- A choice that settles a text reads it, unless all alternatives refuse it. -/
theorem choice_reads {more : List Parser}
    (settles : ∀ part ∈ p :: more, part.Settles whole chars post)
    (some : ¬ ∀ part ∈ p :: more, part.Refuses whole chars) :
    ∃ v rest, (choice p more).Reads whole chars v rest ∧ post v rest := by
  induction more generalizing p with
  | nil =>
    rcases (settles p List.mem_cons_self).cases with refuses | ⟨v, rest, reads, holds⟩
    · have all : ∀ part ∈ [p], part.Refuses whole chars := List.forall_mem_singleton.mpr refuses
      exact absurd all some
    · exact ⟨v, rest, Reads.choice reads, holds⟩
  | cons next later inductionHypothesis =>
    rcases (settles p List.mem_cons_self).cases with refuses | ⟨v, rest, reads, holds⟩
    · obtain ⟨v, rest, reads, holds⟩ := inductionHypothesis
        (fun part member => settles part (List.mem_cons_of_mem p member))
        fun all => some (List.forall_mem_cons.mpr ⟨refuses, all⟩)
      exact ⟨v, rest, Refuses.choice refuses reads, holds⟩
    · exact ⟨v, rest, Reads.choice reads, holds⟩

/-- A choice bides a text if one of its alternatives does and the others settle it. -/
theorem bides_choice {more : List Parser} (built : ∀ part ∈ p :: more, Built False part)
    (settles : ∀ part ∈ p :: more, part.Settles whole chars post)
    (one : ∃ part ∈ p :: more, part.Bides whole chars mid) :
    (choice p more).Bides whole chars post := by
  by_cases refuses : ∀ part ∈ p :: more, part.Refuses whole chars
  · obtain ⟨part, member, bides⟩ := one
    have waits : part.Waits whole chars := bides.fails (refuses part member)
    exact Fails.failsOr fun s within =>
      attempt_waits within nofun built refuses (.inr ⟨part, member, waits⟩)
  · obtain ⟨v, rest, reads, holds⟩ := choice_reads settles refuses
    exact reads.failsOr holds

/-- A choice between two parsers of which one bides the text. -/
theorem bides_either (first : Built False p) (second : Built False q)
    (settles : p.Settles whole chars post) (others : q.Settles whole chars post)
    (one : p.Bides whole chars post ∨ q.Bides whole chars post) :
    (choice p [q]).Bides whole chars post := by
  have among : ∃ part ∈ [p, q], part.Bides whole chars post := by
    rcases one with bides | bides
    · exact ⟨p, List.mem_cons_self, bides⟩
    · exact ⟨q, List.mem_cons_of_mem p List.mem_cons_self, bides⟩
  refine bides_choice ?_ ?_ among
  · exact List.forall_mem_cons.mpr ⟨first, List.forall_mem_singleton.mpr second⟩
  · exact List.forall_mem_cons.mpr ⟨settles, List.forall_mem_singleton.mpr others⟩

/-- A rule fails as its body does around the rule itself. -/
theorem Fails.recursive {body : Parser → Parser}
    (fails : (body (Parser.within body chars.length)).Fails whole chars ended) :
    (Parser.recursive body).Fails whole chars ended := by
  intro s within
  rw [run_recursive body within]
  exact fails s within

theorem FailsOr.recursive {body : Parser → Parser}
    (failsOr : (body (Parser.within body chars.length)).FailsOr whole chars ended post) :
    (Parser.recursive body).FailsOr whole chars ended post := by
  rcases failsOr with fails | ⟨v, rest, reads, holds⟩
  · exact (Fails.recursive fails).failsOr
  · exact Reads.failsOr (Answers.recursive reads) holds

/-! ## Repetitions and characters -/

/-- A repetition that needs a value fails where its parser does. -/
theorem Fails.collect (fails : p.Fails whole chars ended) :
    (p.collect (.atLeast 1)).Fails whole chars ended := by
  intro s within
  obtain ⟨reached, ran, shown⟩ := row_collect_short .none fails.refuses 1 Nat.one_pos s within
  obtain ⟨e, failed⟩ := reached.error_of_failed shown
  obtain ⟨other, f, went, found, blames⟩ := fails s within
  obtain rfl := Except.ok.inj ((collect_refused ran failed).symm.trans went)
  exact ⟨reached, f, ran, found, blames⟩

/-- A test of characters waits for one. -/
theorem waits_test (test : Value → Except Fault Bool) : (satisfying test).Waits whole [] :=
  Fails.satisfying waits_token

/-- A literal bides a text that begins with what stands for it, and one that breaks off in it. -/
theorem bides_spelling {casing : Casing} {wanted taken : List Char} (name matched : String)
    (spells : casing.Spells wanted taken) (agrees : chars <+: taken ∨ taken <+: chars) :
    (script name (spelling casing matched wanted)).Bides whole chars fun _ _ => True := by
  induction spells generalizing matched chars with
  | nil => exact FailsOr.script_done name ((reads_succeed _).failsOr trivial)
  | @cons letter c wanted taken first later inductionHypothesis =>
    cases chars with
    | nil => exact Fails.failsOr (Fails.script name (waits_test _))
    | cons d chars =>
      have same : d = c ∧ (chars <+: taken ∨ taken <+: chars) := by
        rcases agrees with shorter | longer
        · exact (List.cons_prefix_cons.mp shorter).imp_right .inl
        · exact (List.cons_prefix_cons.mp longer).imp Eq.symm .inr
      obtain ⟨rfl, onwards⟩ := same
      have picks : (satisfying (casing.admits letter)).Bides whole (d :: chars)
          fun v left => ∃ t, v = .text t ∧ left = chars :=
        ((admits_picks casing letter).reads first).failsOr ⟨_, rfl, rfl⟩
      refine picks.script_text ?_
      rintro t _ rfl
      exact inductionHypothesis _ onwards

/-- A literal bides a text that begins with what stands for it, and one that breaks off in it. -/
theorem bides_literal {casing : Casing} {wanted : String} {taken : List Char}
    (spells : casing.Spells (casing.target wanted).toList taken)
    (agrees : chars <+: taken ∨ taken <+: chars) :
    (literal wanted casing).Bides whole chars fun _ _ => True :=
  (bides_spelling _ _ spells agrees).label _

/-- One of some literals bides what one of them does. -/
theorem bides_oneOf {casing : Casing} {option wanted : String} {more : List String}
    {taken : List Char} (listed : wanted ∈ option :: more)
    (spells : casing.Spells (casing.target wanted).toList taken)
    (agrees : chars <+: taken ∨ taken <+: chars) :
    (oneOf option more casing).Bides whole chars fun _ _ => True := by
  have among : literal wanted casing ∈ (option :: more).map (literal · casing) :=
    List.mem_map_of_mem listed
  have each {part : Parser}
      (member : part ∈ literal option casing :: more.map (literal · casing)) :
      ∃ wanted, literal wanted casing = part := by
    rw [← List.map_cons (f := fun wanted => literal wanted casing)] at member
    exact (List.mem_map.mp member).imp fun _ found => found.2
  refine FailsOr.label _ (bides_choice ?_ ?_ ⟨_, among, bides_literal spells agrees⟩)
  · intro part member
    obtain ⟨wanted, rfl⟩ := each member
    exact Built.literal wanted casing
  · intro part member
    obtain ⟨wanted, rfl⟩ := each member
    exact (settles_literal wanted casing).mono fun _ _ _ => trivial

end Parser
end Descent
