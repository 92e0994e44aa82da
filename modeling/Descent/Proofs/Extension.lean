import Descent.Proofs.Course

/-!
# More text at the end

A parser is stable if text that is added behind what it was given changes nothing that it has
settled: a success stays the same success, and a failure that does not blame the end stays the
same failure. Only a failure that blames the end may become anything else.

For a stable parser the course of a longer text goes through the place where the course of its
beginning stops. This is why a text may be parsed in pieces. The names of sources are left out
when failures are compared, but a built parser never changes them.
-/

namespace Descent

variable {claimsEnd : Prop} {s reached : State} {p : Parser} {userState : Value}
  {position : Position} {chars : List Char}

namespace State

/-- The state with more text at the end of its input. -/
def extended (s : State) (more : List Char) : State :=
  match s.input with
  | .text chars => { s with input := .text (chars ++ more.toArray) }
  | _ => s

/-- A fresh text and more of it is a fresh text. -/
theorem extended_front (userState : Value) (position : Position) (chars more : List Char) :
    (front userState position chars).extended more = front userState position (chars ++ more) := by
  simp [extended, front]

/-- More text changes the input alone. -/
theorem extended_eq (s : State) (more : List Char) :
    s.extended more = { s with input := (s.extended more).input } := by
  rcases s with ⟨_, input, _, _, _, _⟩
  cases input <;> rfl

@[simp] theorem extended_value (s : State) (more : List Char) :
    (s.extended more).value = s.value := by
  rw [extended_eq]

@[simp] theorem extended_offset (s : State) (more : List Char) :
    (s.extended more).offset = s.offset := by
  rw [extended_eq]

@[simp] theorem extended_position (s : State) (more : List Char) :
    (s.extended more).position = s.position := by
  rw [extended_eq]

@[simp] theorem extended_error (s : State) (more : List Char) :
    (s.extended more).error = s.error := by
  rw [extended_eq]

@[simp] theorem extended_failed (s : State) (more : List Char) :
    (s.extended more).failed = s.failed := by
  rw [failed, extended_error, failed]

/-- It does not matter whether a failure is put in before the text is added or after. -/
theorem extended_with_error (s : State) (more : List Char) (error : Option Failure) :
    ({ s with error } : State).extended more = { s.extended more with error } := by
  rcases s with ⟨_, input, _, _, _, _⟩
  cases input <;> rfl

/-- More text is more to read. -/
theorem extended_ready (s : State) (ready : s.Ready) (onText : s.OnText) (more : List Char) :
    (s.extended more).Ready := by
  obtain ⟨chars, same⟩ := onText
  have inside : s.offset ≤ chars.size := by
    have bound := ready.inside
    rwa [same] at bound
  simp only [extended, same]
  refine ⟨ready.clean, ready.start, ?_⟩
  simp only [Input.size, Array.size_append]
  omega

/-- More text comes behind what is unread. -/
theorem remaining_extended (s : State) (ready : s.Ready) (onText : s.OnText)
    (more : List Char) : (s.extended more).remaining = .text (s.textAhead ++ more).toArray := by
  obtain ⟨chars, same⟩ := onText
  have inside : s.offset ≤ chars.size := by
    have bound := ready.inside
    rwa [same] at bound
  have started : s.offset.toNat - chars.size = 0 := by omega
  have before : s.remaining = .text (chars.extract s.offset.toNat chars.size) := by
    rw [remaining_eq_extract s ready.start, same]
    rfl
  have after : (s.extended more).remaining = .text ((chars ++ more.toArray).extract
      s.offset.toNat (chars ++ more.toArray).size) := by
    rw [remaining_eq_extract _ (extended_ready s ready ⟨chars, same⟩ more).start]
    simp only [extended, same]
    rfl
  have whole : min (chars.size + more.length - s.offset.toNat) (chars.size - s.offset.toNat) =
      chars.size - s.offset.toNat := by omega
  rw [after, textAhead, before]
  simp [Array.extract_append, started, whole]

/-- Everything added is unread. -/
theorem unread_extended (s : State) (ready : s.Ready) (onText : s.OnText) (more : List Char) :
    (s.extended more).unread = s.unread + more.length := by
  rw [← size_remaining _ (extended_ready s ready onText more).start,
    remaining_extended s ready onText more, ← length_textAhead s ready onText]
  simp [Input.size]

/-- The items that are there stay the same. -/
theorem extract_extended (s : State) (ready : s.Ready) (onText : s.OnText) (more : List Char)
    (count : Nat) (inside : count ≤ s.unread) :
    (s.extended more).remaining.extract 0 count = s.remaining.extract 0 count := by
  rw [← length_textAhead s ready onText] at inside
  rw [remaining_extended s ready onText more, remaining_eq_text s onText]
  simp [Input.extract, List.extract_eq_take_drop, List.take_append_of_le_length inside]

/-- A longer text has the same places as far as the shorter one goes. -/
theorem place_extended (s : State) (ready : s.Ready) (onText : s.OnText) (more : List Char)
    (count : Nat) (inside : count ≤ s.unread) :
    (s.extended more).place count = s.place count := by
  have longer := extended_ready s ready onText more
  have insideLonger : count ≤ (s.extended more).unread := by
    rw [unread_extended s ready onText more]
    omega
  rw [← over_next _ longer count insideLonger, ← over_next s ready count inside,
    extract_extended s ready onText more count inside, extended_position]

end State

/-- A parser for which more text changes no success, and no failure but those that blame the end
of the text. -/
structure Stable (p : Parser) : Prop where
  success : ∀ (s reached : State) (more : List Char), s.Ready → s.OnText →
    (p.run s).result = .ok reached → reached.error = none →
    ∃ further, (p.run (s.extended more)).result = .ok further ∧ further.error = none ∧
      further.value = reached.value ∧ further.offset = reached.offset
  failure : ∀ (s reached : State) (more : List Char) (e : Failure), s.Ready → s.OnText →
    (p.run s).result = .ok reached → reached.error = some e → e.wasEof = false →
    ∃ further f, (p.run (s.extended more)).result = .ok further ∧ further.error = some f ∧
      f.same e = true

namespace Stable

/-- With more text a success has the same value and reaches the same position, and what it leaves
is longer. -/
theorem goesOn (stable : Stable p) (built : Built claimsEnd p) (more : List Char)
    (ran : (p.run (State.front userState position chars)).result = .ok reached)
    (succeeded : reached.error = none) :
    ∃ further, (p.run (State.front userState position (chars ++ more))).result = .ok further ∧
      further.error = none ∧ further.value = reached.value ∧
      further.position = reached.position ∧ further.textAhead = reached.textAhead ++ more := by
  have ready : (State.front userState position chars).Ready := State.front_ready _ _ _
  have onText : (State.front userState position chars).OnText := State.front_onText _ _ _
  have readyLonger : (State.front userState position (chars ++ more)).Ready :=
    State.front_ready _ _ _
  obtain ⟨further, ranFurther, clean, value, offset⟩ :=
    stable.success _ reached more ready onText ran succeeded
  rw [State.extended_front] at ranFurther
  have leads := built.leads _ ready reached ran
  have leadsFurther := built.leads _ readyLonger further ranFurther
  have passed : (State.front userState position (chars ++ more)).passed further =
      (State.front userState position chars).passed reached := by
    rw [State.passed, State.passed, offset]
    rfl
  have few : (State.front userState position chars).passed reached ≤
      (State.front userState position chars).unread := by
    have total := leads.passed_add_unread ready succeeded
    omega
  have fewChars : (State.front userState position chars).passed reached ≤ chars.length := by
    rwa [← State.length_textAhead _ ready onText, State.textAhead_front] at few
  refine ⟨further, ranFurther, clean, value, ?_, ?_⟩
  · rw [leadsFurther.position, leads.position, passed, ← State.extended_front,
      State.place_extended _ ready onText more _ few]
  · rw [leadsFurther.textAhead readyLonger (State.front_onText _ _ _) clean,
      leads.textAhead ready onText succeeded, passed, State.textAhead_front,
      State.textAhead_front, List.drop_append_of_le_length fewChars]

/-- With more text a failure that does not blame the end is the same failure, source and all. -/
theorem stops (stable : Stable p) (built : Built claimsEnd p) (more : List Char) {e : Failure}
    (ran : (p.run (State.front userState position chars)).result = .ok reached)
    (failed : reached.error = some e) (settled : e.wasEof = false) :
    ∃ further, (p.run (State.front userState position (chars ++ more))).result = .ok further ∧
      further.error = some e := by
  have ready : (State.front userState position chars).Ready := State.front_ready _ _ _
  obtain ⟨further, f, ranFurther, failedFurther, same⟩ :=
    stable.failure _ reached more e ready (State.front_onText _ _ _) ran failed settled
  rw [State.extended_front] at ranFurther
  have readyLonger : (State.front userState position (chars ++ more)).Ready :=
    State.front_ready _ _ _
  obtain ⟨_, count, _, place, _⟩ := (built.leads _ ready reached ran).situated e failed
  obtain ⟨_, countFurther, _, placeFurther, _⟩ :=
    (built.leads _ readyLonger further ranFurther).situated f failedFurther
  have name : f.position.name = e.position.name := by
    rw [place, placeFurther, State.place_name, State.place_name]
    rfl
  have equal : f = e := by
    rcases e with ⟨⟨_, _, _⟩, _, _, _⟩
    rcases f with ⟨⟨_, _, _⟩, _, _, _⟩
    simp only [Failure.same, Position.samePlace, Bool.and_eq_true, beq_iff_eq] at same
    simp_all
  exact ⟨further, ranFurther, equal ▸ failedFurther⟩

end Stable

namespace Course

variable {values : List Value} {stop : Stop}

/-- The course of a longer text goes on where the course of its beginning stops. -/
theorem append (built : Built claimsEnd p) (stable : Stable p)
    (course : Course p userState position chars values stop) (more : List Char)
    {laterValues : List Value} {laterStop : Stop}
    (later : Course p userState stop.position (stop.rest ++ more) laterValues laterStop) :
    Course p userState position (chars ++ more) (values ++ laterValues) laterStop := by
  induction course with
  | stops ran failed => exact later
  | goesOn ran succeeded _ inductionHypothesis =>
    obtain ⟨further, ranFurther, clean, value, onward, ahead⟩ :=
      stable.goesOn built more ran succeeded
    have rest := inductionHypothesis later
    rw [← onward, ← ahead] at rest
    rw [List.cons_append, ← value]
    exact .goesOn ranFurther clean rest

/-- If a course stops for a reason that is not the end, more text changes nothing. -/
theorem append_settled (built : Built claimsEnd p) (stable : Stable p)
    (course : Course p userState position chars values stop) (more : List Char)
    (settled : stop.failure.wasEof = false) :
    Course p userState position (chars ++ more) values
      ⟨stop.position, stop.rest ++ more, stop.failure⟩ := by
  obtain ⟨reached, ran, failed⟩ := course.fails_atStop
  obtain ⟨further, ranFurther, failedFurther⟩ := stable.stops built more ran failed settled
  have whole := course.append built stable more (.stops ranFurther failedFurther)
  rwa [List.append_nil] at whole

end Course

/-! ## Consuming items -/

/-- Consuming items always ends, and a success has consumed at least one. -/
theorem Productive.token (count : Nat) : Productive (Parser.token count) where
  total s ready _ := by
    by_cases short : s.unread < max 1 count
    · rw [Parser.token_short s ready.clean ready.start count short]
      exact ⟨_, rfl⟩
    · rw [Parser.token_enough s ready count (Nat.le_of_not_lt short)]
      exact ⟨_, rfl⟩
  consumes s reached ready _ ran succeeded := by
    by_cases short : s.unread < max 1 count
    · rw [Parser.token_short s ready.clean ready.start count short] at ran
      obtain rfl := Except.ok.inj ran
      cases succeeded
    · rw [Parser.token_enough s ready count (Nat.le_of_not_lt short)] at ran
      obtain rfl := Except.ok.inj ran
      simp only
      omega

/-- Items that are there are consumed in the same way if there are more of them. -/
theorem Parser.token_extended (count : Nat) (ready : s.Ready) (onText : s.OnText)
    (enough : max 1 count ≤ s.unread) (more : List Char)
    (ran : ((token count).run s).result = .ok reached) :
    ((token count).run (s.extended more)).result = .ok (reached.extended more) := by
  have enoughLonger : max 1 count ≤ (s.extended more).unread := by
    rw [State.unread_extended s ready onText more]
    omega
  rw [token_enough s ready count enough] at ran
  obtain rfl := Except.ok.inj ran
  rw [token_enough _ (State.extended_ready s ready onText more) count enoughLonger,
    State.extract_extended s ready onText more _ enough,
    State.place_extended s ready onText more _ enough, State.extended_offset]
  obtain ⟨chars, same⟩ := onText
  simp [State.extended, same, Run.pure_eq]

/-- Items that are there stay there, and a failure to consume them always blames the end. -/
theorem Stable.token (count : Nat) : Stable (Parser.token count) where
  success s reached more ready onText ran succeeded := by
    by_cases short : s.unread < max 1 count
    · rw [Parser.token_short s ready.clean ready.start count short] at ran
      obtain rfl := Except.ok.inj ran
      cases succeeded
    · have longer := Parser.token_extended count ready onText (Nat.le_of_not_lt short) more ran
      refine ⟨_, longer, ?_, State.extended_value _ _, State.extended_offset _ _⟩
      rw [State.extended_error, succeeded]
  failure s reached more e ready onText ran failed settled := by
    by_cases short : s.unread < max 1 count
    · rw [Parser.token_short s ready.clean ready.start count short] at ran
      obtain rfl := Except.ok.inj ran
      obtain rfl := Option.some.inj failed
      cases settled
    · rw [Parser.token_enough s ready count (Nat.le_of_not_lt short)] at ran
      obtain rfl := Except.ok.inj ran
      cases failed

end Descent
