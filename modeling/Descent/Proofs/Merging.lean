import Descent.Proofs.Leads
import Mathlib.Data.Prod.Lex

/-!
# Merging in closed form

Of two failures the one that outranks the other is kept: one that says something outranks one that
does not, and among those that are alike in this the one further on does. Ranks are linearly
ordered, so only failures of equal rank are ever joined, and whatever is lost to a failure is
outranked by all that the failure is merged with later.

From this it follows that merging is associative, and what is left of any row of failures can be
told without going through it: those of the highest rank count, in order, and nothing else.
-/

namespace Descent.Failure

variable {f g h : Failure} {failures : List Failure}

/-! ## First occurrences -/

/-- Leaving messages out and leaving repetitions out may be done in either order. -/
theorem distinctMessages_filter (keep : String → Bool) (messages : List String) :
    distinctMessages (messages.filter keep) = (distinctMessages messages).filter keep := by
  induction messages with
  | nil => rfl
  | cons message rest inductionHypothesis =>
    by_cases kept : keep message = true
    · rw [List.filter_cons_of_pos kept, distinctMessages, distinctMessages,
        List.filter_cons_of_pos kept, inductionHypothesis, List.filter_filter, List.filter_filter]
      simp only [Bool.and_comm]
    · have absent : ((distinctMessages rest).filter (· != message)).filter keep =
          (distinctMessages rest).filter keep := by
        rw [List.filter_filter]
        apply List.filter_congr
        intro other _
        by_cases same : other = message <;> simp [same, kept]
      rw [List.filter_cons_of_neg kept, distinctMessages, List.filter_cons_of_neg kept, absent,
        inductionHypothesis]

/-- Repetitions may be left out of the first part beforehand. -/
theorem distinctMessages_append_left (first second : List String) :
    distinctMessages (distinctMessages first ++ second) = distinctMessages (first ++ second) := by
  induction first with
  | nil => rfl
  | cons message rest inductionHypothesis =>
    have once : ((distinctMessages rest).filter (· != message) ++ second).filter (· != message) =
        (distinctMessages rest ++ second).filter (· != message) := by
      simp [List.filter_filter]
    simp only [distinctMessages, List.cons_append]
    rw [← distinctMessages_filter, once, distinctMessages_filter, inductionHypothesis]

/-- Repetitions may be left out of the second part beforehand. -/
theorem distinctMessages_append_right (first second : List String) :
    distinctMessages (first ++ distinctMessages second) = distinctMessages (first ++ second) := by
  induction first with
  | nil =>
    have alone := distinctMessages_append_left second []
    rwa [List.append_nil, List.append_nil] at alone
  | cons message rest inductionHypothesis =>
    simp only [List.cons_append, distinctMessages, inductionHypothesis]

/-- The library leaves out all repetitions of a message before it goes on, which shortens the row
by more than one at a time. -/
theorem distinctMessages_eq_eraseDups (messages : List String) :
    distinctMessages messages = messages.eraseDups := by
  induction size : messages.length using Nat.strongRecOn generalizing messages with
  | ind length inductionHypothesis =>
    cases messages with
    | nil => rfl
    | cons message rest =>
      have shorter : (rest.filter (· != message)).length < length := by
        rw [← size, List.length_cons]
        exact Nat.lt_succ_of_le (List.length_filter_le _ _)
      rw [distinctMessages, ← distinctMessages_filter, inductionHypothesis _ shorter _ rfl,
        List.eraseDups_cons]
      rfl

/-! ## Ranks -/

/-- What decides between two failures: whether they say something, and then where they lie. -/
def rank (f : Failure) : Bool ×ₗ Int ×ₗ Int :=
  toLex (!f.messages.isEmpty, toLex (f.position.line, f.position.column))

/-- Failures that both say something, or both say nothing, are ranked by their places. -/
theorem rank_lt_iff (alike : f.messages.isEmpty = g.messages.isEmpty) :
    f.rank < g.rank ↔ f.position.order g.position = .lt := by
  rw [Position.order_eq_lt_iff, rank, rank, Prod.Lex.toLex_lt_toLex, alike,
    Prod.Lex.toLex_lt_toLex]
  simp [Position.Before]

/-- The same for places that may agree. -/
theorem rank_le_iff (alike : f.messages.isEmpty = g.messages.isEmpty) :
    f.rank ≤ g.rank ↔ f.position.order g.position ≠ .gt := by
  rw [← not_lt, rank_lt_iff alike.symm, ← Position.order_swap, ne_eq, Ordering.swap_eq_lt]

/-- A failure that says nothing never outranks one that says something. -/
theorem worded_of_rank_le (lower : f.rank ≤ g.rank) (silent : g.messages.isEmpty = true) :
    f.messages.isEmpty = true := by
  rw [rank, rank, Prod.Lex.toLex_le_toLex, silent] at lower
  cases said : f.messages.isEmpty with
  | true => rfl
  | false =>
    rw [said] at lower
    rcases lower with less | ⟨same, _⟩
    · cases less
    · cases same

/-- Failures of one rank are alike in saying something or nothing. -/
theorem alike_of_rank_eq (equal : f.rank = g.rank) : f.messages.isEmpty = g.messages.isEmpty := by
  have flags := congrArg (fun r => (ofLex r).1) equal
  simpa [rank] using flags

/-- The failure that is outranked gives way to the second one. -/
theorem merge_of_lt (less : f.rank < g.rank) : merge f g = g := by
  by_cases alike : f.messages.isEmpty = g.messages.isEmpty
  · rw [merge, alike, (rank_lt_iff alike).mp less]
    simp
  · have silent : f.messages.isEmpty = true ∧ g.messages.isEmpty = false := by
      cases said : g.messages.isEmpty with
      | true => exact absurd ((worded_of_rank_le less.le said).trans said.symm) alike
      | false => exact ⟨by simpa [said] using alike, rfl⟩
    simp [merge, silent]

/-- The failure that outranks the second one is kept. -/
theorem merge_of_gt (less : g.rank < f.rank) : merge f g = f := by
  by_cases alike : f.messages.isEmpty = g.messages.isEmpty
  · have beyond : f.position.order g.position = .gt := by
      rw [← Position.order_swap, (rank_lt_iff alike.symm).mp less]
      rfl
    rw [merge, alike, beyond]
    simp
  · have silent : g.messages.isEmpty = true ∧ f.messages.isEmpty = false := by
      cases said : f.messages.isEmpty with
      | true => exact absurd (said.trans (worded_of_rank_le less.le said).symm) alike
      | false => exact ⟨by simpa [said] using alike, rfl⟩
    simp [merge, silent]

/-- Failures of one rank are joined. -/
theorem merge_of_eq (equal : f.rank = g.rank) : merge f g = joined f g := by
  have alike := alike_of_rank_eq equal
  have level : f.position.order g.position = .eq := by
    cases compared : f.position.order g.position with
    | lt => exact absurd ((rank_lt_iff alike).mpr compared) equal.not_lt
    | gt => exact absurd compared ((rank_le_iff alike).mp equal.le)
    | eq => rfl
  rw [merge, alike, level]
  simp

/-- Joining failures of one rank gives one of that rank. -/
theorem rank_joined (equal : f.rank = g.rank) : (joined f g).rank = g.rank := by
  have alike := alike_of_rank_eq equal
  have silent : (joined f g).messages.isEmpty = g.messages.isEmpty := by
    rw [joined]
    cases said : g.messages with
    | nil =>
      rw [said] at alike
      simp [List.isEmpty_iff.mp alike, distinctMessages]
    | cons message rest => cases f.messages <;> simp [distinctMessages]
  rw [rank, rank, silent]
  rfl

/-- It does not matter in which order three failures of one rank are joined. -/
theorem joined_assoc (f g h : Failure) : joined (joined f g) h = joined f (joined g h) := by
  simp only [joined, distinctMessages_append_left, distinctMessages_append_right,
    List.append_assoc, Bool.or_assoc]

/-- It does not matter which of three failures in a row are merged first. Each two of them are in
one of three orders, and what is kept is outranked by nothing. -/
theorem merge_assoc (f g h : Failure) : merge (merge f g) h = merge f (merge g h) := by
  rcases lt_trichotomy f.rank g.rank with less | equal | more
  · rcases lt_trichotomy g.rank h.rank with lessNext | equalNext | moreNext
    · rw [merge_of_lt less, merge_of_lt lessNext, merge_of_lt (less.trans lessNext)]
    · have below : f.rank < (joined g h).rank := by
        rw [rank_joined equalNext, ← equalNext]
        exact less
      rw [merge_of_lt less, merge_of_eq equalNext, merge_of_lt below]
    · rw [merge_of_lt less, merge_of_gt moreNext, merge_of_lt less]
  · have together : (joined f g).rank = g.rank := rank_joined equal
    rcases lt_trichotomy g.rank h.rank with lessNext | equalNext | moreNext
    · rw [merge_of_eq equal, merge_of_lt lessNext, merge_of_lt (equal.trans_lt lessNext),
        merge_of_lt (together.trans_lt lessNext)]
    · have level : f.rank = (joined g h).rank := by
        rw [rank_joined equalNext, ← equalNext, equal]
      rw [merge_of_eq equal, merge_of_eq equalNext, merge_of_eq (together.trans equalNext),
        merge_of_eq level, joined_assoc]
    · rw [merge_of_eq equal, merge_of_gt moreNext, merge_of_eq equal,
        merge_of_gt (together.symm ▸ moreNext)]
  · rcases lt_trichotomy g.rank h.rank with lessNext | equalNext | moreNext
    · rw [merge_of_gt more, merge_of_lt lessNext]
    · have below : (joined g h).rank < f.rank := by
        rw [rank_joined equalNext, ← equalNext]
        exact more
      rw [merge_of_gt more, merge_of_eq equalNext, merge_of_gt below,
        merge_of_gt (equalNext ▸ more)]
    · rw [merge_of_gt more, merge_of_gt moreNext, merge_of_gt more,
        merge_of_gt (moreNext.trans more)]

/-- The same for possible failures. -/
theorem merge?_assoc (f g h : Option Failure) :
    merge? (merge? f g) h = merge? f (merge? g h) := by
  cases f with
  | none => rfl
  | some f =>
    cases g with
    | none => rfl
    | some g =>
      cases h with
      | none => rfl
      | some h => exact congrArg some (merge_assoc f g h)

/-! ## Rows of failures -/

/-- The failures that say something, or all of them if none does. -/
def voiced (failures : List Failure) : List Failure :=
  if failures.all (·.messages.isEmpty) then failures
  else failures.filter fun f => !f.messages.isEmpty

/-- The failures that none of them lies beyond. -/
def furthest (failures : List Failure) : List Failure :=
  failures.filter fun f => failures.all fun g => g.position.order f.position != .gt

/-- What failures at one place come to. A single one stays as it is. Several have the place and
the kind of the last, the messages of all, and blame the end if any of them does. -/
def summary : List Failure → Option Failure
  | [] => none
  | [single] => some single
  | several@(_ :: _ :: _) =>
    several.getLast?.map fun last =>
      { last with
        messages := (several.flatMap (·.messages)).eraseDups
        wasEof := several.any (·.wasEof) }

/-- One failure more is joined to what there is. -/
theorem summary_append_one (known : summary failures = some f) (g : Failure) :
    summary (failures ++ [g]) = some (joined f g) := by
  match failures with
  | [] => cases known
  | [single] =>
    obtain rfl := Option.some.inj known
    simp [summary, joined, distinctMessages_eq_eraseDups]
  | first :: second :: rest =>
    rw [summary] at known
    obtain ⟨last, _, rfl⟩ := Option.map_eq_some_iff.mp known
    have longer : ((first :: second :: rest) ++ [g]).getLast? = some g := List.getLast?_concat
    rw [List.cons_append, List.cons_append, summary, ← List.cons_append, ← List.cons_append, longer,
      Option.map_some, List.flatMap_append, List.any_append]
    simp only [joined, ← distinctMessages_eq_eraseDups, distinctMessages_append_left,
      List.flatMap_singleton, List.any_cons, List.any_nil, Bool.or_false]

/-- A failure stands for a row of them: none outranks it, and it is what those of its own rank
come to. -/
structure StandsFor (f : Failure) (failures : List Failure) : Prop where
  bound : ∀ g ∈ failures, g.rank ≤ f.rank
  summary : summary (failures.filter fun g => g.rank = f.rank) = some f

namespace StandsFor

/-- Every failure stands for itself. -/
theorem single (f : Failure) : f.StandsFor [f] where
  bound g member := List.mem_singleton.mp member ▸ le_refl _
  summary := by simp [Failure.summary]

/-- Merging a failure into what stands for a row stands for the longer row. -/
theorem append_one (stands : f.StandsFor failures) (g : Failure) :
    (merge f g).StandsFor (failures ++ [g]) := by
  have bound : ∀ most, f.rank ≤ most → g.rank ≤ most → ∀ e ∈ failures ++ [g], e.rank ≤ most := by
    intro most old new e member
    rcases List.mem_append.mp member with member | member
    · exact (stands.bound e member).trans old
    · exact List.mem_singleton.mp member ▸ new
  rcases lt_trichotomy f.rank g.rank with less | equal | more
  · have outranked : failures.filter (fun e => e.rank = g.rank) = [] := by
      apply List.filter_eq_nil_iff.mpr
      intro e member
      simpa using ((stands.bound e member).trans_lt less).ne
    rw [merge_of_lt less]
    refine ⟨bound _ less.le (le_refl _), ?_⟩
    simp [outranked, Failure.summary]
  · have together : (joined f g).rank = g.rank := rank_joined equal
    have summed := stands.summary
    rw [equal] at summed
    rw [merge_of_eq equal]
    refine ⟨bound _ (together ▸ equal.le) together.ge, ?_⟩
    rw [together, List.filter_append, List.filter_cons_of_pos (by simp), List.filter_nil]
    exact summary_append_one summed g
  · rw [merge_of_gt more]
    refine ⟨bound _ (le_refl _) more.le, ?_⟩
    rw [List.filter_append, List.filter_cons_of_neg (by simpa using more.ne), List.filter_nil,
      List.append_nil]
    exact stands.summary

/-- Merging failures from left to right gives the one that stands for all of them. -/
theorem merging (stands : f.StandsFor failures) (later : List Failure) :
    ∃ merged, (later.map some).foldl merge? (some f) = some merged ∧
      merged.StandsFor (failures ++ later) := by
  induction later generalizing f failures with
  | nil => exact ⟨f, rfl, by rwa [List.append_nil]⟩
  | cons g rest inductionHypothesis =>
    obtain ⟨merged, folded, standsForAll⟩ := inductionHypothesis (stands.append_one g)
    refine ⟨merged, folded, ?_⟩
    rwa [List.append_assoc] at standsForAll

/-- What stands for a row has the rank of one of its failures. -/
theorem attained (stands : f.StandsFor failures) : ∃ g ∈ failures, g.rank = f.rank := by
  by_contra missing
  have nothing : failures.filter (fun g => g.rank = f.rank) = [] := by
    apply List.filter_eq_nil_iff.mpr
    intro g member found
    exact missing ⟨g, member, by simpa using found⟩
  have summed := stands.summary
  rw [nothing] at summed
  cases summed

/-- The failures that say something, if any does, are those that are like what stands for all. -/
theorem voiced_eq (stands : f.StandsFor failures) :
    voiced failures = failures.filter fun g => g.messages.isEmpty == f.messages.isEmpty := by
  obtain ⟨top, member, same⟩ := stands.attained
  have alike : top.messages.isEmpty = f.messages.isEmpty := alike_of_rank_eq same
  unfold voiced
  by_cases silent : failures.all (·.messages.isEmpty) = true
  · have all := List.all_eq_true.mp silent
    rw [if_pos silent]
    refine (List.filter_eq_self.mpr fun g inside => ?_).symm
    rw [all g inside, ← alike, all top member]
    rfl
  · have worded : f.messages.isEmpty = false := by
      by_contra quiet
      apply silent
      apply List.all_eq_true.mpr
      intro g inside
      exact worded_of_rank_le (stands.bound g inside) (by simpa using quiet)
    rw [if_neg silent]
    simp [worded]

/-- Those of the highest rank are the furthest of those that count. -/
theorem furthest_voiced (stands : f.StandsFor failures) :
    furthest (voiced failures) = failures.filter fun g => g.rank = f.rank := by
  obtain ⟨top, member, same⟩ := stands.attained
  rw [stands.voiced_eq, furthest, List.filter_filter]
  apply List.filter_congr
  intro g inside
  rw [Bool.eq_iff_iff]
  simp only [Bool.and_eq_true, List.all_eq_true, List.mem_filter, bne_iff_ne, ne_eq, beq_iff_eq,
    decide_eq_true_eq]
  constructor
  · rintro ⟨beyond, alike⟩
    -- What attains the highest rank is among those compared with, so nothing less is furthest.
    have topAlike : top.messages.isEmpty = f.messages.isEmpty := alike_of_rank_eq same
    have above : top.rank ≤ g.rank :=
      (rank_le_iff (topAlike.trans alike.symm)).mpr (beyond top ⟨member, topAlike⟩)
    exact le_antisymm (stands.bound g inside) (same ▸ above)
  · intro equal
    have alike : g.messages.isEmpty = f.messages.isEmpty := alike_of_rank_eq equal
    refine ⟨fun e found => ?_, alike⟩
    exact (rank_le_iff (found.2.trans alike.symm)).mp (equal ▸ stands.bound e found.1)

end StandsFor

/-- How failures are merged, in closed form. Merging is associative, and no failure at all is its
identity on both sides. Of a row of failures, the furthest of those that say something count, or
the furthest of all if none does: a single one stays as it is, and several come to one with the
place and the kind of the last, the messages of all without repetitions, and the blame of any. -/
theorem merging_closed_form :
    (∀ f g h : Option Failure, merge? (merge? f g) h = merge? f (merge? g h)) ∧
    (∀ f : Option Failure, merge? none f = f ∧ merge? f none = f) ∧
    ∀ (first : Failure) (rest : List Failure),
      (rest.map some).foldl merge? (some first) =
        summary (furthest (voiced (first :: rest))) := by
  refine ⟨merge?_assoc, fun f => ⟨merge?_none_left f, merge?_none_right f⟩, fun first rest => ?_⟩
  obtain ⟨merged, folded, stands⟩ := (StandsFor.single first).merging rest
  rw [List.singleton_append] at stands
  rw [folded, stands.furthest_voiced, stands.summary]

-- The second says nothing, and the last lies before the others.
example :
    summary (furthest (voiced
      [⟨⟨1, 2, none⟩, ["b"], .expectation, true⟩, ⟨⟨3, 0, none⟩, [], .failure, false⟩,
        ⟨⟨1, 2, "named"⟩, ["a", "b"], .failure, false⟩, ⟨⟨1, 1, none⟩, ["c"], .eof, true⟩])) =
      some ⟨⟨1, 2, "named"⟩, ["b", "a"], .failure, true⟩ := by
  decide +kernel

end Descent.Failure
