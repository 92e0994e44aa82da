import Descent.Parser.Combination
import Descent.Proofs.Merging

/-!
# Parsers in groups

A choice among choices tries the same parsers in the same order as one choice among all of them,
and a chain of chains runs them as one chain does. What a row of parsers does is what its first
part does and then, if that leaves it to them, what the others do; and a combination that stands
alone in a row does what its own parts would do there. Whatever has these two properties does not
depend on how the row is grouped, by induction on the grouping.

For a choice the second property is more than it seems. A choice inside another one merges its
failures before they are merged with the earlier ones, so it rests on merging being associative.
-/

namespace Descent

/-- Parsers in groups within groups. No group is empty. -/
inductive Grouping where
  | single (p : Parser)
  | group (first : Grouping) (more : List Grouping)

namespace Grouping

mutual

/-- The parsers of a grouping, from left to right. -/
def leaves : Grouping → List Parser
  | single p => [p]
  | group first more => first.leaves ++ allLeaves more

/-- The parsers of several groupings in order. -/
def allLeaves : List Grouping → List Parser
  | [] => []
  | grouping :: rest => grouping.leaves ++ allLeaves rest

end

mutual

/-- The parser that a grouping stands for if its groups are combined in a given way. -/
def combined (combine : Parser → List Parser → Parser) : Grouping → Parser
  | single p => p
  | group first more => combine (first.combined combine) (allCombined combine more)

/-- The parsers that several groupings stand for. -/
def allCombined (combine : Parser → List Parser → Parser) : List Grouping → List Parser
  | [] => []
  | grouping :: rest => grouping.combined combine :: allCombined combine rest

end

mutual

/-- The grouping with another parser in the place of each. -/
def map (f : Parser → Parser) : Grouping → Grouping
  | single p => single (f p)
  | group first more => group (first.map f) (allMap f more)

/-- Several groupings with another parser in the place of each. -/
def allMap (f : Parser → Parser) : List Grouping → List Grouping
  | [] => []
  | grouping :: rest => grouping.map f :: allMap f rest

end

mutual

/-- Other parsers in their places are other leaves in the same order. -/
theorem leaves_map (f : Parser → Parser) :
    (grouping : Grouping) → (grouping.map f).leaves = grouping.leaves.map f
  | single p => rfl
  | group first more => by
    rw [map, leaves, leaves, List.map_append, leaves_map f first, allLeaves_map f more]

/-- The same for several groupings. -/
theorem allLeaves_map (f : Parser → Parser) :
    (groupings : List Grouping) → allLeaves (allMap f groupings) = (allLeaves groupings).map f
  | [] => rfl
  | grouping :: rest => by
    rw [allMap, allLeaves, allLeaves, List.map_append, leaves_map f grouping, allLeaves_map f rest]

end

end Grouping

/-! ## Rows that may be grouped -/

variable {β : Type} {combine : Parser → List Parser → Parser} {row : Parser → List Parser → β}
  {after : β → β → β}

/-- What the rows of parsers do that a combination puts together: a longer row does what its parts
do one after the other, and a combination in a row of its own does what its parts do. -/
structure Ungroups (combine : Parser → List Parser → Parser) (row : Parser → List Parser → β)
    (after : β → β → β) : Prop where
  append : ∀ p more q others, row p (more ++ q :: others) = after (row p more) (row q others)
  alone : ∀ p more, row (combine p more) [] = row p more

/-- Two rows of parsers are both empty, or neither is and they do the same. -/
inductive SameRow (row : Parser → List Parser → β) : List Parser → List Parser → Prop where
  | nothing : SameRow row [] []
  | something (p : Parser) (more : List Parser) (q : Parser) (others : List Parser)
      (same : row p more = row q others) : SameRow row (p :: more) (q :: others)

namespace SameRow

variable {first second third fourth : List Parser}

theorem refl (parsers : List Parser) : SameRow row parsers parsers := by
  cases parsers with
  | nil => exact nothing
  | cons p more => exact something p more p more rfl

theorem trans (left : SameRow row first second) (right : SameRow row second third) :
    SameRow row first third := by
  cases left with
  | nothing => exact right
  | something p more q others same =>
    cases right with
    | something _ _ r rest sameNext => exact something p more r rest (same.trans sameNext)

/-- Rows that do the same may be put behind rows that do the same. -/
theorem append (ungroups : Ungroups combine row after) (left : SameRow row first second)
    (right : SameRow row third fourth) : SameRow row (first ++ third) (second ++ fourth) := by
  cases left with
  | nothing => exact right
  | something p more q others same =>
    cases right with
    | nothing =>
      rw [List.append_nil, List.append_nil]
      exact something p more q others same
    | something r rest t remaining sameNext =>
      refine something p (more ++ r :: rest) q (others ++ t :: remaining) ?_
      rw [ungroups.append, ungroups.append, same, sameNext]

end SameRow

namespace Grouping

mutual

/-- A grouping in a row of its own does what its leaves do. -/
theorem combined_sameRow (ungroups : Ungroups combine row after) :
    (grouping : Grouping) → SameRow row [grouping.combined combine] grouping.leaves
  | single p => SameRow.refl [p]
  | group first more => by
    have opened : SameRow row [(group first more).combined combine]
        ([first.combined combine] ++ allCombined combine more) :=
      .something _ _ _ _ (ungroups.alone _ _)
    have parts : SameRow row ([first.combined combine] ++ allCombined combine more)
        (first.leaves ++ allLeaves more) :=
      (combined_sameRow ungroups first).append ungroups (allCombined_sameRow ungroups more)
    exact opened.trans parts

/-- Groupings in a row do what all their leaves do. -/
theorem allCombined_sameRow (ungroups : Ungroups combine row after) :
    (groupings : List Grouping) →
      SameRow row (allCombined combine groupings) (allLeaves groupings)
  | [] => .nothing
  | grouping :: rest =>
    (combined_sameRow ungroups grouping).append ungroups (allCombined_sameRow ungroups rest)

end

/-- A grouping has leaves, and alone it does what they do in a row. -/
theorem exists_row (ungroups : Ungroups combine row after) (grouping : Grouping) :
    ∃ p more, grouping.leaves = p :: more ∧ row (grouping.combined combine) [] = row p more := by
  have same := combined_sameRow ungroups grouping
  cases found : grouping.leaves with
  | nil =>
    rw [found] at same
    cases same
  | cons p more =>
    rw [found] at same
    cases same with
    | something _ _ _ _ together => exact ⟨p, more, rfl, together⟩

end Grouping

namespace Parser

/-! ## Chains -/

/-- After the first parsers of a chain come the others, unless one of the first failed. -/
theorem runAll_append (p : Parser) (more rest : List Parser) (s : State) :
    runAll (p :: (more ++ rest)) s =
      runAll (p :: more) s >>= fun reached =>
        if reached.failed then pure reached else runAll rest reached := by
  induction more generalizing p s with
  | nil =>
    have alone : runAll [p] s = p.run s := run_chain_nil p s
    rw [alone]
    rfl
  | cons next later inductionHypothesis =>
    rw [List.cons_append, runAll, runAll, Run.ifSucceeded_assoc]
    simp only [inductionHypothesis]

/-- Chains may be grouped. -/
theorem chain_ungroups :
    Ungroups chain (fun p more s => runAll (p :: more) s)
      (fun first second s => first s >>= fun reached =>
        if reached.failed then pure reached else second reached) where
  append p more q others := funext (runAll_append p more (q :: others))
  alone p more := funext (run_chain_nil (chain p more))

/-! ## Choices -/

/-- What comes after the last alternative sees its failure with the earlier ones merged into it. -/
theorem attempt_last (s : State) (earlier : Option Failure) (p : Parser)
    (next : State → Run State) :
    (attempt s earlier p [] >>= fun last => if last.failed then next last else pure last) =
      p.run s >>= fun reached =>
        if reached.failed then
          next { reached with error := Failure.merge? earlier reached.error }
        else pure reached := by
  rw [attempt_nil, Run.ifFailed_assoc]
  congr 1
  funext reached
  by_cases failed : reached.failed = true
  · rw [if_pos failed, if_pos failed, pure_bind, if_pos (reached.failed_merged earlier failed)]
  · rw [if_neg failed, if_neg failed]

/-- After the first alternatives come the others, with what was merged of the first failures. -/
theorem attempt_append (s : State) (earlier : Option Failure) (p : Parser) (more : List Parser)
    (q : Parser) (others : List Parser) :
    attempt s earlier p (more ++ q :: others) =
      attempt s earlier p more >>= fun reached =>
        if reached.failed then attempt s reached.error q others else pure reached := by
  induction more generalizing earlier p with
  | nil =>
    rw [List.nil_append, attempt_cons, attempt_last]
  | cons next later inductionHypothesis =>
    rw [List.cons_append, attempt_cons, attempt_cons, Run.ifFailed_assoc]
    simp only [inductionHypothesis]

/-- An earlier failure may be merged into what is merged of the alternatives, or be there from the
beginning. -/
theorem attempt_merged (s : State) (earlier inner : Option Failure) (p : Parser)
    (more : List Parser) :
    attempt s (Failure.merge? earlier inner) p more =
      attempt s inner p more >>= fun reached =>
        if reached.failed then
          pure { reached with error := Failure.merge? earlier reached.error }
        else pure reached := by
  induction more generalizing inner p with
  | nil =>
    rw [attempt_nil, attempt_last]
    simp only [Failure.merge?_assoc]
  | cons next later inductionHypothesis =>
    rw [attempt_cons, attempt_cons, Run.ifFailed_assoc]
    simp only [Failure.merge?_assoc, inductionHypothesis]

/-- Choices may be grouped. -/
theorem choice_ungroups :
    Ungroups choice (fun p more s earlier => attempt s earlier p more)
      (fun first second s earlier => first s earlier >>= fun reached =>
        if reached.failed then second s reached.error else pure reached) where
  append p more q others :=
    funext fun s => funext fun earlier => attempt_append s earlier p more q others
  alone p more := by
    funext s earlier
    have merged := attempt_merged s earlier none p more
    rw [Failure.merge?_none_right] at merged
    exact merged.symm

/-- The parser with a note of its own that it leaves whenever it is run. -/
def announced (note : Parser → Note) (p : Parser) : Parser := p.noted (note p)

end Parser

namespace Grouping

/-- A tree of choices is one choice among its leaves, and a tree of chains one chain of them. -/
theorem exists_flat (grouping : Grouping) :
    ∃ p more, grouping.leaves = p :: more ∧
      (grouping.combined .choice).run = (Parser.choice p more).run ∧
      (grouping.combined .chain).run = (Parser.chain p more).run := by
  obtain ⟨p, more, leaves, attempts⟩ := grouping.exists_row Parser.choice_ungroups
  obtain ⟨q, others, sameLeaves, runs⟩ := grouping.exists_row Parser.chain_ungroups
  obtain ⟨rfl, rfl⟩ := List.cons.inj (leaves.symm.trans sameLeaves)
  refine ⟨p, more, leaves, funext fun s => ?_, funext fun s => ?_⟩
  · rw [← Parser.run_choice_nil (grouping.combined .choice)]
    exact congrFun (congrFun attempts s) none
  · rw [← Parser.run_chain_nil (grouping.combined .chain)]
    exact congrFun runs s

/-- The same with other parsers in the places of the leaves. -/
theorem map_flat (grouping : Grouping) (f : Parser → Parser) {p : Parser} {more : List Parser}
    (leaves : grouping.leaves = p :: more) :
    ((grouping.map f).combined .choice).run = (Parser.choice (f p) (more.map f)).run ∧
      ((grouping.map f).combined .chain).run = (Parser.chain (f p) (more.map f)).run := by
  obtain ⟨q, others, mapped, choices, chains⟩ := (grouping.map f).exists_flat
  rw [leaves_map, leaves, List.map_cons] at mapped
  obtain ⟨rfl, rfl⟩ := List.cons.inj mapped
  exact ⟨choices, chains⟩

end Grouping

/-- The grouping of a choice or a chain does not matter. Whatever parsers are combined, a tree of
choices leaves what one choice among its leaves does, and so does a tree of chains: the same state
with all that is in it or the same fault, and the same notes. If each parser leaves a note when it
is run, the notes are the same, so that the same parsers are run in the same order. -/
theorem grouping_irrelevant (grouping : Grouping) :
    ∃ p more, grouping.leaves = p :: more ∧
      (∀ s, (grouping.combined .choice).run s = (Parser.choice p more).run s) ∧
      (∀ s, (grouping.combined .chain).run s = (Parser.chain p more).run s) ∧
      ∀ (note : Parser → Note) (s : State),
        (((grouping.map (.announced note)).combined .choice).run s).notes =
            ((Parser.choice (p.announced note) (more.map (.announced note))).run s).notes ∧
          (((grouping.map (.announced note)).combined .chain).run s).notes =
            ((Parser.chain (p.announced note) (more.map (.announced note))).run s).notes := by
  obtain ⟨p, more, leaves, choices, chains⟩ := grouping.exists_flat
  refine ⟨p, more, leaves, congrFun choices, congrFun chains, fun note s => ?_⟩
  obtain ⟨heardChoices, heardChains⟩ := grouping.map_flat (.announced note) leaves
  rw [heardChoices, heardChains]
  exact ⟨rfl, rfl⟩

end Descent
