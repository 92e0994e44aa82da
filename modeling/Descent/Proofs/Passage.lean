import Descent.State
import Mathlib.Data.List.Induction

/-!
# Passing over an input

Of an input, positions see only which of its items are newlines. The position after a stretch
is therefore a fold over a row of truth values, whatever kind of input it comes from, and the
count of newlines that `Position.overText` makes is the same fold in one go.

One column past the end of the input is the place of a failure for want of input. It is what one
more item that is no newline would lead to. With that item added, all places that a parser
started on a state can reach are the prefixes of one row, and longer prefixes lie further on:
this is what makes the furthest failure the one that read most.
-/

namespace Descent

namespace Position

/-- The position after a row of items, each a newline or not. -/
def along (p : Position) (breaks : List Bool) : Position := breaks.foldl step p

/-- One position lies on an earlier line than another, or further left on the same line. -/
def Before (p q : Position) : Prop :=
  p.line < q.line ∨ (p.line = q.line ∧ p.column < q.column)

@[simp] theorem along_nil (p : Position) : p.along [] = p := rfl

@[simp] theorem along_cons (p : Position) (newline : Bool) (rest : List Bool) :
    p.along (newline :: rest) = (p.step newline).along rest := rfl

/-- Two rows one after the other are passed over in order. -/
theorem along_append (p : Position) (first second : List Bool) :
    p.along (first ++ second) = (p.along first).along second :=
  List.foldl_append

/-- One column further on is the place after an item that is no newline. -/
theorem along_append_column (p : Position) (breaks : List Bool) :
    p.along (breaks ++ [false]) = (p.along breaks).nextColumn := by
  rw [along_append]
  rfl

/-- A position keeps the name of its source. -/
theorem along_name (p : Position) (breaks : List Bool) : (p.along breaks).name = p.name := by
  induction breaks generalizing p with
  | nil => rfl
  | cons newline rest inductionHypothesis =>
    rw [along_cons, inductionHypothesis]
    cases newline <;> rfl

/-- The line of a position after some text. -/
theorem overText_line (p : Position) (chars : List Char) :
    (p.overText chars).line = p.line + chars.count '\n' := by
  unfold overText
  by_cases none : chars.count '\n' = 0 <;> simp [none]

/-- One character more is one step more. A newline empties the tail of the text; any other
character makes the tail or, without newlines, the whole text longer by one. -/
theorem overText_append_one (p : Position) (chars : List Char) (c : Char) :
    p.overText (chars ++ [c]) = (p.overText chars).step (c == '\n') := by
  by_cases newline : c = '\n'
  · subst newline
    have line : (p.overText chars).line = p.line + chars.count '\n' := overText_line p chars
    have counted : (chars ++ ['\n']).count '\n' = chars.count '\n' + 1 := by simp
    have emptied : tailLength (chars ++ ['\n']) = 0 := by simp [tailLength]
    have name : (p.overText chars).name = p.name := by
      rw [overText]
      by_cases none : chars.count '\n' = 0 <;> simp [none]
    have reached : p.overText (chars ++ ['\n']) =
        { p with line := p.line + (chars.count '\n' + 1), column := 0 } := by
      simp only [overText, counted, emptied]
      simp
    simp only [reached, step, beq_self_eq_true, if_true, line, name, Int.add_assoc]
  · have counted : (chars ++ [c]).count '\n' = chars.count '\n' := by
      simp [newline]
    have longer : tailLength (chars ++ [c]) = tailLength chars + 1 := by
      simp [tailLength, newline]
    have ordinary : (c == '\n') = false := by simpa using newline
    simp only [overText, counted, longer, ordinary, step]
    by_cases none : chars.count '\n' = 0
    · simp [none, Int.add_assoc]
    · simp [none]

/-- Counting newlines and the length of the last line comes to the same as passing over one
character after another. -/
theorem overText_eq_along (p : Position) (chars : List Char) :
    p.overText chars = p.along (chars.map (· == '\n')) := by
  induction chars using List.reverseRecOn with
  | nil =>
    rcases p with ⟨line, column, name⟩
    simp [overText]
  | append_singleton chars c inductionHypothesis =>
    rw [overText_append_one, inductionHypothesis, List.map_append, along_append]
    rfl

/-- The order of positions says which one lies before the other. -/
theorem order_eq_lt_iff (p q : Position) : p.order q = .lt ↔ p.Before q := by
  unfold order Before
  rw [Ordering.then_eq_lt, Int.compare_eq_lt, Int.compare_eq_eq, Int.compare_eq_lt]

/-- Every item leads further on. -/
theorem before_step (p : Position) (newline : Bool) : p.Before (p.step newline) := by
  unfold Before step
  cases newline
  · exact Or.inr ⟨rfl, Int.lt_succ _⟩
  · exact Or.inl (Int.lt_succ _)

theorem Before.trans {p q r : Position} (first : p.Before q) (second : q.Before r) :
    p.Before r := by
  unfold Before at *
  omega

/-- A row with at least one item leads further on. -/
theorem before_along (p : Position) (breaks : List Bool) (some_item : breaks ≠ []) :
    p.Before (p.along breaks) := by
  induction breaks generalizing p with
  | nil => exact absurd rfl some_item
  | cons newline rest inductionHypothesis =>
    rw [along_cons]
    by_cases last : rest = []
    · rw [last]
      exact before_step p newline
    · exact (before_step p newline).trans (inductionHypothesis (p.step newline) last)

/-- Of two prefixes of a row the longer one leads further on. -/
theorem before_along_take (p : Position) (breaks : List Bool) (m n : Nat) (shorter : m < n)
    (inside : n ≤ breaks.length) : (p.along (breaks.take m)).Before (p.along (breaks.take n)) := by
  obtain ⟨k, rfl⟩ := Nat.exists_eq_add_of_lt shorter
  rw [Nat.add_assoc, List.take_add, along_append]
  apply before_along
  intro nothing
  have length := congrArg List.length nothing
  simp only [List.length_take, List.length_drop, List.length_nil] at length
  omega

/-- The order of two positions is reversed when they change places. -/
theorem order_swap (p q : Position) : (p.order q).swap = q.order p := by
  unfold order
  rw [Ordering.swap_then, Std.OrientedOrd.eq_swap (a := q.line),
    Std.OrientedOrd.eq_swap (a := q.column)]

/-- Along one row, positions are ordered as the lengths of the prefixes that lead to them. -/
theorem order_along_take (p : Position) (breaks : List Bool) (m n : Nat)
    (left : m ≤ breaks.length) (right : n ≤ breaks.length) :
    (p.along (breaks.take m)).order (p.along (breaks.take n)) = compare m n := by
  rcases Nat.lt_trichotomy m n with less | same | more
  · rw [Nat.compare_eq_lt.mpr less, order_eq_lt_iff]
    exact before_along_take p breaks m n less right
  · subst same
    simp [order]
  · rw [Nat.compare_eq_gt.mpr more, ← order_swap, Ordering.swap_eq_gt, order_eq_lt_iff]
    exact before_along_take p breaks n m more left

end Position

namespace Input

/-- Which of the items are newlines. Octets never are. -/
def breaks : Input → List Bool
  | .text chars => chars.toList.map (· == '\n')
  | .items values => values.toList.map Value.isNewline
  | .tuple values => values.toList.map Value.isNewline
  | .bytes octets => octets.toList.map fun _ => false

/-- Every item is a newline or not. -/
theorem breaks_length (input : Input) : input.breaks.length = input.size := by
  cases input <;> simp [breaks, size]

/-- The newlines of a stretch are those of the whole input between the same places. -/
theorem breaks_extract (input : Input) (start stop : Nat) :
    (input.extract start stop).breaks = (input.breaks.drop start).take (stop - start) := by
  cases input <;>
    simp [extract, breaks, Array.toList_extract, List.extract_eq_take_drop, List.map_take,
      List.map_drop]

/-- A stretch of a stretch is a stretch of the whole. -/
theorem extract_extract (input : Input) (i j k l : Nat) :
    (input.extract i j).extract k l = input.extract (i + k) (min (i + l) j) := by
  cases input <;> simp [extract]

/-- A stretch ends where the input does. -/
theorem extract_min_size (input : Input) (start stop : Nat) :
    input.extract start (min stop input.size) = input.extract start stop := by
  by_cases inside : stop ≤ input.size
  · rw [Nat.min_eq_left inside]
  · rw [Nat.min_eq_right (Nat.le_of_not_le inside)]
    cases input <;> simp only [extract, size] at inside ⊢ <;>
      rw [Array.extract_of_size_lt (Nat.lt_of_not_le inside)]

end Input

/-- The position after an input depends on its newlines and its length alone. -/
theorem Position.over_eq_along (p : Position) (input : Input) :
    p.over input = p.along input.breaks := by
  cases input with
  | text chars => exact overText_eq_along p chars.toList
  | items values => simp only [Position.over, along, Input.breaks, List.foldl_map]
  | tuple values => simp only [Position.over, along, Input.breaks, List.foldl_map]
  | bytes octets => simp only [Position.over, along, Input.breaks, List.foldl_map]

namespace State

/-- A state that a parser may be started on: nothing has failed, and the offset is inside. -/
structure Ready (s : State) : Prop where
  clean : s.error = none
  start : 0 ≤ s.offset
  inside : s.offset ≤ s.input.size

/-- The newlines of what is unread, with one more item for the column past the end. -/
def ahead (s : State) : List Bool := s.remaining.breaks ++ [false]

/-- The position after so many of the unread items. One item more than there are leads to the
column past the end. -/
def place (s : State) (count : Nat) : Position := s.position.along (s.ahead.take count)

/-- How many items lie between two states. -/
def passed (s reached : State) : Nat := (reached.offset - s.offset).toNat

/-- From an offset that is not negative on, what is unread is a stretch between places. -/
theorem remaining_eq_extract (s : State) (start : 0 ≤ s.offset) :
    s.remaining = s.input.extract s.offset.toNat s.input.size := by
  obtain ⟨offset, same⟩ := Int.eq_ofNat_of_zero_le start
  rw [remaining, Input.drop, same, Input.place_natCast, Int.toNat_natCast]

/-- What comes next is the beginning of what is unread. -/
theorem slice_eq_extract (s : State) (start : 0 ≤ s.offset) (count : Nat) :
    s.input.slice s.offset (s.offset + count) = s.remaining.extract 0 count := by
  obtain ⟨offset, same⟩ := Int.eq_ofNat_of_zero_le start
  have stop : s.offset + count = ((offset + count : Nat) : Int) := by omega
  rw [remaining_eq_extract s start, Input.extract_extract, stop, same, Input.slice_natCast,
    Int.toNat_natCast, Nat.add_zero, Input.extract_min_size]

/-- What is unread, and one place past it. -/
theorem ahead_length (s : State) (start : 0 ≤ s.offset) : s.ahead.length = s.unread + 1 := by
  rw [ahead, List.length_append, Input.breaks_length, s.size_remaining start]
  rfl

/-- The newlines of what is unread are those of the input from the offset on. -/
theorem breaks_remaining (s : State) (ready : s.Ready) :
    s.remaining.breaks = s.input.breaks.drop s.offset.toNat := by
  rw [remaining_eq_extract s ready.start, Input.breaks_extract]
  have length : (s.input.breaks.drop s.offset.toNat).length = s.input.size - s.offset.toNat := by
    rw [List.length_drop, Input.breaks_length]
  exact List.take_of_length_le (Nat.le_of_eq length)

/-- The newlines of the items that come next are the first ones of what is unread. -/
theorem breaks_slice (s : State) (ready : s.Ready) (stop : Int) (after : s.offset ≤ stop) :
    (s.input.slice s.offset stop).breaks = s.remaining.breaks.take (stop - s.offset).toNat := by
  obtain ⟨offset, same⟩ := Int.eq_ofNat_of_zero_le ready.start
  obtain ⟨last, sameStop⟩ := Int.eq_ofNat_of_zero_le (Int.le_trans ready.start after)
  rw [breaks_remaining s ready, same, sameStop, Input.slice_natCast, Input.breaks_extract,
    Int.toNat_natCast, Int.toNat_sub]

/-- As many items come next as are asked for, as far as there are any. -/
theorem size_next (s : State) (start : 0 ≤ s.offset) (count : Nat) :
    (s.remaining.extract 0 count).size = min count s.unread := by
  rw [Input.size_extract, s.size_remaining start, Nat.sub_zero]

/-- Passing over nothing stays where it is. -/
theorem place_zero (s : State) : s.place 0 = s.position := rfl

/-- Every place is in the same source. -/
theorem place_name (s : State) (count : Nat) : (s.place count).name = s.position.name :=
  Position.along_name _ _

/-- While there are items left, the place after some of them is the position over them. -/
theorem place_inside (s : State) (ready : s.Ready) (count : Nat) (inside : count ≤ s.unread) :
    s.place count = s.position.along (s.remaining.breaks.take count) := by
  have length : s.remaining.breaks.length = s.unread := by
    rw [Input.breaks_length, s.size_remaining ready.start]
  rw [place, ahead, List.take_append_of_le_length (by omega)]

/-- All places beyond the end are one column past it. -/
theorem place_beyond (s : State) (start : 0 ≤ s.offset) (count : Nat)
    (beyond : s.unread < count) :
    s.place count = (s.position.over s.remaining).nextColumn := by
  have length : s.ahead.length = s.unread + 1 := ahead_length s start
  rw [place, List.take_of_length_le (by omega), ahead, Position.along_append_column,
    Position.over_eq_along]

/-- The position after the items that come next. -/
theorem over_next (s : State) (ready : s.Ready) (count : Nat) (inside : count ≤ s.unread) :
    s.position.over (s.remaining.extract 0 count) = s.place count := by
  rw [Position.over_eq_along, Input.breaks_extract, place_inside s ready count inside]
  rfl

/-- Asking for more items than there are leads past the end. -/
theorem over_next_short (s : State) (start : 0 ≤ s.offset) (count : Nat)
    (short : s.unread < count) :
    (s.position.over (s.remaining.extract 0 count)).nextColumn = s.place (s.unread + 1) := by
  have length : s.remaining.breaks.length = s.unread := by
    rw [Input.breaks_length, s.size_remaining start]
  have all : (s.remaining.breaks.drop 0).take (count - 0) = s.remaining.breaks :=
    List.take_of_length_le (by rw [List.drop_zero, length]; omega)
  rw [place_beyond s start _ (Nat.lt_succ_self _), Position.over_eq_along, Input.breaks_extract,
    all, Position.over_eq_along]

/-- The place that belongs to an offset is the position over the items up to it, and one column
more if the offset lies past the end. -/
theorem place_offset (s : State) (ready : s.Ready) (stop : Int) (after : s.offset ≤ stop) :
    s.place (stop - s.offset).toNat =
      if s.input.size < stop then (s.position.over (s.input.slice s.offset stop)).nextColumn
      else s.position.over (s.input.slice s.offset stop) := by
  have inside : s.offset ≤ s.input.size := ready.inside
  have length : s.remaining.breaks.length = s.unread := by
    rw [Input.breaks_length, s.size_remaining ready.start]
  rw [Position.over_eq_along, breaks_slice s ready stop after]
  by_cases beyond : s.input.size < stop
  · have many : s.unread < (stop - s.offset).toNat := by
      unfold unread
      omega
    rw [if_pos beyond, place_beyond s ready.start _ many, Position.over_eq_along,
      List.take_of_length_le (by omega)]
  · have few : (stop - s.offset).toNat ≤ s.unread := by
      unfold unread
      omega
    rw [if_neg beyond, place_inside s ready _ few]

/-- Places are ordered as the numbers of items before them. -/
theorem order_place (s : State) (start : 0 ≤ s.offset) (m n : Nat) (left : m ≤ s.unread + 1)
    (right : n ≤ s.unread + 1) : (s.place m).order (s.place n) = compare m n := by
  have length : s.ahead.length = s.unread + 1 := ahead_length s start
  exact Position.order_along_take _ _ m n (by omega) (by omega)

end State
end Descent
