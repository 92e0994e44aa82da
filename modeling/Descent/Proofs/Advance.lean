import Descent.Proofs.Passage

/-!
# Advancing over an input

A position is taken over a whole stretch at once, and for a text it is not even taken over the
characters: their number, the number of newlines and the length of the last line are enough. Three
laws say that this is passing over one item after another, whatever kind of input it is. The stretch
comes to the same as its items in turn; two stretches come to the same as both in one; and of two
stretches from one place, the longer one always ends further on.

The last law is what the order of positions is for: the furthest of some failures is the one behind
the longest part of the input.
-/

namespace Descent

namespace Input

/-- Two inputs of one kind as one. Inputs of different kinds cannot be put together. -/
def append? : Input → Input → Option Input
  | .text first, .text second => some (.text (first ++ second))
  | .items first, .items second => some (.items (first ++ second))
  | .tuple first, .tuple second => some (.tuple (first ++ second))
  | .bytes first, .bytes second => some (.bytes (first ++ second))
  | _, _ => none

/-- The newlines of two inputs put together are those of both. -/
theorem breaks_append? {first second whole : Input} (joined : first.append? second = some whole) :
    whole.breaks = first.breaks ++ second.breaks := by
  cases first <;> cases second <;> simp only [append?, Option.some.injEq, reduceCtorEq] at joined
  all_goals
    subst joined
    simp [breaks]

/-- The newlines of a stretch from the start are the first ones. -/
theorem breaks_slice_zero (input : Input) (count : Nat) :
    (input.slice 0 count).breaks = input.breaks.take count := by
  have places : input.slice 0 count = input.extract 0 count := input.slice_natCast 0 count
  rw [places, breaks_extract, List.drop_zero, Nat.sub_zero]

end Input

/-- A character is a newline exactly if it is one as an item of a text. -/
theorem Value.isNewline_char (c : Char) : (Value.text c.toString).isNewline = (c == '\n') := by
  rw [Value.isNewline, Bool.eq_iff_iff, beq_iff_eq, beq_iff_eq]
  constructor
  · intro same
    have chars : c.toString.toList = ['\n'] := by rw [same]; rfl
    simpa using chars
  · rintro rfl
    rfl

namespace Position

/-- The count of newlines and the length of the last line come to the same as one character of the
text after another. -/
theorem overText_eq_foldl (p : Position) (chars : List Char) :
    p.overText chars = chars.foldl (fun q c => q.step (Value.text c.toString).isNewline) p := by
  simp only [Value.isNewline_char]
  rw [overText_eq_along, along, List.foldl_map]

/-- Two inputs put together are passed over in order. -/
theorem over_append? (p : Position) {first second whole : Input}
    (joined : first.append? second = some whole) : p.over whole = (p.over first).over second := by
  simp only [over_eq_along, Input.breaks_append? joined, along_append]

/-- Stretches from the start of an input are ordered as their lengths. -/
theorem order_over_slice (p : Position) (input : Input) (m n : Nat) (left : m ≤ input.size)
    (right : n ≤ input.size) :
    (p.over (input.slice 0 m)).order (p.over (input.slice 0 n)) = compare m n := by
  simp only [over_eq_along, Input.breaks_slice_zero]
  apply order_along_take
  · rwa [Input.breaks_length]
  · rwa [Input.breaks_length]

/-- The word for the order of two numbers. -/
theorem orderWord_compare (m n : Nat) :
    orderWord (compare m n) = if m < n then "lt" else if m = n then "eq" else "gt" := by
  rcases Nat.lt_trichotomy m n with less | same | more
  · rw [Nat.compare_eq_lt.mpr less, if_pos less, orderWord]
  · rw [Nat.compare_eq_eq.mpr same, if_neg (Nat.not_lt_of_le (Nat.le_of_eq same.symm)),
      if_pos same, orderWord]
  · rw [Nat.compare_eq_gt.mpr more, if_neg (Nat.not_lt_of_lt more), if_neg (Nat.ne_of_gt more),
      orderWord]

end Position

/-- The laws of advancing, from any position, with all that belongs to it. A text is passed over as
its characters are one by one. An input of any kind is passed over as two parts of it are in order.
And the positions behind two stretches from the start compare as the lengths of the stretches. -/
theorem advancing_lawful (p : Position) :
    (∀ chars : List Char,
      p.overText chars =
        chars.foldl (fun q c => q.step (Value.text c.toString).isNewline) p) ∧
    (∀ first second whole : Input, first.append? second = some whole →
      p.over whole = (p.over first).over second) ∧
    ∀ (input : Input) (m n : Nat), m ≤ input.size → n ≤ input.size →
      Position.orderWord ((p.over (input.slice 0 m)).order (p.over (input.slice 0 n))) =
        if m < n then "lt" else if m = n then "eq" else "gt" := by
  refine ⟨p.overText_eq_foldl, ?_, ?_⟩
  · intro first second whole joined
    exact p.over_append? joined
  · intro input m n left right
    rw [p.order_over_slice input m n left right, Position.orderWord_compare]

/-- A text of three lines in two parts, from the middle of a line of a source with a name. Behind
its second newline the column is smaller than before and the position still further on. -/
theorem advancing_lawful_three_lines :
    (Input.ofString "ab\nc").append? (.ofString "\nd") = some (.ofString "ab\nc\nd") ∧
    Position.over ⟨3, 7, some "in"⟩ (.ofString "ab\nc\nd") =
      (Position.over ⟨3, 7, some "in"⟩ (.ofString "ab\nc")).over (.ofString "\nd") ∧
    4 ≤ (Input.ofString "ab\nc\nd").size ∧ 5 ≤ (Input.ofString "ab\nc\nd").size ∧
    Position.orderWord
      ((Position.over ⟨3, 7, some "in"⟩ ((Input.ofString "ab\nc\nd").slice 0 (4 : Nat))).order
        (Position.over ⟨3, 7, some "in"⟩ ((Input.ofString "ab\nc\nd").slice 0 (5 : Nat)))) =
      "lt" := by
  obtain ⟨_, inOrder, compared⟩ := advancing_lawful ⟨3, 7, some "in"⟩
  have joined : (Input.ofString "ab\nc").append? (.ofString "\nd") =
      some (.ofString "ab\nc\nd") := rfl
  have first : 4 ≤ (Input.ofString "ab\nc\nd").size := by decide
  have second : 5 ≤ (Input.ofString "ab\nc\nd").size := by decide
  exact ⟨joined, inOrder _ _ _ joined, first, second, compared _ 4 5 first second⟩

end Descent
