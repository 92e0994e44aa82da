import Descent.Checked

/-!
# Numbers of repetitions

A repetition is asked for with two values, a least number of times and a greatest one that may be
left out. Whole numbers that are not negative and not in the wrong order pass every check that is
made of them, so that the constructor is the plain one with just these bounds. What a limit leaves
after a number of rounds is a limit again.
-/

namespace Descent

/-- The value that asks for a limit. -/
def Limit.asked : Limit → Value
  | .finite n => .int n
  | .unbounded => .null

/-! ## Counting against a limit -/

namespace Limit

variable {most : Limit} {count fewer : Nat}

/-- What is left of a limit after a number of rounds. -/
def after : Limit → Nat → Limit
  | finite n, count => finite (n - count)
  | unbounded, _ => unbounded

theorem after_zero (most : Limit) : most.after 0 = most := by cases most <;> rfl

/-- One round more takes one from what is left. -/
theorem after_pred (most : Limit) (count : Nat) :
    (most.after count).pred = most.after (count + 1) := by
  cases most <;> rfl

/-- A round before the others counts like one after them. -/
theorem pred_after (most : Limit) (count : Nat) :
    most.pred.after count = most.after (count + 1) := by
  cases most with
  | finite n => exact congrArg finite (by omega)
  | unbounded => rfl

/-- There is room for another round as long as there were fewer than the limit allows. -/
theorem exceeds_after (most : Limit) (count : Nat) :
    (most.after count).exceeds 0 = most.exceeds count := by
  cases most with
  | finite n => exact decide_eq_decide.mpr Nat.sub_pos_iff_lt
  | unbounded => rfl

/-- A limit that has been reached leaves nothing. -/
theorem after_of_reached (all : most.exceeds count = false) : most.after count = finite 0 := by
  cases most with
  | finite n =>
    have enough : n ≤ count := by simpa [exceeds] using all
    exact congrArg finite (Nat.sub_eq_zero_of_le enough)
  | unbounded => cases all

/-- As many rounds as there may be have reached the limit. -/
theorem exceeds_self (count : Nat) : (finite count).exceeds count = false := by simp [exceeds]

/-- Any limit leaves room for nothing. -/
theorem zero_atMost (most : Limit) : (finite 0).atMost most = true := by
  cases most with
  | finite n => simp [atMost]
  | unbounded => rfl

/-- A limit that allows a number of rounds allows fewer. -/
theorem atMost_of_le (fits : (finite count).atMost most = true) (le : fewer ≤ count) :
    (finite fewer).atMost most = true := by
  cases most with
  | finite n => exact decide_eq_true (Nat.le_trans le (of_decide_eq_true fits))
  | unbounded => rfl

/-- There is room after a number of rounds if one more is allowed. -/
theorem exceeds_iff (most : Limit) (count : Nat) :
    most.exceeds count = true ↔ (finite (count + 1)).atMost most = true := by
  cases most with
  | finite n => exact Iff.rfl
  | unbounded => exact Iff.rfl

/-- With room for a round, one and those that are allowed behind it are allowed. -/
theorem atMost_succ (room : most.exceeds 0 = true)
    (fits : (finite count).atMost most.pred = true) : (finite (count + 1)).atMost most = true := by
  cases most with
  | finite n =>
    have positive : 0 < n := of_decide_eq_true room
    have others : count ≤ n - 1 := of_decide_eq_true fits
    exact decide_eq_true (by omega)
  | unbounded => rfl

/-- A limit of which nothing is left has been reached. -/
theorem eq_of_after (fits : (finite count).atMost most = true)
    (none_left : most.after count = finite 0) : most = finite count := by
  cases most with
  | finite n =>
    have enough : count ≤ n := of_decide_eq_true fits
    have nothing : n - count = 0 := finite.inj none_left
    exact congrArg finite (by omega)
  | unbounded => cases none_left

/-- A limit other than none at all has room. -/
theorem exceeds_zero (room : most ≠ finite 0) : most.exceeds 0 = true := by
  cases most with
  | finite n => exact decide_eq_true (Nat.pos_of_ne_zero fun zero => room (congrArg finite zero))
  | unbounded => rfl

end Limit

/-! ## Comparing numbers -/

/-- The order of whole numbers is that of their values. -/
theorem Value.order_int (m n : Int) : (Value.int m).order? (.int n) = some (compare m n) := by
  simp [order?, numberOrder?, quotient?, Exact.order]

/-- A whole number is below infinity. -/
theorem Value.order_infinity (n : Int) :
    (Value.int n).order? (.float Binary64.infinity) = some .lt := by
  have endless : exactFloat Binary64.infinity = none := by decide
  have above : (Value.float Binary64.infinity).infiniteSide? = some .gt := by decide
  simp only [order?, numberOrder?, quotient?, endless, above]
  rfl

/-- Infinity is above a whole number. -/
theorem Value.infinity_order (n : Int) :
    (Value.float Binary64.infinity).order? (.int n) = some .gt := by
  have endless : exactFloat Binary64.infinity = none := by decide
  have above : (Value.float Binary64.infinity).infiniteSide? = some .gt := by decide
  simp only [order?, numberOrder?, quotient?, endless, above]

/-- A value comes after another one if their order says so. -/
theorem Comparison.gt_of_order {v w : Value} {order : Ordering} (known : v.order? w = some order) :
    Comparison.gt.holds v w = .ok (order == .gt) := by
  simp only [holds, known, admits]

/-- A value comes before another one if their order says so. -/
theorem Comparison.lt_of_order {v w : Value} {order : Ordering} (known : v.order? w = some order) :
    Comparison.lt.holds v w = .ok (order == .lt) := by
  simp only [holds, known, admits]

namespace Checked

variable {least : Nat} {most : Limit}

/-- A least number is taken as it is. Zero is false, and stands for zero. -/
theorem orZero_int (n : Int) : orZero (.int n) = .int n := by
  unfold orZero
  by_cases zero : n = 0
  · rw [zero]
    rfl
  · rw [if_pos (by simpa [Value.isTrue] using zero)]

/-- A least number is not above the greatest one. -/
theorem asked_in_order (ordered : (Limit.finite least).atMost most = true) :
    Comparison.gt.holds (.int least) (orInfinite most.asked) = .ok false := by
  cases most with
  | finite n =>
    have inOrder : least ≤ n := by simpa [Limit.atMost] using ordered
    have below : compare (least : Int) n ≠ .gt := by
      rw [ne_eq, Int.compare_eq_gt]
      omega
    rw [Limit.asked, orInfinite, Comparison.gt_of_order (Value.order_int _ _)]
    · simp [below]
    · nofun
  | unbounded => exact Comparison.gt_of_order (Value.order_infinity least)

/-- The limit that a value asks for. -/
theorem ofNumber_asked (most : Limit) : Limit.ofNumber? (orInfinite most.asked) = some most := by
  cases most with
  | finite n => simp [Limit.asked, orInfinite, Limit.ofNumber?, Value.int?]
  | unbounded =>
    have endless : Value.exactFloat Binary64.infinity = none := by decide
    have above : (Value.float Binary64.infinity).infiniteSide? = some .gt := by decide
    simp only [Limit.asked, orInfinite, Limit.ofNumber?, endless, above, if_pos]

/-- Numbers in order are the bounds that they ask for. -/
theorem bounds_asked (site : Site) (ordered : (Limit.finite least).atMost most = true) :
    bounds site (.int least) most.asked = .ok ⟨.finite least, most, ordered⟩ := by
  have lower : Limit.ofNumber? (.int least) = some (.finite least) := by
    simp [Limit.ofNumber?, Value.int?]
  have upTo : Bounds.upTo most (.finite least) = ⟨.finite least, most, ordered⟩ := dif_pos ordered
  unfold bounds
  rw [orZero_int]
  simp only [asked_in_order ordered, lower, ofNumber_asked, upTo]
  rfl

/-- A repetition with such numbers. -/
theorem collect_asked (p : Parser) (ordered : (Limit.finite least).atMost most = true) :
    collect (.parser p) (.int least) most.asked =
      .ok (p.collect ⟨.finite least, most, ordered⟩) := by
  unfold collect
  rw [bounds_asked .collect ordered]
  rfl

/-- A repetition with a separator after each value, which the last may lack. -/
theorem splitEnd_asked (p separator : Parser)
    (ordered : (Limit.finite least).atMost most = true) :
    splitEnd (.parser p) (.parser separator) (.int least) most.asked =
      .ok (p.splitEnd separator ⟨.finite least, most, ordered⟩) := by
  unfold splitEnd
  rw [bounds_asked .splitEnd ordered]
  rfl

/-- The first value is made apart, and one is taken from the least number. -/
theorem oneFewer_least (least : Nat) :
    oneFewer (if (Value.int least).isTrue then .int least else .int 1) =
      .ok (.int (least - 1 : Nat)) := by
  cases least with
  | zero => rfl
  | succ n =>
    rw [if_pos (by simp [Value.isTrue]; omega)]
    simp [oneFewer, Value.minus, Value.arithmetic, Value.int?]

/-- One is taken from the greatest number, if there is one. -/
theorem oneFewer_most (room : most ≠ .finite 0) : oneFewer most.asked = .ok most.pred.asked := by
  cases most with
  | unbounded => rfl
  | finite n =>
    cases n with
    | zero => exact absurd rfl room
    | succ n =>
      simp [Limit.asked, Limit.pred, oneFewer, Value.minus, Value.arithmetic, Value.int?]

/-- A repetition with a separator between the values. -/
theorem split_asked (p separator : Parser) (ordered : (Limit.finite least).atMost most = true) :
    split (.parser p) (.parser separator) (.int least) most.asked =
      .ok (p.split separator ⟨.finite least, most, ordered⟩) := by
  have low : withFirst (.int least) = .int least := by
    cases least with
    | zero => rfl
    | succ n => simp [withFirst, Limit.ofNumber?, Value.int?]
  have checked := bounds_asked .split ordered
  by_cases nothing : most = .finite 0
  · subst nothing
    have below : Comparison.lt.holds (orInfinite (Limit.finite 0).asked) (.int 1) = .ok true :=
      Comparison.lt_of_order (Value.order_int 0 1)
    have plain : p.split separator ⟨.finite least, .finite 0, ordered⟩ =
        Parser.succeed (.list []) := if_pos rfl
    unfold split
    rw [checked, below, plain]
    rfl
  · have enough : Comparison.lt.holds (orInfinite most.asked) (.int 1) = .ok false := by
      cases most with
      | unbounded => exact Comparison.lt_of_order (Value.infinity_order 1)
      | finite n =>
        have positive : n ≠ 0 := fun zero => nothing (congrArg Limit.finite zero)
        have above : compare (n : Int) 1 ≠ .lt := by
          rw [ne_eq, Int.compare_eq_lt]
          omega
        rw [Limit.asked, orInfinite, Comparison.lt_of_order (Value.order_int _ _)]
        · simp [above]
        · nofun
    have fewer : bounds .collect (.int (least - 1 : Nat)) most.pred.asked = .ok _ :=
      bounds_asked .collect (Limit.atMost_pred (.finite least) most ordered)
    unfold split
    rw [checked, enough, low, checked, oneFewer_least, oneFewer_most nothing]
    change (bounds .collect (.int (least - 1 : Nat)) most.pred.asked >>= fun _ => _) = _
    rw [fewer]
    rfl

end Checked
end Descent
