import Descent.Proofs.Conversation

/-!
# Reports that are left in the queue

A delivery tells the listener all that waits, so as a rule nothing is left when it is over. But an
error of the listener ends the delivery, and a fault of the parser keeps a call from delivering at
all. What waited then is still in the queue when nothing is under way any more.

While the handle is open nothing is lost by that: the next delivery begins with what is left. On a
closed handle there is no next delivery, since every call is refused. What is left there is lost,
and nothing happens to the handle any more.

The first half needs that a delivery can begin: when nothing is under way, the mark of a delivery
is not set. `Scene.Marked` is the invariant from which that follows.
-/

namespace Descent

variable {p : Parser} {setup : Setup}

namespace Scene

variable {s next : Scene} {report : Report} {rest : List Report}

/-- The mark says whether a delivery is under way, and there is never more than one. -/
def Marked (s : Scene) : Prop :=
  s.underWay.count .delivery = if s.delivering then 1 else 0

/-- A call begins a delivery only where none is marked. -/
theorem Marked.afterCall (marked : s.Marked) (verdict : Verdict) :
    (s.afterCall verdict).Marked := by
  cases verdict with
  | silent => exact marked
  | fault fault => exact marked
  | deliver =>
    cases already : s.delivering with
    | true => rwa [s.afterCall_delivering already]
    | false =>
      unfold Marked at marked ⊢
      rw [already] at marked
      simp [Scene.afterCall, already, marked]

/-- When a delivery ends, no other is under way. -/
theorem Marked.ended (marked : s.Marked) {outer : List Activity}
    (inner : s.underWay.count .delivery = outer.count .delivery + 1) :
    Marked { s with delivering := false, underWay := outer } := by
  unfold Marked at marked ⊢
  rw [inner] at marked
  cases already : s.delivering with
  | true => simpa [already] using marked
  | false => simp [already] at marked

/-- Every move keeps the mark right. -/
theorem Marked.move (marked : s.Marked) {deed : Deed} (move : Moves s deed next) : next.Marked := by
  cases move with
  | @call call after verdict free accepted =>
    have same : (s.answered call after).Marked := marked
    exact same.afterCall verdict
  | tell inner waiting => simpa [Marked] using marked
  | heard inner => simpa [Marked, inner] using marked
  | raised inner => exact marked.ended (by simp [inner])
  | delivered inner idle => exact marked.ended (by simp [inner])

end Scene

end Descent
