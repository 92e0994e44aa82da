import Descent.Handle

/-!
# Sessions

A session is a handle together with the one who listens to it. Reports are delivered one by one
in the order of their results. On some of its calls the listener reacts: it calls the handle
again, or raises an error. What it feeds in meanwhile is parsed at once but delivered by the
delivery already under way, so reports never overtake one another. An error ends the delivery
and leaves the rest of the queue where it is.

Each reaction happens once, so a delivery either uses up a reaction or shortens the queue.
-/

namespace Descent

/-- What a listener does during one of its calls. -/
inductive Reaction where
  | call (call : Call)
  | raise (text : String)

/-- A handle and its listener: the reactions still to come, each with the number of the call it
belongs to, and the reports made so far. -/
structure Session where
  handle : Handle
  reactions : List (Nat × Reaction) := []
  made : Array Report := #[]

namespace Session

/-- Carry out reactions in order up to the first fault. -/
def react : List Reaction → Handle → Run (Handle × Option Fault)
  | [], h => pure (h, none)
  | .raise text :: _, h => pure (h, some (.callback text))
  | .call call :: later, h => do
    match ← h.accept call with
    | (after, .fault fault) => pure (after, some fault)
    | (after, _) => react later after

/-- The reactions that belong to the call of a given number. -/
def due (number : Nat) (reactions : List (Nat × Reaction)) : List Reaction :=
  (reactions.filter fun r => r.1 == number).map (·.2)

/-- The reactions that belong to other calls. -/
def later (number : Nat) (reactions : List (Nat × Reaction)) : List (Nat × Reaction) :=
  reactions.filter fun r => !(r.1 == number)

/-- Carrying out a reaction uses it up. -/
theorem length_later_lt (number : Nat) (reactions : List (Nat × Reaction))
    (some_due : (due number reactions).isEmpty ≠ true) :
    (later number reactions).length < reactions.length := by
  induction reactions with
  | nil => exact absurd rfl some_due
  | cons r rest inductionHypothesis =>
    cases belongs : r.1 == number with
    | true =>
      have shorter : (later number rest).length ≤ rest.length := List.length_filter_le _ _
      simp only [later, belongs, List.filter_cons, Bool.not_true, Bool.false_eq_true, if_false,
        List.length_cons] at shorter ⊢
      omega
    | false =>
      have rest_due : (due number rest).isEmpty ≠ true := by
        simpa [due, List.filter_cons, belongs] using some_due
      have shorter := inductionHypothesis rest_due
      simp only [later, belongs, List.filter_cons, Bool.not_false, if_true,
        List.length_cons] at shorter ⊢
      omega

/-- Deliver the queue of the handle. -/
def deliver (s : Session) : Run (Session × Option Fault) :=
  match _queue : s.handle.pending with
  | [] => pure (s, none)
  | report :: rest =>
    let handle := { s.handle with pending := rest }
    let number := s.made.size
    let made := s.made.push report
    if _some_due : (due number s.reactions).isEmpty = true then
      deliver { s with handle, made }
    else do
      let (after, fault) ← react (due number s.reactions) handle
      let next : Session := { handle := after, reactions := later number s.reactions, made }
      match fault with
      | some _ => pure (next, fault)
      | none => deliver next
termination_by (s.reactions.length, s.handle.pending.length)
decreasing_by
  · exact Prod.Lex.right _ (by simp [_queue])
  · exact Prod.Lex.left _ _ (length_later_lt _ _ _some_due)

/-- An empty queue has been delivered. -/
theorem deliver_idle (s : Session) (idle : s.handle.pending = []) :
    s.deliver = pure (s, none) := by
  unfold deliver
  split
  · rfl
  · next waiting =>
    rw [idle] at waiting
    cases waiting

/-- Where the listener does not react, the next report follows. -/
theorem deliver_unasked (s : Session) (report : Report) (rest : List Report)
    (waiting : s.handle.pending = report :: rest)
    (unasked : (due s.made.size s.reactions).isEmpty = true) :
    s.deliver = deliver { s with
      handle := { s.handle with pending := rest }, made := s.made.push report } := by
  conv => lhs; unfold deliver
  split
  · next idle =>
    rw [waiting] at idle
    cases idle
  · next first later found =>
    obtain ⟨rfl, rfl⟩ := List.cons.inj (waiting.symm.trans found)
    rw [dif_pos unasked]

/-- A call on the handle from outside, with the delivery that follows it. -/
def call (s : Session) (call : Call) : Run (Session × Option Fault) := do
  let (handle, verdict) ← s.handle.accept call
  let after := { s with handle }
  match verdict with
  | .silent => pure (after, none)
  | .deliver => after.deliver
  | .fault fault => pure (after, some fault)

/-- Calls one after another, faults notwithstanding. Gives what each of them ended with. -/
def calls : List Call → Session → Run (Session × List (Option Fault))
  | [], s => pure (s, [])
  | next :: later, s => do
    let (after, fault) ← s.call next
    let (last, faults) ← calls later after
    return (last, fault :: faults)

/-- The reports made since an earlier session. -/
def since (s earlier : Session) : List Report :=
  (s.made.extract earlier.made.size s.made.size).toList

end Session
end Descent
