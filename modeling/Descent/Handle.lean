import Descent.Parse
import Descent.Parser.Repetition

/-!
# Incremental handles

A handle feeds a parser a chunk at a time. The text that has not been parsed waits in a buffer;
each pass parses the buffer from its start and keeps what is left. A failure that only says the
buffer ran out is not reported while the handle is open: more text may come. Once it is closed
such failures count like any other.

Results wait in a queue until they are delivered. A function inside a parser may parse a text of
its own, and what it raises where that is refused is taken for a failure of the grammar. Any other
fault inside a pass leaves the handle as the passes before it did.
-/

namespace Descent

/-- What a handle reports: a value, the failure of the grammar, or an error it was told of. -/
inductive Report where
  | value (v : Value)
  | failure (failure : Failure)
  | error (text : String)

/-- A parser at work on a text that arrives in chunks. -/
structure Handle where
  parser : Parser
  userState : Value := .null
  position : Position := {}
  buffer : Array Char := #[]
  closed : Bool := false
  failure : Option Failure := none
  pending : List Report := []

/-- A call on a handle: more text, the end of it, or an error that ends it. -/
inductive Call where
  | data (chunk : String)
  | finish
  | error (text : String)

/-- What has to happen after a call: nothing, delivery of the queue, or a fault. -/
inductive Verdict where
  | silent
  | deliver
  | fault (fault : Fault)

/-- The end of one pass: the handle after it, whether another may follow, and a fault if one
stopped it. -/
structure Pass where
  handle : Handle
  progressed : Bool := false
  fault : Option Fault := none

namespace Handle

/-- A fresh handle. Each pass applies the parser at least once. -/
def start (p : Parser) (setup : Setup := {}) : Handle where
  parser := p.collect (.atLeast 1)
  userState := setup.userState
  position := setup.origin

/-- The handle after a pass that parsed something. -/
def advanced (h : Handle) (reached : State) : Handle :=
  { h with
    position := reached.position
    buffer :=
      match reached.remaining with
      | .text chars => chars
      | _ => #[]
    pending := h.pending ++ (reached.value.items?.getD []).map .value }

/-- The handle after a failure that counts. -/
def refused (h : Handle) (failure : Failure) : Handle :=
  { h with failure := some failure, pending := h.pending ++ [.failure failure] }

/-- The end of a pass that has met a failure. While the handle is open, one that blames the end
waits for more text. -/
def blamed (h : Handle) (failure : Failure) : Run Pass :=
  if failure.wasEof && !h.closed then do
    Run.note (.waiting failure.position)
    return { handle := h }
  else return { handle := h.refused failure }

/-- Parse the buffer once. A failure counts alike whether the parser ends with it or a function
inside the parser raises it, as that of a parse of its own. -/
def pass (h : Handle) : Run Pass := do
  if h.closed && h.buffer.isEmpty then return { handle := h }
  let setup : Setup := { userState := h.userState, position := some h.position }
  match ← (h.parser.reach setup (.text h.buffer)).caught with
  | .error (.rejected failure) => h.blamed failure
  | .error fault => return { handle := h, fault := some fault }
  | .ok reached =>
    match reached.error with
    | none => return { handle := h.advanced reached, progressed := true }
    | some failure => h.blamed failure

/-- Parse the buffer as often as that gets further. The handle repeats its parser once at least, so
that a pass that parses something always leaves a shorter buffer. -/
def drain (h : Handle) : Run (Handle × Option Fault) := do
  let done ← h.pass
  if done.progressed ∧ done.handle.buffer.size < h.buffer.size then
    drain done.handle
  else return (done.handle, done.fault)
termination_by h.buffer.size

/-- Drain a handle; its queue is delivered unless a fault stops that. -/
def drained (h : Handle) : Run (Handle × Verdict) := do
  let (after, fault) ← h.drain
  return (after, match fault with
    | none => .deliver
    | some f => .fault f)

/-- The handle's part of a call, up to the delivery of its queue. -/
def accept (h : Handle) (call : Call) : Run (Handle × Verdict) := do
  if h.closed then return (h, .fault .handleClosed)
  match call with
  | .data chunk =>
    match h.failure with
    | some failure =>
      Run.note (.dropped chunk.length failure.position)
      return (h, .silent)
    | none => drained { h with buffer := h.buffer ++ chunk.toList.toArray }
  | .finish =>
    let closed := { h with closed := true }
    if closed.failure.isSome then return (closed, .deliver) else drained closed
  | .error text =>
    return ({ h with closed := true, pending := h.pending ++ [.error text] }, .deliver)

/-- The text that waits to be parsed. -/
def bufferText (h : Handle) : String := String.ofList h.buffer.toList

/-- The name of the state a handle is in. -/
def stateName (h : Handle) : String := if h.closed then "closed" else "open"

end Handle
end Descent
