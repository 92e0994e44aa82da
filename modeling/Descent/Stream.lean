import Descent.Session
import Descent.Text.Encoding

/-!
# Streams

A stream parses a source that is read piece by piece and yields each value as soon as it is
complete. What happens is a row of events: pieces are asked for, values are yielded, and the
stream ends or stops with a fault. Nothing is read before it is needed, every value is yielded
before the next piece is read, and nothing follows a fault. A reader who wants only so many
values stops the stream at the last of them.

The stream listens to a handle. What it is told goes into one of two queues, for values and for
failures, and after each call on the handle both are drained, the values first.
-/

namespace Descent

/-- A piece of a source: text, or octets to be decoded. -/
inductive Chunk where
  | text (s : String)
  | octets (bytes : List UInt8)

/-- What happens while a stream is read. -/
inductive Event where
  /-- The chunk of the given number was asked for. -/
  | pull (number : Nat)
  /-- So much was read from a file; nothing at its end. -/
  | read (chunk : Chunk)
  /-- A value was yielded. -/
  | yield (v : Value)
  /-- The source was exhausted and everything in it parsed. -/
  | finished
  /-- The stream stopped with a fault. -/
  | raised (fault : Fault)

/-- Where chunks come from: a row of them, or a file. -/
inductive Source where
  | chunks (row : List Chunk)
  | file (contents : Chunk)

/-- The readings of a source in order: each chunk with its event, and what the reading that finds
nothing more shows. -/
structure Readings where
  chunks : List (Event × Chunk)
  exhausted : List Event

/-- The number of characters read from a file at a time. -/
def defaultChunkSize : Int := 8192

/-- The encoding of octets when none is given. -/
def defaultEncoding : String := Text.Encoding.utf8.name

/-- Pieces of a fixed size, which is not zero; the last may be shorter. -/
def pieces {α : Type} (size : Nat) (xs : List α) : List (List α) :=
  if xs.isEmpty ∨ size = 0 then [] else xs.take size :: pieces size (xs.drop size)
termination_by xs.length
decreasing_by
  rename_i more
  have nonempty : xs ≠ [] := fun none => more (Or.inl (by simp [none]))
  have positive : size ≠ 0 := fun none => more (Or.inr none)
  have := List.length_pos_iff.mpr nonempty
  rw [List.length_drop]
  omega

/-- The pieces of a file: all of it at once for a negative size, nothing at all for zero. -/
def filePieces {α : Type} (size : Int) (xs : List α) : List (List α) :=
  if size < 0 then pieces xs.length xs else pieces size.toNat xs

/-- The readings of chunks from a given number on. -/
def pulls (number : Nat) : List Chunk → List (Event × Chunk)
  | [] => []
  | chunk :: rest => (.pull number, chunk) :: pulls (number + 1) rest

/-- The reading of one piece of a file. -/
def readingOf (chunk : Chunk) : Event × Chunk := (.read chunk, chunk)

/-- All readings of a source in order. That a row of chunks has come to its end shows nowhere; the
last reading of a file finds nothing. -/
def Source.readings (source : Source) (chunkSize : Int) : Readings :=
  match source with
  | chunks row => ⟨pulls 0 row, []⟩
  | file (.text s) =>
    ⟨(filePieces chunkSize s.toList).map fun cs => readingOf (.text (String.ofList cs)),
      [.read (.text "")]⟩
  | file (.octets bytes) =>
    ⟨(filePieces chunkSize bytes).map fun bs => readingOf (.octets bs), [.read (.octets [])]⟩

/-- The text of a chunk, and the decoder after it. Text needs no decoding. -/
def Chunk.decoded (decoder : Text.Decoder) : Chunk → Except Fault (String × Text.Decoder)
  | text s => .ok (s, decoder)
  | octets bytes => decoder.decode bytes

/-- A stream at work: the session that parses, the decoder, the values and the failures that it
has been told of and not passed on, and how many values are still wanted, if that is limited. -/
structure Stream where
  session : Session
  decoder : Text.Decoder
  results : List Value := []
  failures : List Fault := []
  wanted : Option Nat := none

namespace Stream

/-- A fresh stream. -/
def start (p : Parser) (decoder : Text.Decoder) (setup : Setup) (wanted : Option Nat) :
    Stream where
  session := { handle := Handle.start p setup }
  decoder := decoder
  wanted := wanted

/-- Be told of a report. Values and failures wait in queues of their own. -/
def hear (s : Stream) : Report → Stream
  | .value v => { s with results := s.results ++ [v] }
  | .failure failure => { s with failures := s.failures ++ [.rejected failure] }
  | .error text => { s with failures := s.failures ++ [.reported text] }

/-- Yield values as far as they are wanted. Gives how many are wanted after them: `none` when the
stream stops at one of them. -/
def yields : Option Nat → List Value → List Event × Option (Option Nat)
  | wanted, [] => ([], some wanted)
  | none, v :: rest =>
    let (events, left) := yields none rest
    (.yield v :: events, left)
  | some 0, _ :: _ => ([], none)
  | some 1, v :: _ => ([.yield v], none)
  | some (more + 2), v :: rest =>
    let (events, left) := yields (some (more + 1)) rest
    (.yield v :: events, left)

/-- Yield the values that wait, and then stop with the first failure that waits, if any. Gives the
events, and the stream unless it stopped. -/
def drain (s : Stream) : List Event × Option Stream :=
  match yields s.wanted s.results with
  | (events, none) => (events, none)
  | (events, some wanted) =>
    match s.failures with
    | [] => (events, some { s with results := [], wanted })
    | fault :: _ => (events ++ [.raised fault], none)

/-- Make a call on the handle, listen to what it reports, and pass that on. A fault of the call
itself stops the stream at once. Gives the events, and the stream unless it stopped. -/
def advance (s : Stream) (call : Call) : Run (List Event × Option Stream) := do
  let (session, fault) ← s.session.call call
  let told := (session.since s.session).foldl hear { s with session }
  match fault with
  | some f => return ([.raised f], none)
  | none => return told.drain

/-- Parse one chunk. -/
def take (s : Stream) (chunk : Chunk) : Run (List Event × Option Stream) :=
  match chunk.decoded s.decoder with
  | .error fault => pure ([.raised fault], none)
  | .ok (text, decoder) => do
    Run.note (.chunk text.length)
    { s with decoder }.advance (.data text)

/-- Parse what the decoder still holds, and then close the handle. -/
def close (s : Stream) : Run (List Event) :=
  match s.decoder.decode [] true with
  | .error fault => pure [.raised fault]
  | .ok (tail, decoder) => do
    let ready := { s with decoder }
    let (first, rest) ←
      if tail.isEmpty then pure ([], some ready) else ready.advance (.data tail)
    match rest with
    | none => pure first
    | some alive =>
      let (last, done) ← alive.advance .finish
      return first ++ last ++ (if done.isSome then [.finished] else [])

/-- All events of a stream from some readings on, the source showing at its end what is given. -/
def consume (s : Stream) (exhausted : List Event) : List (Event × Chunk) → Run (List Event)
  | [] => do return exhausted ++ (← s.close)
  | (event, chunk) :: later => do
    let (events, next) ← s.take chunk
    match next with
    | none => return event :: events
    | some ready => return event :: events ++ (← ready.consume exhausted later)

end Stream

/-- Parse a source as it is read. The handle is made, and the encoding looked up, when the first
value is asked for. -/
def Parser.stream (p : Parser) (source : Source) (setup : Setup := {})
    (encoding : String := defaultEncoding) (chunkSize : Int := defaultChunkSize)
    (wanted : Option Nat := none) : Run (List Event) :=
  if wanted = some 0 then pure []
  else
    match Text.Decoder.ofName encoding with
    | .error fault => pure [.raised fault]
    | .ok decoder =>
      let readings := source.readings chunkSize
      (Stream.start p decoder setup wanted).consume readings.exhausted readings.chunks

end Descent
