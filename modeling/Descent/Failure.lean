import Descent.Position

/-!
# Failures

A failure says where the input did not fit, what was expected, and whether the input merely
ran out. Failures are ordinary values: several of them, from alternatives tried at one place,
merge into the one that reached furthest.
-/

namespace Descent

/-- The sort of a failure: a plain one, a named expectation, or the end of the input. -/
inductive FailureKind where
  | failure
  | expectation
  | eof
deriving Repr, DecidableEq

namespace FailureKind

/-- The name of a kind. -/
def text : FailureKind → String
  | failure => "failure"
  | expectation => "expectation"
  | eof => "eof"

/-- The kind of a given name. -/
def ofText? (name : String) : Option FailureKind :=
  [failure, expectation, eof].find? fun kind => kind.text == name

end FailureKind

/-- Why and where a parser failed. `wasEof` tells whether more input could have helped. -/
structure Failure where
  position : Position
  messages : List String := []
  kind : FailureKind := .failure
  wasEof : Bool := false
deriving Repr, DecidableEq

namespace Failure

/-- The failure with other messages, at the same place and with the same hope of more input. -/
def withMessages (f : Failure) (messages : List String) (kind : FailureKind) : Failure :=
  { f with messages, kind }

/-- The first occurrence of each message, in order. -/
def distinctMessages : List String → List String
  | [] => []
  | message :: rest => message :: (distinctMessages rest).filter (· != message)

/-- Two failures at one place: the messages of both, the kind of the second, and the end of the
input if either met it. -/
def joined (first second : Failure) : Failure where
  position := second.position
  messages := distinctMessages (first.messages ++ second.messages)
  kind := second.kind
  wasEof := first.wasEof || second.wasEof

/-- The failure that stands for both. One without messages gives way to one with messages; then
the one further into the input wins, and at the same place both count. -/
def merge (first second : Failure) : Failure :=
  if first.messages.isEmpty && !second.messages.isEmpty then second
  else if second.messages.isEmpty && !first.messages.isEmpty then first
  else
    match first.position.order second.position with
    | .gt => first
    | .lt => second
    | .eq => joined first second

/-- The failure that stands for both of two possible ones. -/
def merge? : Option Failure → Option Failure → Option Failure
  | none, second => second
  | first, none => first
  | some first, some second => some (merge first second)

/-- Merge failures from left to right; gives the result after each one from the second on. -/
def mergesFrom (first : Option Failure) : List (Option Failure) → List (Option Failure)
  | [] => []
  | next :: rest =>
    let merged := merge? first next
    merged :: mergesFrom merged rest

/-- The merged failure after each one from the second on. -/
def merges : List (Option Failure) → List (Option Failure)
  | [] => []
  | first :: rest => mergesFrom first rest

/-- Whether two failures say the same, whatever the source is called. -/
def same (f g : Failure) : Bool :=
  f.position.samePlace g.position && f.messages == g.messages && f.kind == g.kind &&
    f.wasEof == g.wasEof

/-- Whether two possible failures say the same. None at all says the same only as none. -/
def same? : Option Failure → Option Failure → Bool
  | none, none => true
  | some f, some g => f.same g
  | _, _ => false

/-- The number of possible failures that say different things. -/
def countDistinct (failures : List (Option Failure)) : Nat :=
  (failures.foldl (fun seen f => if seen.any (same? f) then seen else f :: seen) []).length

/-- A failure as a reader sees it. -/
def text (f : Failure) : String :=
  "(" ++ f.position.text ++ ") " ++ "\n".intercalate f.messages

/-- The messages of a failure as a tuple of texts. -/
def writtenMessages : List String → String
  | [message] => "(" ++ Text.quote message ++ ",)"
  | messages => "(" ++ ", ".intercalate (messages.map Text.quote) ++ ")"

/-- A failure with all its fields. -/
def written (f : Failure) : String :=
  "ParseError(" ++ f.position.written ++ ", " ++ writtenMessages f.messages ++ ", " ++
    Text.quote f.kind.text ++ ", was_eof=" ++ (if f.wasEof then "True" else "False") ++ ")"

/-- No failure is an identity of merging on the left. -/
theorem merge?_none_left (f : Option Failure) : merge? none f = f := rfl

/-- No failure is an identity of merging on the right. -/
theorem merge?_none_right (f : Option Failure) : merge? f none = f := by
  cases f <;> rfl

/-- What a failure is merged with, there is a failure. -/
theorem exists_merge?_some (earlier : Option Failure) (f : Failure) :
    ∃ merged, merge? earlier (some f) = some merged := by
  cases earlier with
  | none => exact ⟨f, rfl⟩
  | some e => exact ⟨merge e f, rfl⟩

example : distinctMessages ["a", "b", "a"] = ["a", "b"] := by decide

end Failure
end Descent
