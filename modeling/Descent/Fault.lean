import Descent.Failure
import Descent.Value.Written

/-!
# Faults

A failure is the input's; a fault is somebody else's: a grammar that is put together wrongly, a
function that cannot handle its value, bytes that are no text, a handle used after its end. A
fault stops the whole run. Each one is kept as its cause, and `Fault.message` words it.
-/

namespace Descent

/-- The constructor that a misuse is blamed on. -/
inductive Site where
  | bind
  | label
  | lookAhead
  | trace
  | chain
  | choice
  | refuse
  | gather
  | collect
  | split
  | splitEnd
deriving Repr, DecidableEq

/-- The name a constructor goes by in messages. -/
def Site.text : Site → String
  | bind => "bind()"
  | label => "label()"
  | lookAhead => "look_ahead()"
  | trace => "trace()"
  | chain => "and_()"
  | choice => "or_()"
  | refuse => "not_()"
  | gather => "join()"
  | collect => "collect()"
  | split => "split()"
  | splitEnd => "split_end()"

/-- The ways to break the contract between parsers and the constructors that use them. -/
inductive Violation where
  /-- A value stands where a parser is expected; found by a constructor, or at a run. -/
  | strayParser (site : Option Site) (given : Value)
  /-- A parser was started on something that is not a state. -/
  | strayState
  /-- A parser left something that is not a state. -/
  | noState
  /-- A constructor that needs at least one parser got none. -/
  | noParsers (site : Site)
  /-- The least number of repetitions is above the greatest. -/
  | crossedBounds (site : Site)
  /-- A repetition without end matched without consuming anything. -/
  | stalled (site : Site)
  /-- A script builder that cannot be called. -/
  | strayBuilder (given : Value)
  /-- A script builder that asks for an argument. -/
  | builderArgument
  /-- A step of a script that is not a parser. -/
  | strayStep (given : Value)
  /-- A script that ended with something other than a parser. -/
  | strayResult (given : Value)
  /-- A script whose last parser left something that is not a state. -/
  | noResultState
  /-- A deferred parser without a function that makes it. -/
  | strayMaker (given : Value)

/-- The wording of a broken contract. -/
def Violation.message : Violation → String
  | strayParser none given =>
    "Parser needs to be a function, but got " ++ given.written ++ " instead"
  | strayParser (some site) given =>
    site.text ++ ": parser needs to be a function, but got " ++ given.written ++ " instead"
  | strayState => "Expected state to be a State"
  | noState => "Parsers must return a State object"
  | noParsers site => site.text ++ " requires at least one parser"
  | crossedBounds site => site.text ++ ": min must be less than or equal to max"
  | stalled .splitEnd =>
    Site.splitEnd.text ++ ": applied parsers succeeded without consuming input"
  | stalled site => site.text ++ ": applied parser succeeded without consuming input"
  | strayBuilder given => "sequence() expects a function, got " ++ given.written
  | builderArgument => "sequence() builder must take no arguments, got <function>"
  | strayStep given => "sequence() can only yield parsers, got " ++ given.written
  | strayResult given => "sequence function must return a parser, got " ++ given.written
  | noResultState => "sequence function must return a parser"
  | strayMaker given => "delay() expects a callable, got " ++ given.written

/-- The octets that an encoding refused: from `start` up to `stop` in what was being decoded. -/
structure Undecodable where
  encoding : String
  octet : UInt8
  start : Nat
  stop : Nat
  reason : String

/-- The wording of a decoding error. A single octet is shown, several are only counted. -/
def Undecodable.message (u : Undecodable) : String :=
  let place :=
    if u.stop = u.start + 1 then
      "byte 0x" ++ String.ofList (Text.hexDigits 2 u.octet.toNat) ++ " in position " ++
        toString u.start
    else "bytes in position " ++ toString u.start ++ "-" ++ toString (u.stop - 1)
  "'" ++ u.encoding ++ "' codec can't decode " ++ place ++ ": " ++ u.reason

/-- How many characters of a refused numeral a message shows, its quotes included. -/
def shownNumeralLength : Nat := 200

/-- What keeps a row of digits from being a numeral. -/
inductive NumeralFlaw where
  /-- There is something among them that is no digit of the base. -/
  | stray (digits : String)
  /-- They are more than the runtime converts. -/
  | long (most count : Nat)

/-- The wording of a refused numeral, of which a part is shown where digits are strange. -/
def NumeralFlaw.message (base : Int) : NumeralFlaw → String
  | stray digits =>
    "invalid literal for int() with base " ++ toString base ++ ": " ++
      Text.quoteUpTo shownNumeralLength digits
  | long most count =>
    "Exceeds the limit (" ++ toString most ++ " digits) for integer string conversion: " ++
      "value has " ++ toString count ++
      " digits; use sys.set_int_max_str_digits() to increase the limit"

/-- What stops a run. -/
inductive Fault where
  /-- A grammar broke the contract of a constructor. -/
  | contract (violation : Violation)
  /-- The input was refused, and the caller asked for that to be raised. -/
  | rejected (failure : Failure)
  /-- A handle was used after its end. -/
  | handleClosed
  /-- A failure kind was asked for that does not exist. -/
  | unknownKind (given : Value)
  /-- A row of digits is no numeral in its base, or too long a one. -/
  | badNumeral (base : Int) (flaw : NumeralFlaw)
  /-- Numerals have no such base. -/
  | badBase
  /-- A byte string is no text in its encoding. -/
  | undecodable (octets : Undecodable)
  /-- There is no encoding of that name. -/
  | unknownEncoding (name : String)
  /-- An error that the caller reported. -/
  | reported (text : String)
  /-- An error that a callback raised. -/
  | callback (text : String)
  /-- Something other than texts was to be joined to a text. -/
  | notTexts
  /-- A function was applied to values it is not defined on. -/
  | undefined
  /-- A rule refers to itself without end. -/
  | endless

/-- The wording of a fault, if it has one. -/
def Fault.message : Fault → Option String
  | contract violation => some violation.message
  | rejected failure => some failure.text
  | handleClosed => some "handle closed"
  | unknownKind given => some (given.written ++ " is not a valid ErrorKind")
  | badNumeral base flaw => some (flaw.message base)
  | badBase => some "int() base must be >= 2 and <= 36, or 0"
  | undecodable octets => some octets.message
  | unknownEncoding name => some ("unknown encoding: " ++ name)
  | reported text => some text
  | callback text => some text
  | notTexts => none
  | undefined => none
  | endless => some "maximum recursion depth exceeded"

/-- The kind of failure that a value names. -/
def FailureKind.ofValue : Value → Except Fault FailureKind
  | .text name =>
    match ofText? name with
    | some kind => .ok kind
    | none => .error (.unknownKind (.text name))
  | given => .error (.unknownKind given)

/-- A failure from its parts, the kind given by a value that names it. -/
def Failure.ofParts (position : Position) (messages : List String) (kind : Value)
    (wasEof : Bool) : Except Fault Failure := do
  return ⟨position, messages, ← FailureKind.ofValue kind, wasEof⟩

/-- The failure with other messages and the kind that a value names. -/
def Failure.reworded (f : Failure) (messages : List String) (kind : Value) :
    Except Fault Failure :=
  Failure.ofParts f.position messages kind f.wasEof

end Descent
