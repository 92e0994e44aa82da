import Descent.Operand
import Descent.Parse
import Descent.Parser.Numerals
import Descent.Value.Arithmetic

/-!
# Checked constructors

The constructors of parsers for operands that may not be parsers, and for numbers of
repetitions that may be missing, negative, fractions or in the wrong order. Each one makes its
checks in a fixed order, so that of two misuses always the same one is reported, and then is the
plain constructor.
-/

namespace Descent

namespace Checked

/-- An operand that may be left out. The null value leaves it out, and any one item will do. -/
def orAnyItem : Operand → Operand
  | .value .null => .parser Parser.token
  | operand => operand

/-- A least number of repetitions. One that is false asks for none. -/
def orZero (low : Value) : Value :=
  if low.isTrue then low else .int 0

/-- A greatest number of repetitions. The null value sets no limit. -/
def orInfinite : Value → Value
  | .null => .float Binary64.infinity
  | high => high

/-- The bounds between two numbers of repetitions. -/
def bounds (site : Site) (low high : Value) : Except Fault Bounds := do
  let least := orZero low
  let most := orInfinite high
  if ← Comparison.gt.holds least most then throw (.contract (.crossedBounds site))
  match Limit.ofNumber? least, Limit.ofNumber? most with
  | some lower, some upper => return .upTo upper lower
  | _, _ => throw .undefined

/-- All of some operands, of which there has to be one. -/
def all (site : Site) : List Operand → Except Fault (Parser × List Parser)
  | [] => .error (.contract (.noParsers site))
  | operand :: more => do
    let p ← operand.checked site
    let rest ← more.mapM (·.checked site)
    return (p, rest)

/-- A parser and then the one that its value chooses, which may turn out to be none. -/
def bind (operand : Operand) (next : Value → Except Fault Operand) : Except Fault Parser := do
  let p ← operand.checked .bind
  return p.bind fun v => Operand.chosen (next v)

/-- A failure of the kind that a value names. Only a text can be its message, which shows when it
is to fail. -/
def failing (message kind : Value) : Except Fault Parser := do
  let known ← FailureKind.ofValue kind
  match message with
  | .text s => return Parser.failing s known
  | _ => return { Parser.raising .undefined with name := "fail" }

/-- A name for what an operand expects. A value that is no text is a name as it is written. -/
def label (operand : Operand) (expected : Value) : Except Fault Parser := do
  let p ← operand.checked .label
  return { p.label expected.shown with name := "label " ++ expected.written }

/-- Some items of the input. A number that is not positive counts as one; with a fraction there
is nothing to take. -/
def token (count : Value) : Except Fault Parser := do
  if !count.isTrue then return Parser.token
  if ← Comparison.gt.holds count (.int 0) then
    match count.int? with
    | some n => return Parser.token n.toNat
    | none => return { Parser.raising .undefined with name := "token" }
  else return Parser.token

/-- A parser made when it is run. -/
def deferred (maker : String) (make : Unit → Except Fault Operand) : Parser :=
  Parser.deferred maker fun _ => Operand.chosen (make ())

/-- The function of the value of an operand. -/
def map (f : Value → Except Fault Value) (operand : Operand) : Except Fault Parser := do
  return (← operand.checked .bind).map f

/-- The value of an operand under a key. Whether the key can be one shows at the first value. -/
def tagged (operand : Operand) (key : Value) : Except Fault Parser := do
  let p ← operand.checked .bind
  return if key.isKey then p.tagged key else p.map fun _ => .error .undefined

/-- A look ahead with an operand. -/
def lookAhead (operand : Operand) : Except Fault Parser := do
  return (← operand.checked .lookAhead).lookAhead

/-- The value of an operand if it passes a test. -/
def satisfying (test : Value → Except Fault Bool) (operand : Operand) : Except Fault Parser := do
  return (← (orAnyItem operand).checked .bind).satisfying test

/-- The value of an operand if it does not pass a test. -/
def rejecting (test : Value → Except Fault Bool) (operand : Operand) : Except Fault Parser := do
  return (← (orAnyItem operand).checked .bind).rejecting test

/-- A record of the states around an operand. A value that is no text is a tag as it is written. -/
def traced (operand : Operand) (tag : Value) (level : Int) : Except Fault Parser := do
  let p ← operand.checked .trace
  return { p.traced tag.shown level with name := "trace " ++ tag.written }

/-- Operands in order. -/
def chain (operands : List Operand) : Except Fault Parser := do
  let (p, more) ← all .chain operands
  return Parser.chain p more

/-- The text in last place among the alternatives of a choice, and the alternatives without it. -/
def splitLabel (operands : List Operand) : List Operand × Option String :=
  match operands.getLast? with
  | some (.value (.text expected)) => (operands.dropLast, some expected)
  | _ => (operands, none)

/-- Alternatives. A text in last place says what they expect; an empty one says nothing. -/
def choice (operands : List Operand) : Except Fault Parser := do
  let (alternatives, expected) := splitLabel operands
  let (p, more) ← all .choice alternatives
  let either := Parser.choice p more
  match expected with
  | none => return either
  | some message => return if message.isEmpty then either else either.label message

/-- What an operand gives, or nothing. -/
def optional (operand : Operand) : Except Fault Parser :=
  choice [operand, .parser Parser.succeed]

/-- Truth if an operand fails. -/
def refusing (operand : Operand) : Except Fault Parser := do
  return (← operand.checked .refuse).refusing

/-- Operands in order, unless the guard would succeed. -/
def guarded (guard : Operand) (more : List Operand) : Except Fault Parser := do
  let absent ← refusing guard
  chain (.parser absent :: more)

/-- The values of operands in order. -/
def gather (operands : List Operand) : Except Fault Parser := do
  let (p, more) ← all .gather operands
  return Parser.gather p more

/-- The value of an operand that others have to follow. What follows is checked first. -/
def followedBy (operand : Operand) (more : List Operand) : Except Fault Parser := do
  let (next, later) ← all .chain more
  let p ← operand.checked .bind
  return p.followedBy next later

/-- The operators `>` and `<`: both in order, with the value of the right or of the left one. An
operand without operators leaves the work to the other one, which then comes first. Two values
are compared, and no parser comes of it. -/
def ordered (keepRight : Bool) (left right : Operand) : Except Fault Operand :=
  let inOrder := if keepRight then chain [left, right] else followedBy left [right]
  let reflected := if keepRight then followedBy right [left] else chain [right, left]
  match left, right with
  | .parser _, _ => inOrder.map .parser
  | _, .parser _ => reflected.map .parser
  | .value v, .value w =>
    let comparison : Comparison := if keepRight then .gt else .lt
    (comparison.holds v w).map fun holds => .value (.bool holds)
  | _, _ => .error .undefined

/-- The operator `|`. Its left side has to be a parser. -/
def alternative (left right : Operand) : Except Fault Parser :=
  match left with
  | .parser _ => choice [left, right]
  | _ => .error .undefined

/-- An operand repeated. -/
def collect (operand : Operand) (low high : Value) : Except Fault Parser := do
  let p ← operand.checked .collect
  return p.collect (← bounds .collect low high)

/-- An operand repeated a number of times; without a number, as often as it goes. -/
def exactly (operand : Operand) (count : Value) : Except Fault Parser :=
  collect operand count count

/-- The least number of repetitions when the first one is made apart. A number other than zero
asks for that one, even if it is negative. -/
def withFirst (low : Value) : Value :=
  if low.isTrue && Limit.ofNumber? low == some (.finite 0) then .int 1 else low

/-- One repetition fewer, if there is a number of them. -/
def oneFewer : Value → Except Fault Value
  | .null => .ok .null
  | v => v.minus (.int 1)

/-- An operand repeated with a separator. The bounds are checked before the operands, and these
only if anything is to be parsed; last come the bounds of what follows the first repetition. -/
def split (operand separator : Operand) (low high : Value) : Except Fault Parser := do
  let _ ← bounds .split low high
  if ← Comparison.lt.holds (orInfinite high) (.int 1) then return Parser.succeed (.list [])
  let between ← separator.checked .chain
  let p ← operand.checked .chain
  let _ ← bounds .collect (← oneFewer (if low.isTrue then low else .int 1)) (← oneFewer high)
  return p.split between (← bounds .split (withFirst low) high)

/-- An operand repeated, each time with a separator after it. -/
def splitEndStrict (operand separator : Operand) (low high : Value) : Except Fault Parser := do
  let ended ← followedBy operand [separator]
  collect (.parser ended) low high

/-- An operand repeated with a separator after it, which may be missing at the end. -/
def splitEnd (operand separator : Operand) (low high : Value) : Except Fault Parser := do
  let p ← operand.checked .splitEnd
  let ender ← separator.checked .splitEnd
  return p.splitEnd ender (← bounds .splitEnd low high)

/-- An operand between two others. What closes is checked first, what opens last. -/
def between (opening closing body : Operand) : Except Fault Parser := do
  let ended ← followedBy body [closing]
  chain [opening, .parser ended]

/-- An operand repeated and dropped. -/
def dropping (operand : Operand) : Except Fault Parser := do
  let repeated ← collect operand .null .null
  return Parser.chain repeated [Parser.succeed]

/-- The value of an operand if it lies in a range. -/
def inRange (first last : Value) (operand : Operand) (comparison : Comparison) :
    Except Fault Parser := do
  return Parser.inRange first last (← (orAnyItem operand).checked .bind) comparison

/-- Match the parts of a value after those already matched. -/
def spelling (admits : Value → Value → Except Fault Bool) (matched : List Value) :
    List Value → Script Parser
  | [] => do
    let joined ← Script.ofExcept (joinTexts matched.reverse)
    return Parser.succeed (.text joined)
  | expected :: rest => do
    let item ← Script.parse (Parser.satisfying (admits expected))
    spelling admits (item :: matched) rest

/-- Whether an item is an octet, regardless of case. An item never is one, but only texts and byte
strings have a case. -/
def admitsOctet (_expected : Value) : Value → Except Fault Bool
  | .text _ => .ok false
  | .bytes _ => .ok false
  | _ => .error .undefined

/-- A literal. Of a value that is no text the parts are matched one by one; that there are none
shows when they are to be matched. Only texts and byte strings have a case to disregard. -/
def literal (wanted : Value) (casing : Casing) : Except Fault Parser :=
  let spelled (admits : Value → Value → Except Fault Bool) : Parser :=
    let body :=
      match wanted.parts? with
      | some parts => spelling admits [] parts
      | none => .halt .undefined
    Parser.label (Parser.script "match_chars" body) (Parser.literalMessage wanted.shown)
  match wanted, casing with
  | .text s, _ => .ok (Parser.literal s casing)
  | _, .exact => .ok (spelled fun expected item => .ok (item.same expected))
  | .bytes _, .folded => .ok (spelled admitsOctet)
  | _, .folded => .error .undefined

/-- Any of some texts. -/
def oneOf (options : List String) (casing : Casing) : Except Fault Parser :=
  match options with
  | [] => .error (.contract (.noParsers .choice))
  | option :: more => .ok (Parser.oneOf option more casing)

/-- An operand where none of some texts comes next. -/
def noneOf (options : List String) (casing : Casing) (operand : Operand) : Except Fault Parser :=
  match options with
  | [] => .error (.contract (.noParsers .choice))
  | option :: more => do
    return Parser.noneOf option more casing (← (orAnyItem operand).checked .chain)

/-- The joined texts that an operand lists. -/
def textOf (operand : Operand) : Except Fault Parser := do
  return Parser.textOf (← operand.checked .bind)

/-- The joined texts of an operand repeated. -/
def text (operand : Operand) (low high : Value) : Except Fault Parser := do
  return Parser.textOf (← collect (orAnyItem operand) low high)

/-- The base whose digits are meant: a whole number, or any base if there is none. -/
def digitBase : Value → Except Fault Int
  | .null => .ok digitRow.length
  | base =>
    match base.int? with
    | some n => .ok n
    | none => .error .undefined

/-- A digit of a base, or of any base if there is none. -/
def digit (base : Value) : Except Fault Parser :=
  (digitBase base).map fun n => Parser.digit n

/-- A letter or a digit of a base, or of any base if there is none. -/
def alphanumeric (base : Value) : Except Fault Parser :=
  (digitBase base).map fun n => Parser.alphanumeric n

/-- A whole number in a base. Without one its digits can be collected, but not read. -/
def natural : Value → Except Fault Parser
  | .null => do
    let digits := Parser.text (← digit .null) (.atLeast 1)
    return digits.map fun _ => .error .undefined
  | base => (digitBase base).map fun n => Parser.natural n

/-- A whole number in a base that may have a sign. The base is looked at after the sign. -/
def integer (base : Value) : Parser :=
  Parser.signed <|
    match natural base with
    | .ok p => p
    | .error fault => .raising fault

/-- An operand with blanks around it. -/
def trim (operand : Operand) : Except Fault Parser := do
  return Parser.trim (← operand.checked .bind)

/-- An operand with blanks before it. -/
def trimLeft (operand : Operand) : Except Fault Parser := do
  return Parser.trimLeft (← operand.checked .chain)

/-- An operand with blanks after it. -/
def trimRight (operand : Operand) : Except Fault Parser := do
  return Parser.trimRight (← operand.checked .bind)

/-- Parse with an operand. It is looked at by whatever takes it first. -/
def parsing (operand : Operand) (delivery : Delivery) : Except Fault Parser :=
  if delivery.allowTrailing then .ok operand.applied
  else operand.checked .bind

end Checked
end Descent
