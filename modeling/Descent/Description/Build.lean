import Descent.Description.Tree
import Descent.Grammar.Csv
import Descent.Grammar.Json
import Descent.Grammar.SExp
import Descent.Parser.NumberWords

/-!
# Building described grammars

Building goes from left to right and stops at the first fault. What depends on a value, the
continuation of a bind, the steps of a script, a deferred parser, is built when that value is
there, and each time anew. A named rule is built when it is run; rules may refer to each other
to a fixed depth, beyond which they are taken to have no end.
-/

namespace Descent.Description

/-- What a name stands for in an environment made of its arguments. -/
abbrev Resolver := String → Environment → Except Fault Operand

/-- The texts that an expression denotes: the items of a list, or the characters of a text. -/
def evalOptions (env : Environment) (e : Expression) : Except Fault (List String) := do
  match (← e.eval env).parts?.bind (·.mapM Value.text?) with
  | some texts => return texts
  | none => throw .undefined

/-- A test of a value by the truth of an expression. -/
def evalTest (env : Environment) (var : String) (e : Expression) (v : Value) :
    Except Fault Bool := do
  return (← e.eval ((var, v) :: env)).isTrue

/-- A function that succeeds with something it reads off the state. -/
def reading (f : State → Value) : Operand :=
  .function fun s => pure (some (s.succeed (f s)))

/-- The operand of a node without parsers. -/
def Leaf.build (resolve : Resolver) (env : Environment) : Leaf → Except Fault Operand
  | value v => do return .parser (Parser.succeed (← v.eval env))
  | token count => do return .parser (← Checked.token (← count.eval env))
  | atEnd => return .parser Parser.atEnd
  | failing message kind => do
    return .parser (← Checked.failing (← message.eval env) (← kind.eval env))
  | strayMaker v => do throw (.contract (.strayMaker (← v.eval env)))
  | rule name args => do
    let bound ← args.mapM fun arg => do return (arg.1, ← arg.2.eval env)
    return .parser (Checked.deferred "ref" fun _ => resolve name bound)
  | literal wanted casing => do
    return .parser (← Checked.literal (← wanted.eval env) casing)
  | oneOf options casing => do
    return .parser (← Checked.oneOf (← evalOptions env options) casing)
  | upperLetter => return .parser Parser.upperLetter
  | lowerLetter => return .parser Parser.lowerLetter
  | letter => return .parser Parser.letter
  | space => return .parser Parser.space
  | spaces => return .parser Parser.spaces
  | digit base => do return .parser (← Checked.digit (← base.eval env))
  | alphanumeric base => do return .parser (← Checked.alphanumeric (← base.eval env))
  | natural base => do return .parser (← Checked.natural (← base.eval env))
  | sign => return .parser Parser.sign
  | integer base => do return .parser (Checked.integer (← base.eval env))
  | real => return .parser Parser.real
  | cardinal => return .parser Parser.cardinal
  | ordinal => return .parser Parser.ordinal
  | shortOrdinal strict =>
    return .parser (if strict then Parser.shortOrdinal else Parser.looseOrdinal)
  | json => return .parser Grammar.Json.value
  | csv => return .parser Grammar.Csv.table
  | csvLine => return .parser Grammar.Csv.line
  | csvLineEnd => return .parser Grammar.Csv.lineEnd
  | sexp => return .parser Grammar.SExp.expression
  | strayBuilder v => throw (.contract (.strayBuilder v))
  | builderArgument => throw (.contract .builderArgument)
  | mark tag => do
    let given ← tag.eval env
    return .function fun s => do
      Run.note (.mark (.list [given, .int s.offset]))
      return some s
  | userState => return reading (·.userState)
  | place => return reading fun s => .tuple [.int s.position.line, .int s.position.column]
  | offset => return reading fun s => .int s.offset
  | remaining => return reading (·.remaining.toValue)
  | setUserState v => do
    let given ← v.eval env
    return .function fun s => pure (some { s with userState := given })
  | strayFunction => return .function fun _ => pure none
  | stray v => do return .value (← v.eval env)

/-- The parser of a node with one parser. -/
def Unary.build (env : Environment) (q : Operand) : Unary → Except Fault Parser
  | label expected => do Checked.label q (← expected.eval env)
  | map var e => Checked.map (fun v => e.eval ((var, v) :: env)) q
  | tagged key => do Checked.tagged q (← key.eval env)
  | lookAhead => Checked.lookAhead q
  | satisfying var test => Checked.satisfying (evalTest env var test) q
  | rejecting var test => Checked.rejecting (evalTest env var test) q
  | traced tag level => do Checked.traced q (← tag.eval env) level
  | optional => Checked.optional q
  | refusing => Checked.refusing q
  | collect repeats => do
    Checked.collect q (← repeats.least.eval env) (← repeats.most.eval env)
  | exactly count => do Checked.exactly q (← count.eval env)
  | dropping => Checked.dropping q
  | inRange first last comparison => do
    Checked.inRange (← first.eval env) (← last.eval env) q comparison
  | noneOf options casing => do Checked.noneOf (← evalOptions env options) casing q
  | textOf => Checked.textOf q
  | text repeats => do
    Checked.text q (← repeats.least.eval env) (← repeats.most.eval env)
  | trim => Checked.trim q
  | trimLeft => Checked.trimLeft q
  | trimRight => Checked.trimRight q
  | receiver =>
    match q with
    | .parser p => .ok p
    | _ => .error .undefined

/-- The operand of a node with two parsers. -/
def Binary.build (env : Environment) (left right : Operand) : Binary → Except Fault Operand
  | ordered keepRight => Checked.ordered keepRight left right
  | alternative => do return .parser (← Checked.alternative left right)
  | split repeats => do
    let low ← repeats.least.eval env
    let high ← repeats.most.eval env
    return .parser (← Checked.split left right low high)
  | splitEnd strict repeats => do
    let low ← repeats.least.eval env
    let high ← repeats.most.eval env
    if strict then return .parser (← Checked.splitEndStrict left right low high)
    else return .parser (← Checked.splitEnd left right low high)

/-- The parser of a node with any number of parsers. What a choice expects is its last operand,
whatever it is. -/
def Variadic.build (env : Environment) (operands : List Operand) : Variadic → Except Fault Parser
  | chain => Checked.chain operands
  | choice none => Checked.choice operands
  | choice (some expected) => do
    Checked.choice (operands ++ [.value (← expected.eval env)])
  | gather => Checked.gather operands

/-- The parser of a node with one parser and others. -/
def Headed.build (q : Operand) (more : List Operand) : Headed → Except Fault Parser
  | followedBy => Checked.followedBy q more
  | guarded => Checked.guarded q more

/-- The name of a script that a description holds. -/
def scriptName : String := "builder"

/-- The name of the function that makes a deferred parser. -/
def makerName : String := "<lambda>"

/-- An environment with one more variable, if that has a name. -/
def bound (var : Option String) (v : Value) (env : Environment) : Environment :=
  match var with
  | some name => (name, v) :: env
  | none => env

/-- The script that ends with what was built. -/
def ended : Except Fault Operand → Script Parser
  | .ok operand => operand.ending
  | .error fault => .halt fault

mutual

/-- The operand that a description stands for. -/
def build (resolve : Resolver) (env : Environment) : Description → Except Fault Operand
  | .leaf node => node.build resolve env
  | .unary node q => do
    let operand ← build resolve env q
    return .parser (← node.build env operand)
  | .binary node left right => do
    let first ← build resolve env left
    let second ← build resolve env right
    node.build env first second
  | .between opening closing body => do
    let first ← build resolve env opening
    let last ← build resolve env closing
    let middle ← build resolve env body
    return .parser (← Checked.between first last middle)
  | .variadic node qs => do
    let operands ← buildAll resolve env qs
    return .parser (← node.build env operands)
  | .headed node q more => do
    let first ← build resolve env q
    let others ← buildAll resolve env more
    return .parser (← node.build first others)
  | .bind q var next => do
    let operand ← build resolve env q
    return .parser
      (← Checked.bind operand fun v => build resolve ((var, v) :: env) next)
  | .deferred q => return .parser (Checked.deferred makerName fun _ => build resolve env q)
  | .conditional test yes no => do
    if (← test.eval env).isTrue then build resolve env yes else build resolve env no
  | .plainScript q =>
    return .parser (Parser.script scriptName (ended (build resolve env q)))
  | .script steps => return .parser (Parser.script scriptName (buildSteps resolve env steps))

/-- The operands of a row of descriptions. -/
def buildAll (resolve : Resolver) (env : Environment) :
    List Description → Except Fault (List Operand)
  | [] => .ok []
  | q :: rest => do
    let operand ← build resolve env q
    return operand :: (← buildAll resolve env rest)

/-- The script of described steps. -/
def buildSteps (resolve : Resolver) (env : Environment) : Steps → Script Parser
  | .finish result => ended (build resolve env result)
  | .run q var rest =>
    match build resolve env q with
    | .error fault => .halt fault
    | .ok operand => operand.stepped >>= fun v => buildSteps resolve (bound var v env) rest
  | .mark e rest =>
    match e.eval env with
    | .error fault => .halt fault
    | .ok v => .note (.mark v) (buildSteps resolve env rest)
  | .returnIf test result rest =>
    match test.eval env with
    | .error fault => .halt fault
    | .ok v =>
      if v.isTrue then ended (build resolve env result) else buildSteps resolve env rest

end

/-- How deep rules may refer to rules. -/
def ruleDepth : Nat := 100000

/-- What a rule name stands for, to a given depth of references. -/
def resolveIn (rules : Rules) : Nat → Resolver
  | 0, _, _ => .error .endless
  | depth + 1, name, env =>
    match rules.lookup name with
    | some rule => build (resolveIn rules depth) env rule
    | none => .error .undefined

/-- The operand of a description whose rules are given. -/
def operand (rules : Rules) (description : Description) : Except Fault Operand :=
  build (resolveIn rules ruleDepth) [] description

end Descent.Description
