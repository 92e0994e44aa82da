import Descent.Parser.Numerals
import Descent.Parser.Recursion

/-!
# Numbers in words

English number words up to the tredecillions, as cardinals or as ordinals, and numerals with an
ordinal suffix. A number is read from its large units down; in an ordinal only the last word is
one. Where no smaller part follows, an ordinal takes its suffix from a hundred or a large unit.
-/

namespace Descent

namespace Words

/-- The numbers from one to nine. -/
def ones : List String :=
  ["one", "two", "three", "four", "five", "six", "seven", "eight", "nine"]

/-- The numbers from zero to nineteen. -/
def teens : List String :=
  ["zero", "one", "two", "three", "four", "five", "six", "seven", "eight", "nine", "ten",
   "eleven", "twelve", "thirteen", "fourteen", "fifteen", "sixteen", "seventeen", "eighteen",
   "nineteen"]

/-- The tens from twenty on. -/
def tens : List String :=
  ["twenty", "thirty", "forty", "fifty", "sixty", "seventy", "eighty", "ninety"]

/-- The powers of a thousand from the first on. -/
def units : List String :=
  ["thousand", "million", "billion", "trillion", "quadrillion", "quintillion", "sextillion",
   "septillion", "octillion", "nonillion", "decillion", "undecillion", "duodecillion",
   "tredecillion"]

/-- The ordinals from first to ninth. -/
def ordinalOnes : List String :=
  ["first", "second", "third", "fourth", "fifth", "sixth", "seventh", "eighth", "ninth"]

/-- The ordinals from zero to nineteen. -/
def ordinalTeens : List String :=
  ["zeroeth", "first", "second", "third", "fourth", "fifth", "sixth", "seventh", "eighth",
   "ninth", "tenth", "eleventh", "twelfth", "thirteenth", "fourteenth", "fifteenth",
   "sixteenth", "seventeenth", "eighteenth", "nineteenth"]

/-- The ordinals of the tens. -/
def ordinalTens : List String :=
  ["twentieth", "thirtieth", "fortieth", "fiftieth", "sixtieth", "seventieth", "eightieth",
   "ninetieth"]

/-- Insert a word before the first that is shorter. -/
def insertLonger (word : String) : List String → List String
  | [] => [word]
  | next :: rest =>
    if word.length < next.length then next :: insertLonger word rest else word :: next :: rest

/-- Longer words first, so that a word is tried before those it starts with. -/
def longestFirst (words : List String) : List String :=
  words.foldr insertLonger []

/-- The place of a matched word in its list, whatever its case. A word that is not in the list
has none. -/
def place (words : List String) (word : String) : Except Fault Nat :=
  match words.idxOf? (Text.lowercase word) with
  | some n => .ok n
  | none => .error .undefined

end Words

/-- Whether a number word names how many or which one. -/
inductive NumberForm where
  | cardinal
  | ordinal
deriving Repr, DecidableEq

namespace Parser

open Words

/-- Any of some words, in either case. -/
def word (words : List String) : Parser :=
  match longestFirst words with
  | [] => failing
  | first :: more => oneOf first more .folded

/-- What stands between two number words: blanks or a hyphen. -/
def wordBreak : Parser :=
  choice spaces [literal "-"]

/-- A word of a list, as a number made from its place. -/
def placedWord (words : List String) (number : Nat → Nat) : Parser :=
  (word words).map fun v =>
    match v with
    | .text s => (place words s).map fun n => .int (number n)
    | _ => .error .undefined

/-- The numbers from one to nine in words. -/
def oneToNine : NumberForm → Parser
  | .cardinal => placedWord ones (· + 1)
  | .ordinal => placedWord ordinalOnes (· + 1)

/-- The numbers from zero to nineteen in words. -/
def upToNineteen : NumberForm → Parser
  | .cardinal => placedWord teens id
  | .ordinal => placedWord ordinalTeens id

/-- A word for a multiple of ten, with or without ones. -/
def tensAndOnes (form : NumberForm) : Parser :=
  script "tens_and_ones" do
    let name ← Script.text (word tens)
    let ten ← Script.ofExcept (place tens name)
    let one ← Script.int (choice (chain wordBreak [oneToNine form]) [succeed (.int 0)])
    return succeed (.int ((ten + 2) * 10 + one))

/-- The numbers below a hundred in words. -/
def upToNinetyNine (form : NumberForm) : Parser :=
  match form with
  | .cardinal => choice (tensAndOnes form) [upToNineteen form]
  | .ordinal =>
    choice (tensAndOnes form)
      [placedWord ordinalTens fun n => (n + 2) * 10, upToNineteen form]

/-- The number of a smaller part. Where there is none it is zero, and an ordinal has to end
here. -/
def smallerPart (form : NumberForm) : Value → Script Int
  | .null => do
    if form = .ordinal then
      let _ ← Script.parse (literal "th")
    return 0
  | v =>
    match v.int? with
    | some n => return n
    | none => .halt .undefined

/-- The hundreds, with what may follow them. -/
def hundreds (form : NumberForm) : Parser :=
  script "hundreds" do
    let count ← Script.int (oneToNine .cardinal)
    let _ ← Script.parse wordBreak
    let _ ← Script.parse (literal "hundred")
    let rest ← Script.parse
      (choice
        (chain wordBreak
          [optional (chain (literal "and") [wordBreak]), upToNinetyNine form])
        [succeed .null])
    let small ← smallerPart form rest
    return succeed (.int (count * 100 + small))

/-- The numbers below a thousand in words. -/
def upToThreeNines (form : NumberForm) : Parser :=
  choice (hundreds form) [upToNinetyNine form]

/-- Whether the part after a large unit is smaller than the unit. -/
def fitsBelow (unit : Int) : Value → Except Fault Bool
  | .null => .ok true
  | v => Comparison.lt.holds v (.int unit)

/-- A large unit, how many of it, and what follows, which `larger` reads. -/
def bigNumber (form : NumberForm) (larger : Parser) : Parser :=
  script "big_number" do
    let count ← Script.int (upToThreeNines .cardinal)
    let _ ← Script.parse wordBreak
    let name ← Script.text (word units)
    let power ← Script.ofExcept (place units name)
    let unit : Int := Binary64.tenTo ((power + 1) * 3)
    let rest ← Script.parse
      (satisfying (fitsBelow unit)
        (choice
          (chain (choice (chain (literal ",") [spaces]) [wordBreak]) [larger])
          [chain wordBreak [literal "and", wordBreak, upToThreeNines form],
           succeed .null]))
    let small ← smallerPart form rest
    return succeed (.int (count * unit + small))

/-- A number in words, given the parser of what may follow a large unit. -/
def numberWordsOver (form : NumberForm) (larger : Parser) : Parser :=
  choice (bigNumber form larger) [upToThreeNines form]

/-- A number in words of any size. -/
def numberWords (form : NumberForm) : Parser := recursive (numberWordsOver form)

/-- A cardinal number in words. -/
def cardinal : Parser :=
  label (numberWords .cardinal) "cardinal"

/-- An ordinal number in words. -/
def ordinal : Parser :=
  label (numberWords .ordinal) "ordinal"

/-- The suffix that a number takes as an ordinal. -/
def ordinalSuffix (n : Int) : Parser :=
  if n % 100 = 11 ∨ n % 100 = 12 ∨ n % 100 = 13 then literal "th"
  else if n % 10 = 1 then literal "st"
  else if n % 10 = 2 then oneOf "nd" ["d"]
  else if n % 10 = 3 then oneOf "rd" ["d"]
  else literal "th"

/-- A numeral with the suffix that belongs to it. -/
def shortOrdinal (limit : Option Nat := none) : Parser :=
  script "suffixed" do
    let n ← Script.int (natural 10 limit)
    let _ ← Script.parse (ordinalSuffix n)
    return succeed (.int n)

/-- A numeral with any suffix of an ordinal. -/
def looseOrdinal (limit : Option Nat := none) : Parser :=
  (integer 10 limit).followedBy (oneOf "th" ["st", "nd", "rd"])

end Parser

example : Words.longestFirst ["one", "three", "two", "seven"] =
    ["three", "seven", "one", "two"] := by
  decide

end Descent
