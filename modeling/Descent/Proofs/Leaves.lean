import Descent.Proofs.Built
import Descent.Parser.NumberWords

/-!
# Leaves built by constructors

Parsers of characters, texts, numerals and number words are combinations of primitive ones, and
so belong to the class of built parsers. None of them claims that the input has ended.
-/

namespace Descent.Built

variable {claimsEnd : Prop} {p : Parser}

/-! ## Characters and texts -/

theorem literal (wanted : String) (casing : Casing) :
    Built claimsEnd (Parser.literal wanted casing) :=
  sequential.literal wanted casing

/-- Every option of a choice between texts is a literal. -/
theorem literals (option : String) (more : List String) (casing : Casing) :
    Built claimsEnd
      (Parser.choice (Parser.literal option casing) (more.map (Parser.literal · casing))) := by
  apply choice
  intro q member
  rcases List.mem_cons.mp member with rfl | member
  · exact literal option casing
  · obtain ⟨wanted, _, rfl⟩ := List.mem_map.mp member
    exact literal wanted casing

theorem oneOf (option : String) (more : List String) (casing : Casing) :
    Built claimsEnd (Parser.oneOf option more casing) :=
  label _ (literals option more casing)

theorem noneOf (option : String) (more : List String) (casing : Casing)
    (built : Built claimsEnd p) : Built claimsEnd (Parser.noneOf option more casing p) :=
  label _ (chain (refusing (literals option more casing)) (List.forall_mem_singleton.mpr built))

theorem upperLetter : Built claimsEnd Parser.upperLetter :=
  label _ (inRange _ _ _ (token 1))

theorem lowerLetter : Built claimsEnd Parser.lowerLetter :=
  label _ (inRange _ _ _ (token 1))

theorem letter : Built claimsEnd Parser.letter :=
  label _ (either lowerLetter upperLetter)

theorem digit (base : Int) : Built claimsEnd (Parser.digit base) :=
  label _ (satisfying _ (token 1))

theorem alphanumeric (base : Int) : Built claimsEnd (Parser.alphanumeric base) :=
  label _ (either letter (digit base))

theorem space : Built claimsEnd Parser.space :=
  label _ (oneOf _ _ _)

theorem spaces : Built claimsEnd Parser.spaces := by
  refine label _ (chain space fun q member => ?_)
  rcases List.mem_cons.mp member with rfl | member
  · exact dropping space
  · exact List.mem_singleton.mp member ▸ succeed _

theorem textOf (built : Built claimsEnd p) : Built claimsEnd (Parser.textOf p) := by
  apply bind built
  intro v
  cases v.items? with
  | none => exact refusal _
  | some items =>
    dsimp only
    cases joinTexts items with
    | ok joined => exact succeed _
    | error fault => exact raising fault

theorem text (bounds : Bounds) (built : Built claimsEnd p) :
    Built claimsEnd (Parser.text p bounds) :=
  textOf (collect bounds built)

theorem trim (built : Built claimsEnd p) : Built claimsEnd (Parser.trim p) :=
  between (optional spaces) (optional spaces) built

theorem trimLeft (built : Built claimsEnd p) : Built claimsEnd (Parser.trimLeft p) :=
  chain (optional spaces) (List.forall_mem_singleton.mpr built)

theorem trimRight (built : Built claimsEnd p) : Built claimsEnd (Parser.trimRight p) :=
  endedBy built (optional spaces)

/-! ## Numerals -/

theorem natural (base : Int) (limit : Option Nat) :
    Built claimsEnd (Parser.natural base limit) :=
  map _ (text _ (digit base))

theorem sign : Built claimsEnd Parser.sign :=
  either (chain (literal _ _) (List.forall_mem_singleton.mpr (succeed _)))
    (chain (literal _ _) (List.forall_mem_singleton.mpr (succeed _)))

theorem signOrPlus : Built claimsEnd Parser.signOrPlus :=
  either sign (succeed _)

theorem signed (unsigned : Built claimsEnd p) : Built claimsEnd (Parser.signed p) := by
  refine script _ (Script.uses_bind (Script.uses_int signOrPlus) fun direction _ => ?_)
  exact Script.uses_bind (Script.uses_int unsigned) fun size _ => succeed _

theorem integer (base : Int) (limit : Option Nat) :
    Built claimsEnd (Parser.integer base limit) :=
  signed (natural base limit)

theorem realBy (convert : String → Except Fault Float) (limit : Option Nat) :
    Built claimsEnd (Parser.realBy convert limit) := by
  have power : Built claimsEnd (Parser.choice
      (Parser.chain (Parser.literal "e" .folded) [Parser.integer 10 limit])
      [Parser.succeed (.int 0)]) :=
    either (chain (literal _ _) (List.forall_mem_singleton.mpr (integer 10 limit))) (succeed _)
  refine script _ (Script.uses_bind (Script.uses_int signOrPlus) fun direction _ => ?_)
  apply Script.uses_bind (Script.uses_text (text _ (digit 10)))
  intro whole _
  apply Script.uses_bind (Script.uses_parse (optional (literal _ _)))
  intro point _
  -- The script goes on in one way whether there is a fraction or not.
  have ending : ∀ fraction : String, (if (whole.isEmpty && fraction.isEmpty) = true
      then pure Parser.failing
      else do
        let power ← Script.int (Parser.choice
          (Parser.chain (Parser.literal "e" .folded) [Parser.integer 10 limit])
          [Parser.succeed (.int 0)])
        let size ← Script.ofExcept (convert (Decimal.numeral whole fraction power))
        pure (Parser.succeed (.float (Parser.signedFloat direction size)))
      : Script Parser).Uses (Built claimsEnd) (Built claimsEnd) := by
    intro fraction
    by_cases missing : (whole.isEmpty && fraction.isEmpty) = true
    · rw [if_pos missing]
      exact refusal _
    · rw [if_neg missing]
      refine Script.uses_bind (Script.uses_int power) fun exponent _ => ?_
      exact Script.uses_bind (Script.uses_ofExcept _) fun _ _ => succeed _
  by_cases pointed : point.isTrue = true
  · dsimp only
    rw [if_pos pointed]
    exact Script.uses_bind (Script.uses_text (text _ (digit 10))) fun fraction _ => ending fraction
  · dsimp only
    rw [if_neg pointed]
    exact ending ""

theorem real (limit : Option Nat) : Built claimsEnd (Parser.real limit) := realBy readFloat limit

/-! ## Numbers in words -/

theorem word (words : List String) : Built claimsEnd (Parser.word words) := by
  unfold Parser.word
  cases Words.longestFirst words with
  | nil => exact refusal _
  | cons first more => exact oneOf first more .folded

theorem wordBreak : Built claimsEnd Parser.wordBreak :=
  either spaces (literal _ _)

theorem placedWord (words : List String) (number : Nat → Nat) :
    Built claimsEnd (Parser.placedWord words number) :=
  map _ (word words)

theorem oneToNine (form : NumberForm) : Built claimsEnd (Parser.oneToNine form) := by
  cases form <;> exact placedWord _ _

theorem upToNineteen (form : NumberForm) : Built claimsEnd (Parser.upToNineteen form) := by
  cases form <;> exact placedWord _ _

theorem tensAndOnes (form : NumberForm) : Built claimsEnd (Parser.tensAndOnes form) := by
  refine script _ (Script.uses_bind (Script.uses_text (word _)) fun name _ => ?_)
  refine Script.uses_bind (Script.uses_ofExcept _) fun ten _ => ?_
  refine Script.uses_bind (Script.uses_int ?_) fun one _ => succeed _
  exact either (chain wordBreak (List.forall_mem_singleton.mpr (oneToNine form))) (succeed _)

theorem upToNinetyNine (form : NumberForm) : Built claimsEnd (Parser.upToNinetyNine form) := by
  cases form with
  | cardinal => exact either (tensAndOnes _) (upToNineteen _)
  | ordinal =>
    apply choice
    intro q member
    rcases List.mem_cons.mp member with rfl | member
    · exact tensAndOnes _
    · rcases List.mem_cons.mp member with rfl | member
      · exact placedWord _ _
      · exact List.mem_singleton.mp member ▸ upToNineteen _

theorem smallerPart (form : NumberForm) (v : Value) :
    (Parser.smallerPart form v).Uses (Built claimsEnd) fun _ => True := by
  unfold Parser.smallerPart
  split
  · by_cases ordinal : form = .ordinal
    · rw [if_pos ordinal]
      exact Script.uses_bind (Script.uses_parse (literal _ _)) fun _ _ => trivial
    · rw [if_neg ordinal]
      exact trivial
  · split <;> exact trivial

theorem hundreds (form : NumberForm) : Built claimsEnd (Parser.hundreds form) := by
  have rest : Built claimsEnd (Parser.choice
      (Parser.chain Parser.wordBreak
        [(Parser.chain (Parser.literal "and") [Parser.wordBreak]).optional,
          Parser.upToNinetyNine form])
      [Parser.succeed .null]) := by
    refine either (chain wordBreak fun q member => ?_) (succeed _)
    rcases List.mem_cons.mp member with rfl | member
    · exact optional (chain (literal _ _) (List.forall_mem_singleton.mpr wordBreak))
    · exact List.mem_singleton.mp member ▸ upToNinetyNine form
  refine script _ (Script.uses_bind (Script.uses_int (oneToNine _)) fun count _ => ?_)
  apply Script.uses_bind (Script.uses_parse wordBreak)
  intro _ _
  apply Script.uses_bind (Script.uses_parse (literal _ _))
  intro _ _
  apply Script.uses_bind (Script.uses_parse rest)
  intro v _
  exact Script.uses_bind (smallerPart form v) fun small _ => succeed _

theorem upToThreeNines (form : NumberForm) : Built claimsEnd (Parser.upToThreeNines form) :=
  either (hundreds form) (upToNinetyNine form)

theorem bigNumber (form : NumberForm) {larger : Parser} (inner : Built claimsEnd larger) :
    Built claimsEnd (Parser.bigNumber form larger) := by
  have comma : Built claimsEnd (Parser.choice
      (Parser.chain (Parser.literal ",") [Parser.spaces]) [Parser.wordBreak]) :=
    either (chain (literal _ _) (List.forall_mem_singleton.mpr spaces)) wordBreak
  have lesser : Built claimsEnd (Parser.chain Parser.wordBreak
      [Parser.literal "and", Parser.wordBreak, Parser.upToThreeNines form]) := by
    apply chain wordBreak
    intro q member
    rcases List.mem_cons.mp member with rfl | member
    · exact literal _ _
    · rcases List.mem_cons.mp member with rfl | member
      · exact wordBreak
      · exact List.mem_singleton.mp member ▸ upToThreeNines form
  have rest : Built claimsEnd (Parser.choice
      (Parser.chain (Parser.choice
        (Parser.chain (Parser.literal ",") [Parser.spaces]) [Parser.wordBreak]) [larger])
      [Parser.chain Parser.wordBreak
        [Parser.literal "and", Parser.wordBreak, Parser.upToThreeNines form],
        Parser.succeed .null]) := by
    apply choice
    intro q member
    rcases List.mem_cons.mp member with rfl | member
    · exact chain comma (List.forall_mem_singleton.mpr inner)
    · rcases List.mem_cons.mp member with rfl | member
      · exact lesser
      · exact List.mem_singleton.mp member ▸ succeed _
  refine script _ (Script.uses_bind (Script.uses_int (upToThreeNines _)) fun count _ => ?_)
  apply Script.uses_bind (Script.uses_parse wordBreak)
  intro _ _
  apply Script.uses_bind (Script.uses_text (word _))
  intro name _
  apply Script.uses_bind (Script.uses_ofExcept _)
  intro power _
  apply Script.uses_bind (Script.uses_parse (satisfying _ rest))
  intro v _
  exact Script.uses_bind (smallerPart form v) fun small _ => succeed _

theorem numberWords (form : NumberForm) : Built claimsEnd (Parser.numberWords form) :=
  recursive fun _ inner => either (bigNumber form inner) (upToThreeNines form)

theorem cardinal : Built claimsEnd Parser.cardinal :=
  label _ (numberWords .cardinal)

theorem ordinal : Built claimsEnd Parser.ordinal :=
  label _ (numberWords .ordinal)

theorem ordinalSuffix (n : Int) : Built claimsEnd (Parser.ordinalSuffix n) := by
  unfold Parser.ordinalSuffix
  split
  · exact literal _ _
  · split
    · exact literal _ _
    · split
      · exact oneOf _ _ _
      · split
        · exact oneOf _ _ _
        · exact literal _ _

theorem shortOrdinal (limit : Option Nat) : Built claimsEnd (Parser.shortOrdinal limit) := by
  refine script _ (Script.uses_bind (Script.uses_int (natural 10 limit)) fun n _ => ?_)
  exact Script.uses_bind (Script.uses_parse (ordinalSuffix n)) fun _ _ => succeed _

theorem looseOrdinal (limit : Option Nat) : Built claimsEnd (Parser.looseOrdinal limit) :=
  endedBy (integer 10 limit) (oneOf _ _ _)

end Descent.Built
