import Descent.Proofs.Spelling

/-!
# Literals without regard to case

A folded literal folds the wanted text as a whole and the characters of the input one by one. Most
texts come to the same in both ways. Two things make a difference: the dotted capital I becomes two
code points, neither of which is its own small form alone, and a capital sigma that ends a word
becomes the final small sigma, which no single capital sigma becomes.

What a text folds to is therefore met by the text itself just if it has neither of the two in it.
Any other text is refused by all literals that fold to the same, the literal of itself among them.
-/

namespace Descent

/-- Each of the characters that follow `before` stands for its own small form, as it does alone:
none is the dotted capital I, and no capital sigma is final. The earlier characters are given
nearest first. -/
def FoldsSingly (before : List Char) : List Char → Prop
  | [] => True
  | c :: rest =>
    c ≠ 'İ' ∧ (c = 'Σ' → Text.meetsCased before = true → Text.meetsCased rest = true) ∧
      FoldsSingly (c :: before) rest

instance decidableFoldsSingly (before : List Char) :
    (chars : List Char) → Decidable (FoldsSingly before chars)
  | [] => isTrue trivial
  | c :: rest =>
    have := decidableFoldsSingly (c :: before) rest
    inferInstanceAs (Decidable (_ ∧ _ ∧ _))

variable {whole : Array Char} {before chars taken rest : List Char} {c : Char} {s t : String}

/-! ## Single characters -/

namespace Text

/-- Where a character folds as it does alone, its small form comes first. -/
theorem foldAfter_cons_singly (plain : c ≠ 'İ')
    (inside : c = 'Σ' → meetsCased before = true → meetsCased rest = true) :
    ∃ small, foldChar c = [small] ∧
      foldAfter before (c :: rest) = small :: foldAfter (c :: before) rest := by
  by_cases sigma : c = 'Σ'
  · subst sigma
    have middle : ¬ (meetsCased before && !meetsCased rest) = true := by
      simpa using inside rfl
    refine ⟨'σ', by decide, ?_⟩
    simp [foldAfter, middle]
  · obtain ⟨small, folds⟩ := exists_foldChar_eq c plain
    refine ⟨small, folds, ?_⟩
    simp [foldAfter, sigma, folds]

end Text

/-! ## Texts -/

/-- What folds one character at a time is spelled by itself. -/
theorem FoldsSingly.spells (singly : FoldsSingly before chars) :
    Casing.folded.Spells (Text.foldAfter before chars) chars := by
  induction chars generalizing before with
  | nil => exact .nil
  | cons c rest inductionHypothesis =>
    obtain ⟨plain, inside, others⟩ := singly
    obtain ⟨small, folds, first⟩ := Text.foldAfter_cons_singly plain inside
    rw [first]
    exact .cons (Casing.takes_folded_eq.mpr folds) (inductionHypothesis others)

/-- What is spelled at the beginning of a text is so character by character. -/
theorem Casing.Spells.uncons {casing : Casing} {w : Char} {wanted : List Char}
    (spells : casing.Spells (w :: wanted) taken) (begins : taken <+: c :: rest) :
    casing.takes w c = true ∧ ∃ later, casing.Spells wanted later ∧ later <+: rest := by
  cases spells with
  | cons first others =>
    obtain ⟨same, begins⟩ := List.cons_prefix_cons.mp begins
    exact ⟨same ▸ first, _, others, begins⟩

/-- If a part of a text comes first in it and what spells the small form of that part does too, then
the part folds one character at a time. A dotted capital I or a final sigma does not spell the first
character of what it becomes. -/
theorem foldsSingly_of_spells (spells : Casing.folded.Spells (Text.foldAfter before chars) taken)
    (begins : taken <+: chars ++ rest) : FoldsSingly before chars := by
  induction chars generalizing before taken with
  | nil => trivial
  | cons c chars inductionHypothesis =>
    have plain : c ≠ 'İ' := by
      rintro rfl
      have first : Text.foldAfter before ('İ' :: chars) =
          'i' :: '\u0307' :: Text.foldAfter ('İ' :: before) chars := rfl
      rw [first] at spells
      have taken_dotted : Casing.folded.takes 'i' 'İ' = true := (spells.uncons begins).1
      exact absurd taken_dotted (by decide)
    have inside : c = 'Σ' → Text.meetsCased before = true → Text.meetsCased chars = true := by
      rintro rfl behind
      by_contra ends
      have first : Text.foldAfter before ('Σ' :: chars) =
          'ς' :: Text.foldAfter ('Σ' :: before) chars := by
        simp [Text.foldAfter, behind, ends]
      rw [first] at spells
      have taken_final : Casing.folded.takes 'ς' 'Σ' = true := (spells.uncons begins).1
      exact absurd taken_final (by decide)
    obtain ⟨small, _, first⟩ := Text.foldAfter_cons_singly plain inside
    rw [first] at spells
    obtain ⟨_, later, others, onwards⟩ := spells.uncons begins
    exact ⟨plain, inside, inductionHypothesis others onwards⟩

/-- A literal without regard to case meets what folds to the same as the wanted text, if that folds
one character at a time: it takes all of it, whatever follows, and gives it as it stands in the
input. Otherwise the literal refuses it. In particular this decides for each text whether the
literal of the text itself meets it. -/
theorem folded_literal_meets (s t : String) (same : Text.lowercase t = Text.lowercase s)
    (whole : Array Char) (rest : List Char) :
    (FoldsSingly [] t.toList →
      (Parser.literal s .folded).Reads whole (t.toList ++ rest) (.text t) rest) ∧
    (¬ FoldsSingly [] t.toList →
      (Parser.literal s .folded).Refuses whole (t.toList ++ rest)) := by
  have wanted : (Casing.folded.target s).toList = Text.foldAfter [] t.toList := by
    have folded : Casing.folded.target s = Text.lowercase t := same.symm
    rw [folded, Text.lowercase, String.toList_ofList]
  constructor
  · intro singly
    have spells : Casing.folded.Spells (Casing.folded.target s).toList t.toList := by
      rw [wanted]
      exact singly.spells
    have reads : (Parser.literal s .folded).Reads whole (t.toList ++ rest)
        (.text (String.ofList t.toList)) rest := Parser.reads_spelled spells rest
    rwa [String.ofList_toList] at reads
  · intro other
    apply Parser.refuses_spelled
    intro taken left split spells
    rw [wanted] at spells
    exact other (foldsSingly_of_spells spells ⟨left, split.symm⟩)

example : ¬ FoldsSingly [] ['İ'] ∧ ¬ FoldsSingly [] ['Α', 'Σ'] := by decide

/-- Letters in either case are met, Greek ones among them. -/
theorem folded_literal_meets_greek :
    Text.lowercase "ΣΊΣΥΦος" = Text.lowercase "σίσυφΟΣ" ∧
    FoldsSingly [] "ΣΊΣΥΦος".toList ∧
    (Parser.literal "σίσυφΟΣ" .folded).Reads "ΣΊΣΥΦος!".toList.toArray
      ("ΣΊΣΥΦος".toList ++ ['!']) (.text "ΣΊΣΥΦος") ['!'] := by
  have same : Text.lowercase "ΣΊΣΥΦος" = Text.lowercase "σίσυφΟΣ" := by decide
  have singly : FoldsSingly [] "ΣΊΣΥΦος".toList := by decide
  exact ⟨same, singly, (folded_literal_meets "σίσυφΟΣ" "ΣΊΣΥΦος" same _ ['!']).1 singly⟩

/-- The dotted capital I does not meet itself, and neither does a word in capitals that ends in a
sigma. -/
theorem folded_literal_refuses_itself :
    ((Parser.literal "İ" .folded).parseValue (.ofString "İ")).result =
        .error (.rejected ⟨⟨1, 1, none⟩, ["expected string matching \x7bİ\x7d"], .expectation,
          false⟩) ∧
      ((Parser.literal "ΑΣ" .folded).parseValue (.ofString "ΑΣ")).result =
        .error (.rejected ⟨⟨1, 2, none⟩, ["expected string matching \x7bΑΣ\x7d"], .expectation,
          false⟩) := by
  constructor <;> rfl

end Descent
