import Mathlib.Data.List.Basic
import Descent.Text.Encoding

/-!
# Octets that arrive in chunks

UTF-8 writes a character as one to four octets, and a text as the octets of its characters. A
decoder that is given such octets in chunks makes characters of all that are complete, and keeps the
octets of a character that has only begun. What it keeps and what is still to come are then again
the octets of the rest of the text. That is the invariant: however the octets are cut, the texts it
makes of the chunks join to the text that was written, and nothing is left in the end.

`Written` gives the octets of a character by the bits they carry. The conditions on its bits are
what the decoder tests: no character is written longer than need be, and none is a surrogate.
-/

namespace Descent.Text

namespace Encoding

/-! ## The octets of one character -/

/-- The row of octets that writes a code point. -/
inductive Written : Nat → List UInt8 → Prop where
  | one {code : Nat} (small : code < 0x80) : Written code [UInt8.ofNat code]
  | two {high last : Nat} (shortest : 2 ≤ high) (most : high < 0x20) (lastBits : last < 0x40) :
      Written (high * 0x40 + last) [UInt8.ofNat (high + 0xC0), UInt8.ofNat (last + 0x80)]
  | three {high second last : Nat} (most : high < 0x10) (secondBits : second < 0x40)
      (lastBits : last < 0x40) (shortest : high = 0 → 0x20 ≤ second)
      (noSurrogate : high = 0xD → second < 0x20) :
      Written ((high * 0x40 + second) * 0x40 + last)
        [UInt8.ofNat (high + 0xE0), UInt8.ofNat (second + 0x80), UInt8.ofNat (last + 0x80)]
  | four {high second third last : Nat} (most : high ≤ 4) (secondBits : second < 0x40)
      (thirdBits : third < 0x40) (lastBits : last < 0x40) (shortest : high = 0 → 0x10 ≤ second)
      (inRange : high = 4 → second < 0x10) :
      Written (((high * 0x40 + second) * 0x40 + third) * 0x40 + last)
        [UInt8.ofNat (high + 0xF0), UInt8.ofNat (second + 0x80), UInt8.ofNat (third + 0x80),
          UInt8.ofNat (last + 0x80)]

variable {high bits code : Nat} {octets : List UInt8}

/-- The octets of a character. The cases are the ranges of code points that take one to four. -/
theorem written_char (c : Char) : Written c.toNat (String.utf8EncodeChar c) := by
  have valid := c.valid
  unfold String.utf8EncodeChar
  change Written c.val.toNat _
  have bound : c.val.toNat < 0xD800 ∨ 0xDFFF < c.val.toNat ∧ c.val.toNat < 0x110000 := valid
  generalize c.val.toNat = v at bound ⊢
  dsimp only
  split
  · exact .one (by omega)
  split
  · have written := @Written.two (v / 64) (v % 64) (by omega) (by omega) (by omega)
    have whole : v / 64 * 0x40 + v % 64 = v := by omega
    have lead : v / 64 % 32 = v / 64 := by omega
    rwa [whole, ← lead] at written
  split
  · have written := @Written.three (v / 4096 % 16) (v / 64 % 64) (v % 64) (by omega) (by omega)
      (by omega) (by omega) (by omega)
    have whole : (v / 4096 % 16 * 0x40 + v / 64 % 64) * 0x40 + v % 64 = v := by omega
    rwa [whole] at written
  · have written := @Written.four (v / 262144 % 8) (v / 4096 % 64) (v / 64 % 64) (v % 64)
      (by omega) (by omega) (by omega) (by omega) (by omega) (by omega)
    have whole : ((v / 262144 % 8 * 0x40 + v / 4096 % 64) * 0x40 + v / 64 % 64) * 0x40 + v % 64 =
        v := by omega
    rwa [whole] at written

/-- Octets after the first continue a character. -/
theorem continues_tail (few : bits < 0x40) : continues (UInt8.ofNat (bits + 0x80)) = true := by
  simp [continues, UInt8.le_iff_toNat_le]
  omega

/-- Octets after the first carry their six bits. -/
theorem payload_tail (few : bits < 0x40) : payload (UInt8.ofNat (bits + 0x80)) = bits := by
  simp [payload]
  omega

/-- The second of three octets may follow the first. -/
theorem secondAfter_three (most : high < 0x10) (few : bits < 0x40)
    (shortest : high = 0 → 0x20 ≤ bits) (noSurrogate : high = 0xD → bits < 0x20) :
    secondAfter (UInt8.ofNat (high + 0xE0)) (UInt8.ofNat (bits + 0x80)) = true := by
  simp [secondAfter, continues, UInt8.le_iff_toNat_le, ← UInt8.toNat_inj]
  split_ifs <;> omega

/-- The second of four octets may follow the first. -/
theorem secondAfter_four (most : high ≤ 4) (few : bits < 0x40)
    (shortest : high = 0 → 0x10 ≤ bits) (inRange : high = 4 → bits < 0x10) :
    secondAfter (UInt8.ofNat (high + 0xF0)) (UInt8.ofNat (bits + 0x80)) = true := by
  simp [secondAfter, continues, UInt8.le_iff_toNat_le, ← UInt8.toNat_inj]
  split_ifs <;> omega

/-- An octet below 0x80 is a character. -/
theorem decodeUtf8_one (small : code < 0x80) (rest : List UInt8) :
    decodeUtf8 (UInt8.ofNat code) rest = .char (Char.ofNat code) 0 := by
  have same : (UInt8.ofNat code).toNat = code := by
    simp
    omega
  have ascii : UInt8.ofNat code < 0x80 := by
    rw [UInt8.lt_iff_toNat_lt, same]
    exact small
  rw [decodeUtf8, if_pos ascii, same]

/-- What the first octet tells of two. -/
theorem decodeUtf8_two (shortest : 2 ≤ high) (most : high < 0x20) (rest : List UInt8) :
    decodeUtf8 (UInt8.ofNat (high + 0xC0)) rest = twoOctets (UInt8.ofNat (high + 0xC0)) rest := by
  simp [decodeUtf8, UInt8.lt_iff_toNat_lt, UInt8.le_iff_toNat_le]
  split_ifs <;> first | rfl | omega

/-- What the first octet tells of three. -/
theorem decodeUtf8_three (most : high < 0x10) (rest : List UInt8) :
    decodeUtf8 (UInt8.ofNat (high + 0xE0)) rest =
      threeOctets (UInt8.ofNat (high + 0xE0)) rest := by
  simp [decodeUtf8, UInt8.lt_iff_toNat_lt, UInt8.le_iff_toNat_le]
  split_ifs <;> first | rfl | omega

/-- What the first octet tells of four. -/
theorem decodeUtf8_four (most : high ≤ 4) (rest : List UInt8) :
    decodeUtf8 (UInt8.ofNat (high + 0xF0)) rest =
      fourOctets (UInt8.ofNat (high + 0xF0)) rest := by
  simp [decodeUtf8, UInt8.lt_iff_toNat_lt, UInt8.le_iff_toNat_le]
  split_ifs <;> first | rfl | omega

/-- All octets of a character decode to it, whatever follows. -/
theorem Written.decoded {lead : UInt8} {following : List UInt8}
    (written : Written code (lead :: following)) (later : List UInt8) :
    decodeUtf8 lead (following ++ later) = .char (Char.ofNat code) following.length := by
  cases written with
  | one small => exact decodeUtf8_one small later
  | @two high last shortest most lastBits =>
    have bits : (UInt8.ofNat (high + 0xC0)).toNat % 0x20 = high := by
      simp
      omega
    simp only [List.cons_append, decodeUtf8_two shortest most, twoOctets, continues_tail lastBits,
      payload_tail lastBits, bits, if_true, List.length_cons, List.length_nil]
  | @three high second last most secondBits lastBits shortest noSurrogate =>
    have bits : (UInt8.ofNat (high + 0xE0)).toNat % 0x10 = high := by
      simp
      omega
    simp only [List.cons_append, decodeUtf8_three most, threeOctets,
      secondAfter_three most secondBits shortest noSurrogate, continues_tail lastBits,
      payload_tail secondBits, payload_tail lastBits, bits, if_true, List.length_cons,
      List.length_nil]
  | @four high second third last most secondBits thirdBits lastBits shortest inRange =>
    have bits : (UInt8.ofNat (high + 0xF0)).toNat % 0x08 = high := by
      simp
      omega
    simp only [List.cons_append, decodeUtf8_four most, fourOctets,
      secondAfter_four most secondBits shortest inRange, continues_tail thirdBits,
      continues_tail lastBits, payload_tail secondBits, payload_tail thirdBits,
      payload_tail lastBits, bits, if_true, List.length_cons, List.length_nil]

/-- Octets that only begin a character wait for the others. -/
theorem Written.begun {lead : UInt8} {part missing : List UInt8}
    (written : Written code (lead :: (part ++ missing))) (cut : missing ≠ []) :
    ∃ following, decodeUtf8 lead part = cutOff following := by
  generalize whole : lead :: (part ++ missing) = octets at written
  cases written with
  | one small =>
    obtain ⟨rfl, nothing⟩ := List.cons.inj whole
    exact absurd (List.append_eq_nil_iff.mp nothing).2 cut
  | @two high last shortest most lastBits =>
    obtain ⟨rfl, rest⟩ := List.cons.inj whole
    rw [decodeUtf8_two shortest most]
    rcases part with _ | ⟨a, part⟩
    · exact ⟨0, rfl⟩
    · simp [cut] at rest
  | @three high second last most secondBits lastBits shortest noSurrogate =>
    obtain ⟨rfl, rest⟩ := List.cons.inj whole
    rw [decodeUtf8_three most]
    rcases part with _ | ⟨a, _ | ⟨b, part⟩⟩
    · exact ⟨0, rfl⟩
    · obtain ⟨rfl, _⟩ := List.cons.inj rest
      exact ⟨1, if_pos (secondAfter_three most secondBits shortest noSurrogate)⟩
    · simp [cut] at rest
  | @four high second third last most secondBits thirdBits lastBits shortest inRange =>
    obtain ⟨rfl, rest⟩ := List.cons.inj whole
    rw [decodeUtf8_four most]
    rcases part with _ | ⟨a, _ | ⟨b, _ | ⟨c, part⟩⟩⟩
    · exact ⟨0, rfl⟩
    · obtain ⟨rfl, _⟩ := List.cons.inj rest
      exact ⟨1, if_pos (secondAfter_four most secondBits shortest inRange)⟩
    · obtain ⟨rfl, others⟩ := List.cons.inj rest
      obtain ⟨rfl, _⟩ := List.cons.inj others
      refine ⟨2, ?_⟩
      simp only [fourOctets, secondAfter_four most secondBits shortest inRange,
        continues_tail thirdBits, if_true]
    · simp [cut] at rest

/-! ## The octets of a text -/

/-- The octets that write a row of characters. -/
def octetsOf (chars : List Char) : List UInt8 := chars.flatMap String.utf8EncodeChar

theorem octetsOf_cons (c : Char) (chars : List Char) :
    octetsOf (c :: chars) = String.utf8EncodeChar c ++ octetsOf chars := rfl

/-- Octets with which a row of characters begins, but which make none of them: none at all, or a
part of the octets of the first. -/
inductive Begins : List UInt8 → List Char → Prop where
  | nothing (chars : List Char) : Begins [] chars
  | inside {lead : UInt8} {part missing : List UInt8} {c : Char} {rest : List Char}
      (written : String.utf8EncodeChar c = lead :: (part ++ missing)) (cut : missing ≠ []) :
      Begins (lead :: part) (c :: rest)

/-- A character takes at least one octet. -/
theorem exists_lead (c : Char) : ∃ lead following, String.utf8EncodeChar c = lead :: following := by
  have written := written_char c
  generalize String.utf8EncodeChar c = octets, c.toNat = code at written
  cases written <;> exact ⟨_, _, rfl⟩

/-- The octets of a text, cut anywhere: those in front write some characters, and begin the next
if the cut is inside of it. By induction on the text. -/
theorem exists_cut (chars : List Char) {front back : List UInt8}
    (cut : front ++ back = octetsOf chars) :
    ∃ done later waiting, chars = done ++ later ∧ front = octetsOf done ++ waiting ∧
      waiting ++ back = octetsOf later ∧ Begins waiting later := by
  induction chars generalizing front with
  | nil =>
    obtain ⟨rfl, rfl⟩ := List.append_eq_nil_iff.mp cut
    exact ⟨[], [], [], rfl, rfl, rfl, .nothing []⟩
  | cons c rest inductionHypothesis =>
    rw [octetsOf_cons] at cut
    rcases List.append_eq_append_iff.mp cut with ⟨missing, whole, behind⟩ | ⟨more, whole, behind⟩
    · cases missing with
      | nil =>
        refine ⟨[c], rest, [], rfl, ?_, behind, .nothing rest⟩
        simpa [octetsOf] using whole.symm
      | cons octet missing =>
        refine ⟨[], c :: rest, front, rfl, rfl, cut, ?_⟩
        cases front with
        | nil => exact .nothing _
        | cons lead part => exact .inside whole (List.cons_ne_nil octet missing)
    · obtain ⟨done, later, waiting, rfl, rfl, left, begins⟩ := inductionHypothesis behind.symm
      refine ⟨c :: done, later, waiting, rfl, ?_, left, begins⟩
      rw [whole, octetsOf_cons, List.append_assoc]

/-- Octets that begin a row of characters and are all of it are none. -/
theorem Begins.ended {waiting : List UInt8} {chars : List Char} (begins : Begins waiting chars)
    (all : waiting = octetsOf chars) : waiting = [] ∧ chars = [] := by
  cases begins with
  | nothing =>
    cases chars with
    | nil => exact ⟨rfl, rfl⟩
    | cons c rest =>
      obtain ⟨lead, following, written⟩ := exists_lead c
      rw [octetsOf_cons, written] at all
      exact absurd all nofun
  | @inside lead part missing c rest written cut =>
    rw [octetsOf_cons, written] at all
    have longer := congrArg List.length all
    have some_missing := List.length_pos_iff.mpr cut
    simp only [List.length_cons, List.length_append] at longer
    omega

/-- The octets of a character decode to it. -/
theorem decodeFrom_char (ended : Bool) (place : Nat) (made : List Char) (c : Char)
    (rest : List UInt8) :
    utf8.decodeFrom ended place made (String.utf8EncodeChar c ++ rest) =
      utf8.decodeFrom ended (place + (String.utf8EncodeChar c).length) (c :: made) rest := by
  obtain ⟨lead, following, octets⟩ := exists_lead c
  have written := written_char c
  rw [octets] at written ⊢
  have decoded : utf8.decodeFirst lead (following ++ rest) = .char c following.length := by
    have char := written.decoded rest
    rwa [Char.ofNat_toNat] at char
  rw [List.cons_append, decodeFrom, decoded]
  dsimp only
  rw [List.drop_left, List.length_cons, Nat.add_assoc, Nat.add_comm 1]

/-- Octets that begin a character wait. -/
theorem Begins.decodeFrom {waiting : List UInt8} {chars : List Char} (begins : Begins waiting chars)
    (place : Nat) (made : List Char) :
    utf8.decodeFrom false place made waiting = .ok (made.reverse, waiting) := by
  cases begins with
  | nothing => rw [Encoding.decodeFrom]
  | @inside lead part missing c rest written cut =>
    have begun := written_char c
    rw [written] at begun
    obtain ⟨following, waits⟩ := begun.begun cut
    have decoded : utf8.decodeFirst lead part = cutOff following := waits
    rw [Encoding.decodeFrom, decoded]
    rfl

/-- Octets that write some characters and begin the next decode to those, and the others wait. By
induction on the characters. -/
theorem Begins.decodeFrom_octetsOf {waiting : List UInt8} {later : List Char}
    (begins : Begins waiting later) (done : List Char) (place : Nat) (made : List Char) :
    utf8.decodeFrom false place made (octetsOf done ++ waiting) =
      .ok (made.reverse ++ done, waiting) := by
  induction done generalizing place made with
  | nil =>
    rw [List.append_nil]
    exact begins.decodeFrom place made
  | cons c rest inductionHypothesis =>
    rw [octetsOf_cons, List.append_assoc, decodeFrom_char, inductionHypothesis,
      List.reverse_cons, List.append_assoc, List.singleton_append]

end Encoding

/-- Decoding a chunk when the octets that wait, the chunk and what follows it are those of a text.
What the decoder makes of it is the front of the text, and the octets that now wait and those to
come are the octets of what is left. -/
theorem Decoder.exists_decode {waiting chunk later : List UInt8} {chars : List Char}
    (left : waiting ++ (chunk ++ later) = Encoding.octetsOf chars) :
    ∃ done rest kept, chars = done ++ rest ∧
      Decoder.decode ⟨.utf8, waiting⟩ chunk = .ok (String.ofList done, ⟨.utf8, kept⟩) ∧
      kept ++ later = Encoding.octetsOf rest ∧ Encoding.Begins kept rest := by
  rw [← List.append_assoc] at left
  obtain ⟨done, rest, kept, same, written, leftOver, begins⟩ := Encoding.exists_cut chars left
  refine ⟨done, rest, kept, same, ?_, leftOver, begins⟩
  unfold decode
  dsimp only
  rw [written, begins.decodeFrom_octetsOf done 0 []]
  rfl

end Descent.Text
