import Descent.Fault

/-!
# Encodings

Octets become text one character at a time. A character that is cut off by the end of the octets
waits for more of them; at the end of all input it is an error. An error names the octets that
cannot belong to any character, counted in what was being decoded: the octets that had waited
and the new ones.

In UTF-8 the second octet of a character is restricted by the first, so that no character has
two forms and surrogates have none. The shortest row of octets that cannot be continued to a
character is what an error names. The first two octets of a surrogate are refused only when it
is clear what follows them: at the end of the octets they wait like the beginning of a character.
-/

namespace Descent.Text

/-- A way to write text in octets. -/
inductive Encoding where
  | utf8
  | ascii
  | latin1
  | utf16 (bigEndian : Bool)
deriving Repr, DecidableEq

/-- How decoding one character went. Counts of octets are at least one. -/
inductive Decoded where
  /-- A character, and how many octets follow its first. -/
  | char (c : Char) (following : Nat)
  /-- Octets that belong to no character, and how many follow the first of them. -/
  | invalid (following : Nat) (reason : String)
  /-- The octets end inside a character. If no more come, the octets are refused: the first and
  so many after it, for the given reason. -/
  | incomplete (following : Nat) (reason : String)

namespace Encoding

/-- The name of an encoding in messages. -/
def name : Encoding → String
  | utf8 => "utf-8"
  | ascii => "ascii"
  | latin1 => "latin-1"
  | utf16 false => "utf-16-le"
  | utf16 true => "utf-16-be"

/-- The encoding of a given name. -/
def ofName? (wanted : String) : Option Encoding :=
  [utf8, ascii, latin1, utf16 false, utf16 true].find? fun encoding => encoding.name == wanted

/-- Whether an octet continues a character of several octets. -/
def continues (octet : UInt8) : Bool := 0x80 ≤ octet && octet ≤ 0xBF

/-- Whether an octet may come second after the given one. -/
def secondAfter (lead octet : UInt8) : Bool :=
  if lead = 0xE0 then 0xA0 ≤ octet && octet ≤ 0xBF
  else if lead = 0xED then 0x80 ≤ octet && octet ≤ 0x9F
  else if lead = 0xF0 then 0x90 ≤ octet && octet ≤ 0xBF
  else if lead = 0xF4 then 0x80 ≤ octet && octet ≤ 0x8F
  else continues octet

/-- The six bits that a continuing octet carries. -/
def payload (octet : UInt8) : Nat := octet.toNat % 0x40

/-- A character cut off by the end of its octets, so many after the first. -/
def cutOff (following : Nat) : Decoded := .incomplete following "unexpected end of data"

/-- Why octets that do not continue a character are refused. -/
def brokenReason : String := "invalid continuation byte"

/-- Octets that do not continue a character. -/
def broken (following : Nat) : Decoded := .invalid following brokenReason

/-- A second octet that may not come after the first. Where the two begin a surrogate and end
the octets, the verdict waits for what follows. -/
def wrongSecond (lead second : UInt8) (rest : List UInt8) : Decoded :=
  if lead = 0xED && continues second && rest.isEmpty then .incomplete 0 brokenReason
  else broken 0

/-- The character of two octets. -/
def twoOctets (lead : UInt8) : List UInt8 → Decoded
  | [] => cutOff 0
  | second :: _ =>
    if continues second then
      .char (Char.ofNat (lead.toNat % 0x20 * 0x40 + payload second)) 1
    else broken 0

/-- The character of three octets. -/
def threeOctets (lead : UInt8) : List UInt8 → Decoded
  | [] => cutOff 0
  | second :: rest =>
    if secondAfter lead second then
      match rest with
      | [] => cutOff 1
      | third :: _ =>
        if continues third then
          .char (Char.ofNat
            ((lead.toNat % 0x10 * 0x40 + payload second) * 0x40 + payload third)) 2
        else broken 1
    else wrongSecond lead second rest

/-- The character of four octets. -/
def fourOctets (lead : UInt8) : List UInt8 → Decoded
  | [] => cutOff 0
  | second :: rest =>
    if secondAfter lead second then
      match rest with
      | [] => cutOff 1
      | third :: more =>
        if continues third then
          match more with
          | [] => cutOff 2
          | fourth :: _ =>
            if continues fourth then
              .char (Char.ofNat
                (((lead.toNat % 0x08 * 0x40 + payload second) * 0x40 + payload third) * 0x40 +
                  payload fourth)) 3
            else broken 2
        else broken 1
    else broken 0

/-- A UTF-8 character from its first octet and what follows. -/
def decodeUtf8 (lead : UInt8) (rest : List UInt8) : Decoded :=
  if lead < 0x80 then .char (Char.ofNat lead.toNat) 0
  else if 0xC2 ≤ lead && lead ≤ 0xDF then twoOctets lead rest
  else if 0xE0 ≤ lead && lead ≤ 0xEF then threeOctets lead rest
  else if 0xF0 ≤ lead && lead ≤ 0xF4 then fourOctets lead rest
  else .invalid 0 "invalid start byte"

/-- The number that two octets write. -/
def unit (bigEndian : Bool) (first second : UInt8) : Nat :=
  if bigEndian then first.toNat * 0x100 + second.toNat else second.toNat * 0x100 + first.toNat

/-- A UTF-16 character from its first octet and what follows. A high surrogate needs a low one
after it. -/
def decodeUtf16 (bigEndian : Bool) (first : UInt8) : List UInt8 → Decoded
  | [] => .incomplete 0 "truncated data"
  | second :: rest =>
    let high := unit bigEndian first second
    if high < 0xD800 ∨ 0xDFFF < high then .char (Char.ofNat high) 1
    else if 0xDC00 ≤ high then .invalid 1 "illegal encoding"
    else
      match rest with
      | third :: fourth :: _ =>
        let low := unit bigEndian third fourth
        if 0xDC00 ≤ low ∧ low ≤ 0xDFFF then
          .char (Char.ofNat (0x10000 + (high - 0xD800) * 0x400 + (low - 0xDC00))) 3
        else .invalid 1 "illegal UTF-16 surrogate"
      | _ => cutOff (1 + rest.length)

/-- One character from its first octet and what follows. -/
def decodeFirst (encoding : Encoding) (first : UInt8) (rest : List UInt8) : Decoded :=
  match encoding with
  | utf8 => decodeUtf8 first rest
  | ascii =>
    if first < 0x80 then .char (Char.ofNat first.toNat) 0
    else .invalid 0 "ordinal not in range(128)"
  | latin1 => .char (Char.ofNat first.toNat) 0
  | utf16 bigEndian => decodeUtf16 bigEndian first rest

/-- Decode octets from a place on. Gives the characters, after those already there in reverse,
and the octets of a character that is cut off. -/
def decodeFrom (encoding : Encoding) (ended : Bool) (place : Nat) (chars : List Char) :
    List UInt8 → Except Fault (List Char × List UInt8)
  | [] => .ok (chars.reverse, [])
  | first :: rest =>
    let refused (following : Nat) (reason : String) : Fault :=
      .undecodable ⟨encoding.name, first, place, place + 1 + following, reason⟩
    match encoding.decodeFirst first rest with
    | .char c following =>
      decodeFrom encoding ended (place + 1 + following) (c :: chars) (rest.drop following)
    | .invalid following reason => .error (refused following reason)
    | .incomplete following reason =>
      if ended then .error (refused following reason) else .ok (chars.reverse, first :: rest)
termination_by octets => octets.length
decreasing_by
  rw [List.length_drop, List.length_cons]
  omega

end Encoding

/-- A decoder at work on octets that arrive in chunks. -/
structure Decoder where
  encoding : Encoding
  waiting : List UInt8 := []

namespace Decoder

/-- Decode one more chunk. At the end nothing may be left waiting. -/
def decode (d : Decoder) (octets : List UInt8) (ended : Bool := false) :
    Except Fault (String × Decoder) := do
  let (chars, waiting) ← d.encoding.decodeFrom ended 0 [] (d.waiting ++ octets)
  return (String.ofList chars, { d with waiting })

/-- The decoder for the encoding of a given name. -/
def ofName (name : String) : Except Fault Decoder :=
  match Encoding.ofName? name with
  | some encoding => .ok { encoding }
  | none => .error (.unknownEncoding name)

end Decoder

example : Encoding.decodeUtf8 0xC3 [0xA9] = .char 'é' 1 := by rfl
example : Encoding.decodeUtf8 0xE2 [0x28] = .invalid 0 "invalid continuation byte" := by rfl
example : Encoding.decodeUtf8 0xED [0xA0] = .incomplete 0 "invalid continuation byte" := by rfl

end Descent.Text
