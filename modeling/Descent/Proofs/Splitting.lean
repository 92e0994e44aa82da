import Descent.Proofs.Decoding
import Descent.Proofs.Streams

/-!
# A source that is read in pieces

A text can reach a stream in many ways: as a row of texts, as octets that are cut inside a
character, or from a file read so many characters or octets at a time. The pieces differ, and so do
the moments at which values are yielded; what is yielded does not, nor how the stream ends.

Two facts make up the proof. Whatever holds a text decodes to texts that join to it, which for
octets is the invariant of `Text.Decoder.exists_decode`. And a stream over such texts shows what
its handle reports, which for a stable parser depends on the joined text alone.
-/

namespace Descent

variable {claimsEnd : Prop} {p : Parser} {setup : Setup} {t : String}

/-! ## Pieces -/

/-- Pieces make up what was taken apart. -/
theorem flatten_pieces {α : Type} {size : Nat} (positive : size ≠ 0) (xs : List α) :
    (pieces size xs).flatten = xs := by
  induction xs using pieces.induct size with
  | case1 xs done =>
    rw [pieces, if_pos done]
    rcases done with none | zero
    · exact (List.isEmpty_iff.mp none).symm
    · exact absurd zero positive
  | case2 xs more inductionHypothesis =>
    rw [pieces, if_neg more, List.flatten_cons, inductionHypothesis, List.take_append_drop]

/-- The pieces of a file make up the file, unless it is read in pieces of size zero. -/
theorem flatten_filePieces {α : Type} {size : Int} (sized : size ≠ 0) (xs : List α) :
    (filePieces size xs).flatten = xs := by
  unfold filePieces
  by_cases all : size < 0
  · rw [if_pos all]
    cases xs with
    | nil =>
      rw [pieces, if_pos (Or.inl List.isEmpty_nil), List.flatten_nil]
    | cons x rest => exact flatten_pieces (Nat.succ_ne_zero _) (x :: rest)
  · rw [if_neg all]
    exact flatten_pieces (by omega) xs

/-- A text joined from pieces of it. -/
theorem join_ofList (parts : List (List Char)) :
    String.join (parts.map String.ofList) = String.ofList parts.flatten := by
  induction parts with
  | nil => rfl
  | cons part rest inductionHypothesis =>
    rw [List.map_cons, String.join_cons, inductionHypothesis, List.flatten_cons,
      String.ofList_append]

/-! ## What holds a text -/

/-- Octets of a text, cut anywhere, decode to texts that join to it. By induction on the pieces:
what waits and what is to come are always the octets of the rest of the text. -/
theorem decodes_octets (row : List (List UInt8)) {waiting : List UInt8} {chars : List Char}
    (begins : Text.Encoding.Begins waiting chars)
    (left : waiting ++ row.flatten = Text.Encoding.octetsOf chars) :
    ∃ texts, Decodes ⟨.utf8, waiting⟩ (row.map .octets) texts ∧
      String.join texts = String.ofList chars := by
  induction row generalizing waiting chars with
  | nil =>
    rw [List.flatten_nil, List.append_nil] at left
    obtain ⟨rfl, rfl⟩ := begins.ended left
    exact ⟨[], .exhausted rfl, rfl⟩
  | cons piece rest inductionHypothesis =>
    obtain ⟨done, later, kept, rfl, decoded, leftLater, beginsLater⟩ :=
      Text.Decoder.exists_decode left
    obtain ⟨texts, decodes, joined⟩ := inductionHypothesis beginsLater leftLater
    refine ⟨String.ofList done :: texts, .next decoded decodes, ?_⟩
    rw [String.join_cons, joined, String.ofList_append]

/-- The octets of a text are those of its characters. -/
theorem toUTF8_toList (t : String) : t.toUTF8.data.toList = Text.Encoding.octetsOf t.toList := by
  change t.toByteArray.data.toList = _
  rw [← String.utf8Encode_toList]
  simp [List.utf8Encode, Text.Encoding.octetsOf]

/-- A source that holds a text: in a row of texts, or of octets that write it and are cut
anywhere, or in a file, which is read in pieces of some size. -/
inductive Source.Holds (t : String) (chunkSize : Int) : Source → Prop where
  | texts (row : List String) (joined : String.join row = t) :
      Holds t chunkSize (.chunks (row.map .text))
  | octets (row : List (List UInt8)) (joined : row.flatten = t.toUTF8.data.toList) :
      Holds t chunkSize (.chunks (row.map .octets))
  | textFile (sized : chunkSize ≠ 0) : Holds t chunkSize (.file (.text t))
  | octetFile (sized : chunkSize ≠ 0) : Holds t chunkSize (.file (.octets t.toUTF8.data.toList))

/-- Whatever holds a text decodes to texts that join to it. -/
theorem Source.Holds.decodes {chunkSize : Int} {source : Source}
    (holds : source.Holds t chunkSize) :
    ∃ texts, Decodes { encoding := .utf8 } ((source.readings chunkSize).chunks.map (·.2)) texts ∧
      String.join texts = t := by
  have ofOctets : ∀ row : List (List UInt8), row.flatten = t.toUTF8.data.toList →
      ∃ texts, Decodes { encoding := .utf8 } (row.map .octets) texts ∧ String.join texts = t := by
    intro row joined
    have left : [] ++ row.flatten = Text.Encoding.octetsOf t.toList := by
      rw [List.nil_append, joined, toUTF8_toList]
    obtain ⟨texts, decodes, same⟩ := decodes_octets row (.nothing t.toList) left
    exact ⟨texts, decodes, same.trans String.ofList_toList⟩
  cases holds with
  | texts row joined =>
    rw [Source.readings, pulls_chunks]
    exact ⟨row, decodes_texts rfl row, joined⟩
  | octets row joined =>
    rw [Source.readings, pulls_chunks]
    exact ofOctets row joined
  | textFile sized =>
    refine ⟨(filePieces chunkSize t.toList).map String.ofList, ?_, ?_⟩
    · have texts : Decodes { encoding := .utf8 } _ _ :=
        decodes_texts rfl ((filePieces chunkSize t.toList).map String.ofList)
      simpa [Source.readings, readingOf, Function.comp_def] using texts
    · rw [join_ofList, flatten_filePieces sized, String.ofList_toList]
  | octetFile sized =>
    have octets := ofOctets (filePieces chunkSize t.toUTF8.data.toList) (flatten_filePieces sized _)
    simpa [Source.readings, readingOf, Function.comp_def] using octets

/-! ## What a stream tells -/

/-- Whether an event tells of the text: a value or an end, and not a piece that is read. -/
def Event.tells : Event → Bool
  | .pull _ => false
  | .read _ => false
  | _ => true

/-- What is told of some reports: the values up to the first error, and that. If there is none, the
end is a normal one. -/
def Report.told : List Report → List Event
  | [] => [.finished]
  | .value v :: later => .yield v :: told later
  | other :: _ => [other.event]

/-- Values are told in order. -/
theorem Report.told_values (values : List Value) (later : List Report) :
    told (values.map .value ++ later) = values.map .yield ++ told later := by
  induction values with
  | nil => rfl
  | cons v rest inductionHypothesis =>
    rw [List.map_cons, List.cons_append, told, inductionHypothesis]
    rfl

/-- How the course of a text ends: normally if it is used up, and otherwise with the failure that
stopped it. -/
def Stop.ending (stop : Stop) : Event :=
  if stop.rest ≠ [] ∨ stop.failure.wasEof = false then .raised (.rejected stop.failure)
  else .finished

/-- What is told of the course of a text. -/
theorem Report.told_course (values : List Value) (stop : Stop) :
    told (values.map .value ++ stop.reports) = values.map .yield ++ [stop.ending] := by
  rw [told_values]
  unfold Stop.reports Stop.ending
  split <;> rfl

/-- Every value tells of the text. -/
theorem filter_yields (values : List Value) :
    (values.map Event.yield).filter Event.tells = values.map .yield := by
  rw [List.filter_eq_self]
  intro event member
  obtain ⟨v, _, rfl⟩ := List.mem_map.mp member
  rfl

/-- A stream whose calls end without a fault tells what is reported in all of them together. By
induction on the responses: one with a failure is the last that is shown. -/
theorem inTurn_tells (responses : List Response)
    (orderly : ∀ response ∈ responses, response.Orderly)
    (faultless : ∀ response ∈ responses, response.fault = none) (asked : List (List Event))
    (enough : asked.length = responses.length)
    (silent : ∀ events ∈ asked, ∀ event ∈ events, event.tells = false) :
    (inTurn asked responses).filter Event.tells =
      Report.told (responses.flatMap Response.reports) := by
  induction responses generalizing asked with
  | nil =>
    obtain rfl := List.length_eq_zero_iff.mp enough
    rfl
  | cons response later inductionHypothesis =>
    obtain ⟨events, others, rfl⟩ := List.exists_cons_of_length_eq_add_one enough
    obtain ⟨orderlyHere, orderlyLater⟩ := List.forall_mem_cons.mp orderly
    obtain ⟨faultlessHere, faultlessLater⟩ := List.forall_mem_cons.mp faultless
    obtain ⟨silentHere, silentLater⟩ := List.forall_mem_cons.mp silent
    have rest := inductionHypothesis orderlyLater faultlessLater others (by simpa using enough)
      silentLater
    have nothing : events.filter Event.tells = [] := by
      rw [List.filter_eq_nil_iff]
      intro event member
      simp [silentHere event member]
    obtain ⟨values, failure, row⟩ := orderlyHere.row
    rw [inTurn, List.append_assoc, List.filter_append, List.filter_append, nothing,
      List.nil_append, List.flatMap_cons, row, List.append_assoc, Report.told_values]
    cases failure with
    | none =>
      have shown : response.events = values.map .yield := by
        simp [Response.events, row, faultlessHere, Report.event, Function.comp_def]
      have goesOn : response.stops = false := by
        simp [Response.stops, shown, Event.stops]
      rw [shown, filter_yields, goesOn]
      simpa using rest
    | some e =>
      have shown : response.events = values.map .yield ++ [.raised (.rejected e)] := by
        simp [Response.events, row, faultlessHere, Report.event, Function.comp_def]
      have stops : response.stops = true := by
        simp [Response.stops, shown, Event.stops]
      rw [shown, List.filter_append, filter_yields, stops]
      simp [Event.tells, Report.told, Report.event]

namespace Session

/-- Calls for a quiet listener and the responses to them: the same faults, and all reports that
are made. By induction on the calls. -/
theorem responses_of_calls {row : List Call} {s last : Session} {faults : List (Option Fault)}
    (quiet : s.reactions = []) (went : (calls row s).result = .ok (last, faults)) :
    ∃ responses, (Session.responses row s).result = .ok responses ∧
      responses.map Response.fault = faults ∧
      last.made.toList = s.made.toList ++ responses.flatMap Response.reports := by
  induction row generalizing s faults with
  | nil =>
    obtain ⟨rfl, rfl⟩ := Prod.mk.inj (Except.ok.inj went)
    exact ⟨[], rfl, rfl, (List.append_nil _).symm⟩
  | cons call later inductionHypothesis =>
    obtain ⟨after, fault, called, ends⟩ := call_ends quiet call
    rw [calls, Run.result_bind_ok _ _ _ called] at went
    obtain ⟨⟨final, others⟩, wentLater, rest⟩ := Run.result_bind_inv _ _ _ went
    obtain ⟨rfl, rfl⟩ := Prod.mk.inj (Except.ok.inj rest)
    have made : after.reactions = [] ∧
        after.made.toList = s.made.toList ++ after.since s := by
      cases ends with
      | told answers => exact ⟨quiet, by rw [since_flushed]; simp [flushed]⟩
      | untouched => exact ⟨quiet, by simp [since]⟩
      | stopped answers fault => exact ⟨quiet, by simp [since]⟩
    obtain ⟨responses, responded, same, added⟩ := inductionHypothesis made.1 wentLater
    refine ⟨⟨after.since s, fault⟩ :: responses, responses_cons called responded, ?_, ?_⟩
    · rw [List.map_cons, same]
    · rw [added, made.2, List.flatMap_cons, List.append_assoc]

end Session

/-- What is seen of the reading of a source tells nothing of the text. -/
theorem Source.readings_silent (source : Source) (chunkSize : Int) :
    (∀ reading ∈ (source.readings chunkSize).chunks, reading.1.tells = false) ∧
      ∀ event ∈ (source.readings chunkSize).exhausted, event.tells = false := by
  have pulled : ∀ (row : List Chunk) (number : Nat), ∀ reading ∈ pulls number row,
      reading.1.tells = false := by
    intro row
    induction row with
    | nil => exact fun number => nofun
    | cons chunk rest inductionHypothesis =>
      exact fun number => List.forall_mem_cons.mpr ⟨rfl, inductionHypothesis (number + 1)⟩
  cases source with
  | chunks row => exact ⟨pulled row 0, nofun⟩
  | file contents =>
    cases contents <;> simp [Source.readings, readingOf, Event.tells]

/-- A stream that is read to its end tells the course of the text that its source holds. -/
theorem Source.Holds.stream_tells (built : Built claimsEnd p) (productive : Productive p)
    (stable : Stable p) (setup : Setup) (some_text : t ≠ "") {chunkSize : Int} {source : Source}
    (holds : source.Holds t chunkSize) :
    ∃ values stop events,
      (p.stream source setup Text.Encoding.utf8.name chunkSize).result = .ok events ∧
      events.filter Event.tells = values.map .yield ++ [stop.ending] ∧
      Course p setup.userState setup.origin t.toList values stop := by
  obtain ⟨texts, decodes, joined⟩ := holds.decodes
  have some_chunk : texts ≠ [] := by
    rintro rfl
    exact some_text joined.symm
  obtain ⟨values, stop, after, went, finished⟩ :=
    Session.feeding built productive stable setup texts some_chunk
  obtain ⟨responses, responded, faults, made⟩ := Session.responses_of_calls rfl went
  obtain ⟨same, again, count, orderly⟩ := Session.feeding_orderly p setup texts
  obtain rfl := Except.ok.inj (responded.symm.trans again)
  have faultless : ∀ response ∈ responses, response.fault = none := by
    intro response member
    have fault : response.fault ∈ responses.map Response.fault := List.mem_map_of_mem member
    rw [faults] at fault
    exact List.eq_of_mem_replicate fault
  have silent := source.readings_silent chunkSize
  have told := inTurn_tells responses orderly faultless
    ((source.readings chunkSize).chunks.map (fun reading => [reading.1]) ++
      [(source.readings chunkSize).exhausted])
    (by simpa [count] using decodes.length) (by
      intro events member event shown
      rcases List.mem_append.mp member with read | last
      · obtain ⟨reading, known, rfl⟩ := List.mem_map.mp read
        rw [List.mem_singleton.mp shown]
        exact silent.1 reading known
      · rw [List.mem_singleton.mp last] at shown
        exact silent.2 event shown)
  have streamed := p.stream_inTurn source setup .utf8 chunkSize decodes responded
  refine ⟨values, stop, _, streamed, ?_, joined ▸ finished.course⟩
  have reported := finished.made
  rw [made] at reported
  rw [told, ← Report.told_course, ← reported]
  rfl

/-- However a text that is not empty reaches a stream, the same values are yielded and the stream
ends in the same way: normally, or with the failure that the grammar meets. This is so for a parser
to which more text makes no difference once it has settled something. The text may come as a single
piece, as a row of texts, as its octets in UTF-8 cut anywhere, also inside a character, or from a
file of text or of octets that is read in pieces of any size but zero.

Proof: either source tells the course of its text, and a text has one course only. -/
theorem splitting_invisible (built : Built claimsEnd p) (productive : Productive p)
    (stable : Stable p) (setup : Setup) (some_text : t ≠ "") {chunkSize : Int} {source : Source}
    (holds : source.Holds t chunkSize) :
    ∃ (values : List Value) (ending : Event) (whole split : List Event),
      (p.stream (.chunks [.text t]) setup).result = .ok whole ∧
      (p.stream source setup Text.Encoding.utf8.name chunkSize).result = .ok split ∧
      whole.filter Event.tells = values.map .yield ++ [ending] ∧
      split.filter Event.tells = values.map .yield ++ [ending] ∧
      (ending = .finished ∨ ∃ failure, ending = .raised (.rejected failure)) := by
  have single : (Source.chunks [.text t]).Holds t defaultChunkSize :=
    .texts [t] (by simp [String.join_cons])
  obtain ⟨values, stop, whole, streamedWhole, toldWhole, course⟩ :=
    single.stream_tells built productive stable setup some_text
  obtain ⟨otherValues, otherStop, split, streamedSplit, toldSplit, otherCourse⟩ :=
    holds.stream_tells built productive stable setup some_text
  obtain ⟨rfl, rfl⟩ := otherCourse.unique course
  refine ⟨values, stop.ending, whole, split, streamedWhole, streamedSplit, toldWhole, toldSplit, ?_⟩
  unfold Stop.ending
  split
  · exact Or.inr ⟨stop.failure, rfl⟩
  · exact Or.inl rfl

/-- A parser of two characters, and three characters as octets: cut inside the second character, and
with an empty piece in the cut. -/
theorem splitting_invisible_inside_character :
    ∃ (values : List Value) (ending : Event) (whole split : List Event),
      ((Parser.token 2).stream (.chunks [.text "aéb"])).result = .ok whole ∧
      ((Parser.token 2).stream (.chunks [.octets [0x61, 0xC3], .octets [], .octets [0xA9, 0x62]]) {}
        Text.Encoding.utf8.name 1).result = .ok split ∧
      whole.filter Event.tells = values.map .yield ++ [ending] ∧
      split.filter Event.tells = values.map .yield ++ [ending] ∧
      (ending = .finished ∨ ∃ failure, ending = .raised (.rejected failure)) :=
  splitting_invisible (Built.token 2 : Built False _) (Productive.token 2) (Stable.token 2) {}
    (by decide) (.octets [[0x61, 0xC3], [], [0xA9, 0x62]] (by decide))

end Descent
