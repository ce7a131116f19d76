/-
Streams of encoded frames through the incremental parser.

A frame that `bl_frame_encode` produces is a frame of the grammar, and every
frame of the grammar with a correct checksum is produced that way.  What the
parser reports over whole streams follows from the receiver it is.
-/

import Stm32Bootloader.Parser

namespace Stm32Bootloader

open Framing LittleEndian

def wireFrame (cmd : U8) (payload : List U8) : List U8 :=
  (blFrameEncode cmd payload (8 + payload.length)).getD []

/-- The bytes between the start marker and the checksum. -/
def frameBody (cmd : U8) (payload : List U8) : List U8 :=
  cmd :: (bytes16 (BitVec.ofNat 16 payload.length) ++ payload)

theorem judged_frames {cmd low high : U8} {rest : List U8}
    {event : FrameEvent} (fits : (word16 low high).toNat ≤ blMaxPayload)
    (whole : rest.length = (word16 low high).toNat + 4)
    (judged : judgeFrame (cmd :: low :: high :: rest) = some event) :
    frameGrammar.Frames event (blSof :: cmd :: low :: high :: rest) := by
  rcases List.eq_nil_or_concat rest with empty | ⟨front, last, split⟩
  · rw [empty, List.length_nil] at whole
    omega
  rw [List.concat_eq_append] at split
  subst split
  rw [List.length_append, List.length_singleton] at whole
  refine .intro (cmd :: low :: high :: front) last ?_ judged
  intro count bound
  change judgeFrame _ = none
  rcases Nat.lt_or_ge count 3 with few | many
  · exact judgeFrame_short (by
      rw [List.length_take]
      omega)
  · obtain ⟨later, rfl⟩ := Nat.exists_eq_add_of_le many
    rw [Nat.add_comm]
    refine judgeFrame_open fits ?_
    simp only [List.length_cons] at bound
    rw [List.length_take]
    omega

section Wire

variable {cmd : U8} {payload : List U8}
  (short : payload.length ≤ blMaxPayload)

include short

theorem wireFrame_encoded {outSize : Nat}
    (room : payload.length + 8 ≤ outSize) :
    blFrameEncode cmd payload outSize = some (wireFrame cmd payload) := by
  rw [wireFrame, blFrameEncode_some short room,
    blFrameEncode_some short (Nat.le_of_eq (Nat.add_comm _ _)),
    Option.getD_some]

theorem wireFrame_eq :
    wireFrame cmd payload = blSof ::
      (frameBody cmd payload ++
        bytes32 (blCrc32 0 (frameBody cmd payload))) := by
  rw [wireFrame, blFrameEncode_some short
    (Nat.le_of_eq (Nat.add_comm _ _)), Option.getD_some]
  rfl

theorem wireFrame_length :
    (wireFrame cmd payload).length = 8 + payload.length := by
  rw [wireFrame_eq short]
  simp only [frameBody, List.length_cons, List.length_append,
    bytes16_length, bytes32_length]
  omega

theorem word16_bytes :
    (word16 ((BitVec.ofNat 16 payload.length).setWidth 8)
      ((BitVec.ofNat 16 payload.length >>> 8).setWidth 8)).toNat =
        payload.length := by
  have bound : payload.length ≤ 512 := short
  rw [word16_setWidth]
  exact Nat.mod_eq_of_lt (by omega)

theorem judgeFrame_wire :
    judgeFrame (frameBody cmd payload ++
        bytes32 (blCrc32 0 (frameBody cmd payload))) =
      some (.complete cmd payload) := by
  have declared := @word16_bytes payload short
  have trailer := word32At_bytes32
    (blCrc32 0 (frameBody cmd payload)) []
  rw [List.append_nil] at trailer
  simp only [frameBody, bytes16_eq, List.cons_append,
    List.nil_append] at trailer ⊢
  rw [judgeFrame_cons]
  dsimp only
  rw [declared, List.take_left,
    word32At_append_right payload _ payload.length 0 rfl, trailer,
    List.length_append, bytes32_length, if_neg (Nat.not_lt.mpr short),
    if_neg (not_not_intro rfl), if_pos rfl]

theorem wireFrame_frames :
    frameGrammar.Frames (.complete cmd payload)
      (wireFrame cmd payload) := by
  have judged := @judgeFrame_wire cmd payload short
  have declared := @word16_bytes payload short
  rw [wireFrame_eq short]
  simp only [frameBody, bytes16_eq, List.cons_append, List.nil_append]
    at judged ⊢
  refine judged_frames (by rw [declared]; exact short) ?_ judged
  rw [declared, List.length_append, bytes32_length]

end Wire

theorem blFrameEncode_wire {cmd : U8} {payload frame : List U8}
    {outSize : Nat} (encoded : blFrameEncode cmd payload outSize = some frame) :
    payload.length ≤ blMaxPayload ∧ wireFrame cmd payload = frame := by
  obtain ⟨short, room, _form⟩ := blFrameEncode_inv encoded
  rw [wireFrame_encoded short room] at encoded
  exact ⟨short, Option.some.inj encoded⟩

theorem judgeFrame_complete {body : List U8} {cmd : U8} {payload : List U8}
    (accepted : judgeFrame body = some (.complete cmd payload)) :
    payload.length ≤ blMaxPayload ∧
      blSof :: body = wireFrame cmd payload := by
  match body, accepted with
  | [], accepted => cases accepted
  | [_], accepted => cases accepted
  | [_, _], accepted => cases accepted
  | command :: low :: high :: rest, accepted =>
    rw [judgeFrame_cons] at accepted
    dsimp only at accepted
    split at accepted
    · cases accepted
    rename_i fits
    split at accepted
    · cases accepted
    rename_i whole
    split at accepted
    swap
    · cases accepted
    rename_i crcEq
    cases accepted
    have total := Decidable.not_not.mp whole
    have length : (rest.take (word16 low high).toNat).length =
        (word16 low high).toNat := by
      rw [List.length_take]
      omega
    have short : (rest.take (word16 low high).toNat).length ≤
        blMaxPayload := by
      rw [length]
      exact Nat.le_of_not_lt fits
    have declared : bytes16 (BitVec.ofNat 16
        (rest.take (word16 low high).toNat).length) = [low, high] := by
      rw [length, BitVec.ofNat_toNat, BitVec.setWidth_eq, bytes16_word16]
    have trailer : bytes32 (word32At rest (word16 low high).toNat) =
        rest.drop (word16 low high).toNat := by
      have split := List.take_append_drop (word16 low high).toNat rest
      rw [← split, word32At_append_right _ _ _ 0 (by rw [length, Nat.add_zero]),
        split]
      exact bytes32_word32At _ (by rw [List.length_drop]; omega)
    refine ⟨short, ?_⟩
    rw [wireFrame_eq short, frameBody, declared]
    simp only [List.cons_append, List.nil_append]
    rw [crcEq, trailer, List.take_append_drop]

/-! ### The parser over a stream -/

/-- A parser that has been initialised and fed these bytes. -/
def parserAfter (p : BlFrameParser) (history : List U8) : BlFrameParser :=
  stateAfter frameFeed (blFrameParserInit p) history

/-- The fields that an initialisation leaves alone may hold anything. -/
theorem parserAfter_collects (p : BlFrameParser) (history : List U8) :
    Collects (parserAfter p history)
      (stateAfter frameGrammar.receive none history) := by
  have start : Collects (blFrameParserInit p) none := rfl
  exact (reports_simulation (fun _ _ byte collects =>
    frameFeed_receive byte collects) start history).2

theorem Collected.busy {p : BlFrameParser} {body : List U8}
    (collected : Collected p body) : p.state ≠ .waitSof := by
  cases collected <;> simp only [*, ne_eq, reduceCtorEq, not_false_eq_true]

theorem Collects.waits_iff {p : BlFrameParser} {receiver : Receiver U8}
    (collects : Collects p receiver) :
    p.state = .waitSof ↔ receiver = none := by
  cases receiver with
  | none => exact iff_of_true collects rfl
  | some body =>
      have collected : Collected p body := collects
      exact iff_of_false collected.busy (Option.some_ne_none body)

/-- Whatever stands in its other fields, a waiting parser reports what a
waiting receiver does. -/
theorem reports_waiting {parser : BlFrameParser}
    (waits : parser.state = .waitSof) (bytes : List U8) :
    reports frameFeed parser bytes =
        reports frameGrammar.receive none bytes ∧
      Collects (stateAfter frameFeed parser bytes)
        (stateAfter frameGrammar.receive none bytes) := by
  have start : Collects parser none := waits
  exact reports_simulation (fun _ _ byte collects =>
    frameFeed_receive byte collects) start bytes

/-- A frame of a stream, with the bytes that come before it. -/
structure StreamEntry where
  gap : List U8
  cmd : U8
  payload : List U8

def StreamEntry.bytes (entry : StreamEntry) : List U8 :=
  entry.gap ++ wireFrame entry.cmd entry.payload

/-- Nothing up to the last byte of the frame, and then the frame. -/
def StreamEntry.reports (entry : StreamEntry) : List (Option FrameEvent) :=
  List.replicate (entry.gap.length + (7 + entry.payload.length)) none ++
    [some (.complete entry.cmd entry.payload)]

structure StreamEntry.Admissible (entry : StreamEntry) : Prop where
  noSof : blSof ∉ entry.gap
  short : entry.payload.length ≤ blMaxPayload

theorem reports_stream {parser : BlFrameParser}
    (waits : parser.state = .waitSof) {stream : List StreamEntry}
    (admissible : ∀ entry, entry ∈ stream → entry.Admissible)
    {rest : List U8} (noSof : blSof ∉ rest) :
    reports frameFeed parser (stream.flatMap StreamEntry.bytes ++ rest) =
      stream.flatMap StreamEntry.reports ++
        List.replicate rest.length none := by
  obtain ⟨reported, ready⟩ := @receive_frames _ _ _ frameGrammar _ stream
    StreamEntry.gap (fun entry => wireFrame entry.cmd entry.payload)
    (fun entry => .complete entry.cmd entry.payload)
    (fun entry member => (admissible entry member).noSof)
    (fun entry member => wireFrame_frames (admissible entry member).short)
  have idle : reports frameGrammar.receive none rest =
      List.replicate rest.length none := (receive_idle noSof).1
  have same : (stream.flatMap fun entry =>
      List.replicate (entry.gap.length +
        ((wireFrame entry.cmd entry.payload).length - 1)) none ++
          [some (FrameEvent.complete entry.cmd entry.payload)]) =
      stream.flatMap StreamEntry.reports := by
    refine List.flatMap_congr fun entry member => ?_
    have length := @wireFrame_length entry.cmd _ (admissible entry member).short
    have front : (wireFrame entry.cmd entry.payload).length - 1 =
        7 + entry.payload.length := by omega
    rw [front]
    rfl
  rw [(reports_waiting waits _).1, reports_append, ← same, ← reported,
    ← idle]
  refine congrArg _ ?_
  exact congrArg (fun receiver => reports _ receiver rest) ready

/-- The parser accepts exactly its grammar, in stream order. -/
theorem blFrameFeed_grammar (initial : BlFrameParser) (history : List U8) :
    let parser := parserAfter initial history
    (∀ byte, (blFrameFeed parser byte).2 = .complete →
      let frame := (blFrameFeed parser byte).1.frame
      ∃ earlier fed, history ++ [byte] = earlier ++ fed ∧
        fed.length = 8 + frame.len.toNat ∧
        blFrameEncode frame.cmd frame.bytes fed.length = some fed ∧
        (parserAfter initial earlier).state = .waitSof) ∧
    (parser.state = .waitSof →
      ∀ (stream : List StreamEntry) (rest : List U8),
        (∀ entry, entry ∈ stream → entry.Admissible) → blSof ∉ rest →
        reports frameFeed parser
            (stream.flatMap StreamEntry.bytes ++ rest) =
          stream.flatMap StreamEntry.reports ++
            List.replicate rest.length none) := by
  intro parser
  refine ⟨?_, fun waits stream rest admissible noSof =>
    reports_stream waits admissible noSof⟩
  intro byte completed frame
  obtain ⟨spoken, _after⟩ := frameFeed_receive byte
    (parserAfter_collects initial history)
  have reported : (frameFeed parser byte).2 =
      some (.complete frame.cmd frame.bytes) := by
    simp only [frameFeed, completed]
    rfl
  rw [reported] at spoken
  obtain ⟨earlier, body, split, waited, accepted⟩ :=
    receive_sound history byte spoken.symm
  obtain ⟨short, encoded⟩ := judgeFrame_complete accepted
  have fed : frameGrammar.mark :: body =
      wireFrame frame.cmd frame.bytes := encoded
  have length := @wireFrame_length frame.cmd _ short
  rw [fed] at split
  refine ⟨earlier, _, split, ?_, ?_, ?_⟩
  · rw [length, frame.bytes_length]
  · exact wireFrame_encoded short (by omega)
  · exact (parserAfter_collects initial earlier).waits_iff.mpr waited

end Stm32Bootloader
