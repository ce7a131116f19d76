/-
One frame format on both ends of the link.

The host pulls whole frames out of a stream, the device is pushed one byte at
a time.  Both read the frame grammar, so on every stream they come to the same
verdicts at the same positions.
-/

import Stm32Bootloader.FrameStream
import Stm32Bootloader.Tools.Blflash

namespace Stm32Bootloader

open Framing LittleEndian Blflash

/-- What the parser would report for it. -/
def Blflash.Received.event : Received → FrameEvent
  | .frame cmd payload => .complete cmd payload
  | .failed _ => .error

def Blflash.AttemptError.OfFrame (error : AttemptError) : Prop :=
  (∃ declared, error = .oversizedPayload declared) ∨
    ∃ received expected, error = .malformed (.crcMismatch received expected)

theorem encodeFrame_eq (cmd : U8) (payload : List U8) {outSize : Nat}
    (room : payload.length + 8 ≤ outSize) :
    (Blproto.encodeFrame cmd payload).toOption =
      blFrameEncode cmd payload outSize := by
  unfold Blproto.encodeFrame blFrameEncode
  by_cases long : payload.length > blMaxPayload
  · rw [if_pos long, if_pos (show payload.length > Blproto.maxPayload from long)]
    rfl
  · rw [if_neg long, if_neg (show ¬ payload.length > Blproto.maxPayload from long),
      if_neg (Nat.not_lt.mpr room)]
    rfl

/-! ### Pulling one frame -/

section Decode

variable {body : List U8}
  (whole : body.length = 3 + (word16At body 1).toNat + 4)

include whole

theorem decodeFrame_body :
    Blproto.decodeFrame (Blproto.sof :: body) =
      let length := (word16At body 1).toNat
      let received := word32At body (3 + length)
      let expected := blCrc32 0 (body.take (3 + length))
      if received ≠ expected then
        .error (.crcMismatch received expected)
      else .ok (body.getD 0 0, slice body 3 length) := by
  have length : (Blproto.sof :: body).length =
      Blproto.frameOverhead + (word16At body 1).toNat := by
    rw [List.length_cons, whole, Blproto.frameOverhead]
    omega
  have start : (Blproto.sof :: body).getD 0 0 = Blproto.sof := rfl
  have command : (Blproto.sof :: body).getD 1 0 = body.getD 0 0 := rfl
  have declared : word16At (Blproto.sof :: body) 2 = word16At body 1 := rfl
  have data : ∀ count, slice (Blproto.sof :: body) 4 count =
      slice body 3 count := fun _ => rfl
  have covered : ∀ count, slice (Blproto.sof :: body) 1 count =
      body.take count := fun _ => rfl
  have trailer : ∀ count, word32At (Blproto.sof :: body) (4 + count) =
      word32At body (3 + count) := fun count =>
    word32At_append_right [Blproto.sof] body _ _ (by
      rw [List.length_singleton]
      omega)
  unfold Blproto.decodeFrame
  rw [if_neg (by rw [length]; omega), if_neg (not_not_intro start)]
  dsimp only
  rw [declared, if_neg (not_not_intro length), command, data, covered,
    trailer, Blproto.crc32]

theorem judgeFrame_body (fits : (word16At body 1).toNat ≤ blMaxPayload) :
    judgeFrame body =
      let length := (word16At body 1).toNat
      let received := word32At body (3 + length)
      let expected := blCrc32 0 (body.take (3 + length))
      if received ≠ expected then some .error
      else some (.complete (body.getD 0 0) (slice body 3 length)) := by
  unfold judgeFrame
  rw [if_neg (by rw [whole]; omega)]
  dsimp only
  rw [if_neg (Nat.not_lt.mpr fits), if_neg (not_not_intro whole)]
  by_cases matching : word32At body (3 + (word16At body 1).toNat) =
      blCrc32 0 (body.take (3 + (word16At body 1).toNat))
  · rw [if_neg (not_not_intro matching), if_pos matching.symm]
  · rw [if_pos matching, if_neg fun same => matching same.symm]

end Decode

theorem collect_eq (rest : List U8) :
    frameGrammar.collect [] rest =
      if rest.length < 3 then none
      else
        let length := (word16At rest 1).toNat
        if blMaxPayload < length then some (.error, rest.drop 3)
        else if rest.length < 3 + length + 4 then none
        else (judgeFrame (rest.take (3 + length + 4))).map fun event =>
          (event, rest.drop (3 + length + 4)) := by
  by_cases short : rest.length < 3
  · rw [if_pos short]
    refine collect_open fun count _positive bound => ?_
    exact judgeFrame_short (by
      rw [List.nil_append, List.length_take]
      omega)
  rw [if_neg short]
  obtain ⟨cmd, low, high, later, rfl⟩ : ∃ cmd low high later,
      rest = cmd :: low :: high :: later := by
    match rest, short with
    | cmd :: low :: high :: later, _ => exact ⟨cmd, low, high, later, rfl⟩
    | [], short => exact absurd (Nat.zero_lt_succ 2) short
    | [_], short => exact absurd (Nat.lt_add_left 1 (Nat.lt_succ_self 1)) short
    | [_, _], short => exact absurd (Nat.lt_succ_self 2) short
  have declared : word16At (cmd :: low :: high :: later) 1 =
      word16 low high := rfl
  have few : ∀ count, count < 3 →
      judgeFrame ((cmd :: low :: high :: later).take count) = none :=
    fun count bound => judgeFrame_short (by
      rw [List.length_take]
      omega)
  dsimp only
  rw [declared]
  by_cases exceeds : blMaxPayload < (word16 low high).toNat
  · rw [if_pos exceeds]
    refine collect_decided (by decide)
      (by simp only [List.length_cons]; omega)
      (fun earlier _positive early => few earlier early) ?_
    change judgeFrame [cmd, low, high] = some FrameEvent.error
    rw [judgeFrame_cons]
    exact if_pos exceeds
  rw [if_neg exceeds]
  have fits := Nat.le_of_not_lt exceeds
  have open_ : ∀ count, count < 3 + (word16 low high).toNat + 4 →
      judgeFrame ((cmd :: low :: high :: later).take count) = none := by
    intro count early
    rcases Nat.lt_or_ge count 3 with less | more
    · exact few count less
    · obtain ⟨count, rfl⟩ := Nat.exists_eq_add_of_le' more
      simp only [List.take_succ_cons]
      exact judgeFrame_open fits (by
        rw [List.length_take]
        omega)
  by_cases missing : (cmd :: low :: high :: later).length <
      3 + (word16 low high).toNat + 4
  · rw [if_pos missing]
    exact collect_open fun count _positive bound =>
      open_ count (Nat.lt_of_le_of_lt bound missing)
  · rw [if_neg missing]
    have length : ((cmd :: low :: high :: later).take
        (3 + (word16 low high).toNat + 4)).length =
          3 + (word16 low high).toNat + 4 := by
      rw [List.length_take]
      omega
    have kept : word16At ((cmd :: low :: high :: later).take
        (3 + (word16 low high).toNat + 4)) 1 = word16 low high := by
      rw [Nat.add_right_comm, Nat.add_comm]
      rfl
    have decides : judgeFrame ((cmd :: low :: high :: later).take
        (3 + (word16 low high).toNat + 4)) ≠ none := by
      rw [judgeFrame_body (by rw [length, kept]) (by rw [kept]; exact fits)]
      dsimp only
      split <;> exact Option.some_ne_none _
    obtain ⟨event, decided⟩ := Option.ne_none_iff_exists'.mp decides
    rw [decided]
    exact collect_decided (by omega) (Nat.le_of_not_lt missing)
      (fun earlier _positive early => open_ earlier early) decided

/-- The host reads what the grammar does, up to its own names for errors. -/
theorem readFrame_grammar (stream : List U8) :
    (readFrame stream).map (fun pulled => (pulled.1.event, pulled.2)) =
        frameGrammar.read stream ∧
      ∀ error rest, readFrame stream = some (.failed error, rest) →
        error.OfFrame := by
  rcases @mark_or_idle U8 FrameEvent _ frameGrammar stream with
    ⟨_noMark, empty⟩ | ⟨gap, later, _split, _noMark, found⟩
  · have nothing : stream.dropWhile (· ≠ Blproto.sof) = [] := empty
    unfold readFrame Grammar.read
    rw [nothing, empty]
    exact ⟨rfl, fun _ _ impossible => by cases impossible⟩
  have marked : stream.dropWhile (· ≠ Blproto.sof) =
      Blproto.sof :: later := found
  unfold readFrame Grammar.read
  rw [marked, found]
  dsimp only
  rw [collect_eq]
  by_cases short : later.length < 3
  · rw [if_pos short, if_pos short]
    exact ⟨rfl, fun _ _ impossible => by cases impossible⟩
  rw [if_neg short, if_neg short]
  dsimp only
  by_cases exceeds : blMaxPayload < (word16At later 1).toNat
  · have oversized : (word16At later 1).toNat > Blproto.maxPayload := exceeds
    rw [if_pos exceeds, if_pos oversized]
    refine ⟨rfl, fun error rest pulled => ?_⟩
    cases pulled
    exact Or.inl ⟨_, rfl⟩
  have fits : ¬ (word16At later 1).toNat > Blproto.maxPayload := exceeds
  rw [if_neg exceeds, if_neg fits]
  by_cases missing : later.length < 3 + (word16At later 1).toNat + 4
  · rw [if_pos missing, if_pos missing]
    exact ⟨rfl, fun _ _ impossible => by cases impossible⟩
  rw [if_neg missing, if_neg missing]
  have kept : word16At (later.take (3 + (word16At later 1).toNat + 4)) 1 =
      word16At later 1 := by
    unfold word16At
    simp only [List.getD_eq_getElem?_getD]
    rw [List.getElem?_take_of_lt (by omega),
      List.getElem?_take_of_lt (by omega)]
  have whole : (later.take (3 + (word16At later 1).toNat + 4)).length =
      3 + (word16At (later.take (3 + (word16At later 1).toNat + 4))
        1).toNat + 4 := by
    rw [kept, List.length_take]
    omega
  rw [decodeFrame_body whole,
    judgeFrame_body whole (by rw [kept]; exact Nat.le_of_not_lt exceeds)]
  generalize later.take (3 + (word16At later 1).toNat + 4) = body
  dsimp only
  by_cases corrupt : word32At body (3 + (word16At body 1).toNat) ≠
      blCrc32 0 (body.take (3 + (word16At body 1).toNat))
  · rw [if_pos corrupt, if_pos corrupt]
    refine ⟨rfl, fun error rest pulled => ?_⟩
    cases pulled
    exact Or.inr ⟨_, _, rfl⟩
  · rw [if_neg corrupt, if_neg corrupt]
    exact ⟨rfl, fun _ _ impossible => by cases impossible⟩

theorem readAll_events (fuel position : Nat) (stream : List U8) :
    (readAll readFrame fuel position stream).map
        (fun outcome => (outcome.1, outcome.2.event)) =
      readAll frameGrammar.read fuel position stream ∧
    ∀ outcome error, outcome ∈ readAll readFrame fuel position stream →
      outcome.2 = .failed error → error.OfFrame := by
  induction fuel generalizing position stream with
  | zero => exact ⟨rfl, fun _ _ impossible => by cases impossible⟩
  | succ fuel ih =>
      obtain ⟨same, named⟩ := readFrame_grammar stream
      rw [readAll, readAll, ← same]
      cases pulled : readFrame stream with
      | none => exact ⟨rfl, fun _ _ impossible => by cases impossible⟩
      | some result =>
          obtain ⟨received, rest⟩ := result
          obtain ⟨later, errors⟩ := ih
            (position + (stream.length - rest.length)) rest
          refine ⟨congrArg _ later, fun outcome error member failed => ?_⟩
          rcases List.mem_cons.mp member with rfl | member
          · rw [pulled] at named
            exact named error rest (by rw [← failed])
          · exact errors outcome error member failed

/-- Both ends encode a frame as the same bytes, and both take any stream for
the same frames and errors at the same positions. -/
theorem host_device_frameFormat (p : BlFrameParser) :
    (∀ cmd payload outSize, payload.length + 8 ≤ outSize →
      (Blproto.encodeFrame cmd payload).toOption =
        blFrameEncode cmd payload outSize) ∧
    ∀ stream fuel, stream.length ≤ fuel →
      (readAll readFrame fuel 0 stream).map
          (fun outcome => (outcome.1, outcome.2.event)) =
        located 0 (reports frameFeed (blFrameParserInit p) stream) ∧
      ∀ outcome error, outcome ∈ readAll readFrame fuel 0 stream →
        outcome.2 = .failed error → error.OfFrame := by
  refine ⟨fun cmd payload outSize room => encodeFrame_eq cmd payload room,
    fun stream fuel enough => ?_⟩
  obtain ⟨events, errors⟩ := readAll_events fuel 0 stream
  have waits : (blFrameParserInit p).state = .waitSof := rfl
  rw [(reports_waiting waits stream).1, located_readAll fuel 0 stream enough]
  exact ⟨events, errors⟩

end Stm32Bootloader
