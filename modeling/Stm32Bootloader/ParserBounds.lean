/-
What the fields of the parser are good for in every state it can reach.

The one counter indexes the payload buffer, counts checksum bytes and counts
length bytes.  That it stays below the exit value of each follows from what
the fields encode, the bytes collected since the start marker; that the
parser returns to waiting follows from the longest body there is.
-/

import Stm32Bootloader.Resync

namespace Stm32Bootloader

open Framing LittleEndian

/-- The counter is in range for the use that the state makes of it. -/
structure BlFrameParser.InBounds (p : BlFrameParser) : Prop where
  len : p.state = .len → p.byteCount = 0 ∨ p.byteCount = 1
  payload : p.state = .payload →
    p.byteCount.toNat < p.frame.len.toNat ∧ p.frame.len.toNat ≤ 512
  crc : p.state = .crc →
    p.byteCount.toNat < 4 ∧ 8 * p.byteCount.toNat ≤ 24

theorem Collected.inBounds {p : BlFrameParser} {body : List U8}
    (collected : Collected p body) : p.InBounds := by
  have fits : p.frame.len.toNat ≤ 512 := p.frame.lenFits
  cases collected with
  | start state count running received =>
      constructor <;> simp only [state, reduceCtorEq, false_implies]
  | cmd state count running received =>
      constructor <;> simp only [state, reduceCtorEq, false_implies]
      exact fun _ => Or.inl count
  | low low state count len running received =>
      constructor <;> simp only [state, reduceCtorEq, false_implies]
      exact fun _ => Or.inr count
  | payload low high data state len count room stored running received =>
      constructor <;> simp only [state, reduceCtorEq, false_implies]
      exact fun _ => ⟨by omega, fits⟩
  | crc low high trailer state len count room running received =>
      constructor <;> simp only [state, reduceCtorEq, false_implies]
      exact fun _ => ⟨by omega, by omega⟩

theorem Collects.inBounds {p : BlFrameParser} {receiver : Receiver U8}
    (collects : Collects p receiver) : p.InBounds := by
  cases receiver with
  | none =>
      have waits : p.state = .waitSof := collects
      constructor <;> simp only [waits, reduceCtorEq, false_implies]
  | some body =>
      have collected : Collected p body := collects
      exact collected.inBounds

theorem Collected.runningCrc {p : BlFrameParser} {body : List U8}
    (collected : Collected p body) :
    p.runningCrc = blCrc32 0 (body.take (3 + p.frame.len.toNat)) := by
  cases collected with
  | start state count running received => rw [running, List.take_nil]; rfl
  | cmd state count running received =>
      rw [running, List.take_of_length_le (by
        simp only [List.length_cons, List.length_nil]
        omega)]
  | low low state count len running received =>
      rw [running, List.take_of_length_le (by
        simp only [List.length_cons, List.length_nil]
        omega)]
  | payload low high data state len count room stored running received =>
      rw [running, List.take_of_length_le (by
        simp only [List.length_cons]
        omega)]
  | crc low high trailer state len count room running received =>
      rw [running, Nat.add_comm]
      simp only [List.take_succ_cons]
      rw [List.take_left' p.frame.bytes_length]

theorem frameFeed_reported {p : BlFrameParser} {byte : U8}
    {event : FrameEvent} (reported : (frameFeed p byte).2 = some event) :
    (blFrameFeed p byte).2 = .complete ∨ (blFrameFeed p byte).2 = .error := by
  unfold frameFeed at reported
  cases status : (blFrameFeed p byte).2 with
  | incomplete =>
      simp only [status] at reported
      cases reported
  | complete => exact Or.inl rfl
  | error => exact Or.inr rfl

section Reached

variable (initial : BlFrameParser) {history : List U8}

/-- A busy parser collects what follows a start marker that found it waiting,
and has been busy since. -/
theorem parserAfter_busy
    (busy : (parserAfter initial history).state ≠ .waitSof) :
    ∃ earlier body, history = earlier ++ blSof :: body ∧
      (parserAfter initial earlier).state = .waitSof ∧
      Collected (parserAfter initial history) body ∧
      ∀ count, count ≤ body.length →
        (parserAfter initial (earlier ++ blSof :: body.take count)).state ≠
          .waitSof := by
  have collects := parserAfter_collects initial history
  cases receiver : stateAfter frameGrammar.receive none history with
  | none => exact absurd (collects.waits_iff.mpr receiver) busy
  | some body =>
      obtain ⟨earlier, split, waited, undecided⟩ :=
        receive_history history receiver
      rw [receiver] at collects
      refine ⟨earlier, body, split,
        (parserAfter_collects initial earlier).waits_iff.mpr waited,
        collects, fun count bound waits => ?_⟩
      have opened : frameGrammar.receive none blSof = (some [], none) := rfl
      have prior : ∀ taken, 0 < taken → taken ≤ (body.take count).length →
          frameGrammar.judge ([] ++ (body.take count).take taken) = none := by
        intro taken positive inside
        rw [List.length_take] at inside
        rw [List.nil_append, List.take_take, Nat.min_eq_left (by omega)]
        exact undecided taken positive (by omega)
      have collecting : stateAfter frameGrammar.receive none
          (earlier ++ blSof :: body.take count) =
            some ([] ++ body.take count) := by
        rw [stateAfter_append, waited, stateAfter_cons, opened]
        exact (receive_undecided prior).2
      rw [(parserAfter_collects initial _).waits_iff, collecting] at waits
      cases waits

/-- Within as many bytes as the longest body has, a busy parser reports a
frame or an error and waits again. -/
theorem parserAfter_ends
    (busy : (parserAfter initial history).state ≠ .waitSof) {bytes : List U8}
    (long : longestBody ≤ bytes.length) :
    ∃ before byte later, bytes = before ++ byte :: later ∧
      let fed := blFrameFeed
        (stateAfter frameFeed (parserAfter initial history) before) byte
      (fed.2 = .complete ∨ fed.2 = .error) ∧ fed.1.state = .waitSof := by
  have collects := parserAfter_collects initial history
  cases receiver : stateAfter frameGrammar.receive none history with
  | none => exact absurd (collects.waits_iff.mpr receiver) busy
  | some body =>
      obtain ⟨_earlier, _split, _waited, undecided⟩ :=
        receive_history history receiver
      obtain ⟨before, byte, later, event, split, decided⟩ :=
        receive_decides judgeFrame_bounded undecided
          (Nat.le_add_left_of_le long)
      rw [receiver] at collects
      have reached := (reports_simulation (fun _ _ byte collects =>
        frameFeed_receive byte collects) collects before).2
      obtain ⟨reported, waits⟩ := frameFeed_receive byte reached
      rw [decided] at reported waits
      exact ⟨before, byte, later, split, frameFeed_reported reported, waits⟩

/-- Whatever came before, bytes without a start marker leave the parser
waiting once there are as many as in the longest body. -/
theorem parserAfter_gap {gap : List U8} (long : longestBody ≤ gap.length)
    (noSof : blSof ∉ gap) :
    (stateAfter frameFeed (parserAfter initial history) gap).state =
      .waitSof := by
  have reached : ∀ parser : BlFrameParser, parser.state = .waitSof →
      ∀ rest, blSof ∉ rest →
        (stateAfter frameFeed parser rest).state = .waitSof := by
    intro parser waits rest absent
    have collects := (reports_waiting waits rest).2
    rwa [(receive_idle absent).2] at collects
  by_cases waits : (parserAfter initial history).state = .waitSof
  · exact reached _ waits gap noSof
  · obtain ⟨before, byte, later, rfl, _reported, ended⟩ :=
      parserAfter_ends initial waits long
    rw [stateAfter_append, stateAfter_cons]
    refine reached _ ended later (fun member => noSof ?_)
    exact List.mem_append_right _ (List.mem_cons_of_mem _ member)

end Reached

/-- In every state that it can reach the parser is in bounds and knows the
checksum of what it has read of the frame, and it leaves every frame within
the length of the longest one. -/
theorem blFrameFeed_bounded (initial : BlFrameParser) (history : List U8) :
    let parser := parserAfter initial history
    parser.InBounds ∧
    (parser.state ≠ .waitSof →
      ∃ earlier body, history = earlier ++ blSof :: body ∧
        (parserAfter initial earlier).state = .waitSof ∧
        (∀ count, count ≤ body.length →
          (parserAfter initial
            (earlier ++ blSof :: body.take count)).state ≠ .waitSof) ∧
        parser.runningCrc =
          blCrc32 0 (body.take (3 + parser.frame.len.toNat))) ∧
    (parser.state ≠ .waitSof →
      ∀ bytes : List U8, bytes.length = 519 →
        ∃ before byte later, bytes = before ++ byte :: later ∧
          let fed := blFrameFeed (stateAfter frameFeed parser before) byte
          (fed.2 = .complete ∨ fed.2 = .error) ∧
            fed.1.state = .waitSof) ∧
    (∀ gap : List U8, 519 ≤ gap.length → blSof ∉ gap →
      ∀ (cmd : U8) (payload frame : List U8) (outSize : Nat),
        blFrameEncode cmd payload outSize = some frame →
        reports frameFeed (stateAfter frameFeed parser gap) frame =
          List.replicate (7 + payload.length) none ++
            [some (.complete cmd payload)]) := by
  intro parser
  refine ⟨(parserAfter_collects initial history).inBounds, ?_, ?_, ?_⟩
  · intro busy
    obtain ⟨earlier, body, split, waited, collected, since⟩ :=
      parserAfter_busy initial busy
    exact ⟨earlier, body, split, waited, since, collected.runningCrc⟩
  · intro busy bytes length
    exact parserAfter_ends initial busy (Nat.le_of_eq length.symm)
  · intro gap long noSof cmd payload frame outSize encoded
    obtain ⟨short, rfl⟩ := blFrameEncode_wire encoded
    have waits := @parserAfter_gap initial history gap long noSof
    have front : (wireFrame cmd payload).length - 1 = 7 + payload.length := by
      rw [wireFrame_length short]
      omega
    rw [(reports_waiting waits _).1, (wireFrame_frames short).reported.1,
      front]

end Stm32Bootloader
