/-
How many frames a desynchronised receiver loses.

The frames that are lost come first, and end with the one that leaves the
parser waiting for a start marker.  The marker is not escaped, so a frame that
contains it can prolong the loss; frames without one end it as soon as the
longest frame body would have been read.
-/

import Stm32Bootloader.FrameStream

namespace Stm32Bootloader

open Framing LittleEndian

structure SentFrame where
  cmd : U8
  payload : List U8
  short : payload.length ≤ blMaxPayload

def SentFrame.bytes (frame : SentFrame) : List U8 :=
  wireFrame frame.cmd frame.payload

/-- The bytes of the frame and what a parser should report of it. -/
def SentFrame.entry (frame : SentFrame) : List U8 × FrameEvent :=
  (frame.bytes, .complete frame.cmd frame.payload)

/-- The start marker stands at the start of the frame only. -/
def SentFrame.MarkedOnce (frame : SentFrame) : Prop :=
  blSof ∉ frame.bytes.tail

/-- The longest body: command, length, payload and checksum. -/
def longestBody : Nat := 3 + blMaxPayload + 4

theorem SentFrame.bytes_length (frame : SentFrame) :
    frame.bytes.length = 8 + frame.payload.length :=
  wireFrame_length frame.short

theorem flatMap_entry (frames : List SentFrame) :
    (frames.map SentFrame.entry).flatMap Prod.fst =
      frames.flatMap SentFrame.bytes := by
  rw [List.flatMap_map]
  rfl

theorem entry_frames {frames : List SentFrame}
    {entry : List U8 × FrameEvent}
    (member : entry ∈ frames.map SentFrame.entry) :
    frameGrammar.Frames entry.2 entry.1 := by
  obtain ⟨frame, _member, rfl⟩ := List.mem_map.mp member
  exact wireFrame_frames frame.short

theorem entry_unique {frames : List SentFrame}
    {entry : List U8 × FrameEvent}
    (member : entry ∈ frames.map SentFrame.entry) (body : List U8)
    (accepted : frameGrammar.judge body = some entry.2) :
    frameGrammar.mark :: body = entry.1 := by
  obtain ⟨frame, _member, rfl⟩ := List.mem_map.mp member
  exact (judgeFrame_complete accepted).2

theorem judgeFrame_bounded (body : List U8)
    (long : longestBody ≤ body.length) :
    ∃ count, 0 < count ∧ count ≤ body.length ∧
      frameGrammar.judge (body.take count) ≠ none := by
  change ∃ count, 0 < count ∧ count ≤ body.length ∧
    judgeFrame (body.take count) ≠ none
  unfold longestBody blMaxPayload at long
  match body, long with
  | cmd :: low :: high :: rest, long =>
    simp only [List.length_cons] at long
    by_cases fits : blMaxPayload < (word16 low high).toNat
    · refine ⟨3, by decide, by simp only [List.length_cons]; omega, ?_⟩
      simp only [List.take_succ_cons, List.take_zero]
      rw [judgeFrame_cons]
      dsimp only
      rw [if_pos fits]
      exact Option.some_ne_none _
    · have short : (word16 low high).toNat ≤ 512 := Nat.le_of_not_lt fits
      refine ⟨(word16 low high).toNat + 4 + 3, by omega,
        by simp only [List.length_cons]; omega, ?_⟩
      simp only [List.take_succ_cons]
      rw [judgeFrame_cons]
      dsimp only
      rw [if_neg fits, if_neg (by rw [List.length_take]; omega)]
      split <;> exact Option.some_ne_none _

theorem flatMap_bytes_length (frames : List SentFrame) :
    8 * frames.length ≤ (frames.flatMap SentFrame.bytes).length := by
  induction frames with
  | nil => exact Nat.le_refl _
  | cons frame later ih =>
      rw [List.flatMap_cons, List.length_append, frame.bytes_length,
        List.length_cons]
      omega

/-- Lost frames come first, up to the first that finds the parser waiting;
without start markers inside the frames there are at most 65 of them, and
all but the last are shorter together than the longest body. -/
theorem blFrameFeed_resynchronises (initial : BlFrameParser)
    (history : List U8) (frames : List SentFrame) :
    let parser := parserAfter initial history
    ∃ lost, lost ≤ frames.length ∧
      heard frameFeed parser (frames.map SentFrame.entry) =
        List.replicate lost false ++
          List.replicate (frames.length - lost) true ∧
      (∀ count, count < frames.length →
        ((stateAfter frameFeed parser
            ((frames.take count).flatMap SentFrame.bytes)).state =
              .waitSof ↔ lost ≤ count)) ∧
      ((∀ frame, frame ∈ frames → frame.MarkedOnce) →
        (∀ count, count < lost →
          ((frames.take count).flatMap SentFrame.bytes).length <
            longestBody) ∧
        lost ≤ 65) := by
  intro parser
  have collects : Collects parser (stateAfter frameGrammar.receive none history) :=
    parserAfter_collects initial history
  have after : ∀ items, Collects (stateAfter frameFeed parser items)
      (stateAfter frameGrammar.receive none (history ++ items)) := by
    intro items
    rw [stateAfter_append _ _ history items]
    exact (reports_simulation (fun _ _ byte collects =>
      frameFeed_receive byte collects) collects items).2
  obtain ⟨lost, bound, heardEq, ready⟩ := heard_receive history
    (frames.map SentFrame.entry) (fun _ member => entry_frames member)
    (fun _ member => entry_unique member)
  simp only [List.length_map, ← List.map_take, flatMap_entry] at bound heardEq ready
  have waits : ∀ count, count < frames.length →
      ((stateAfter frameFeed parser
        ((frames.take count).flatMap SentFrame.bytes)).state = .waitSof ↔
          lost ≤ count) := fun count inside =>
    (after _).waits_iff.trans (ready count inside)
  refine ⟨lost, bound, ?_, waits, fun markedOnce => ?_⟩
  · rw [← heardEq]
    exact heard_simulation (fun _ _ byte collects =>
      frameFeed_receive byte collects) collects _
  have inTime : ∀ count, count < lost →
      ((frames.take count).flatMap SentFrame.bytes).length <
        longestBody := by
    intro count early
    by_contra long
    have ended := receive_ended judgeFrame_bounded history
      ((frames.take count).map SentFrame.entry)
      (fun _ member => entry_frames member)
      (by
        intro entry member
        obtain ⟨frame, inside, rfl⟩ := List.mem_map.mp member
        exact markedOnce frame (List.mem_of_mem_take inside))
      (by
        rw [flatMap_entry]
        exact Nat.le_of_not_lt long)
    rw [flatMap_entry] at ended
    have late := (ready count (by omega)).mp ended
    omega
  refine ⟨inTime, ?_⟩
  by_contra many
  have early := inTime 65 (by omega)
  have size := flatMap_bytes_length (frames.take 65)
  rw [List.length_take] at size
  unfold longestBody blMaxPayload at early
  omega

def BlFrameParser.zeroed : BlFrameParser :=
  { byteCount := 0
    runningCrc := 0
    receivedCrc := 0
    state := .waitSof
    frame := BlFrame.ofBytes 0 [] (Nat.zero_le _) }

def helloFrame : SentFrame := ⟨blCmdHello, [], Nat.zero_le _⟩

/-- The head of a WRITE that announces 512 bytes swallows three frames. -/
theorem abandonedWrite_swallows :
    (heard frameFeed
      (parserAfter .zeroed [blSof, blCmdWrite, 0x00, 0x02])
      (List.map SentFrame.entry
        [helloFrame, helloFrame, helloFrame])).count false = 3 := by
  have simulated := heard_simulation
    (fun _ _ byte collects => frameFeed_receive byte collects)
    (parserAfter_collects .zeroed [blSof, blCmdWrite, 0x00, 0x02])
    (List.map SentFrame.entry [helloFrame, helloFrame, helloFrame])
  have unheard : heard frameGrammar.receive
      (stateAfter frameGrammar.receive none
        [blSof, blCmdWrite, 0x00, 0x02])
      (List.map SentFrame.entry [helloFrame, helloFrame, helloFrame]) =
        [false, false, false] := by
    decide +kernel
  rw [simulated, unheard]
  rfl

end Stm32Bootloader
