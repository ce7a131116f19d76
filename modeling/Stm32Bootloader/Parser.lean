/-
The incremental frame parser of bl_frame.c.

The fields of the parser are an encoding of the bytes it has collected since
the start marker.  Fed byte by byte it is the receiver of the frame grammar,
and the frames of that grammar with a correct checksum are those that
`bl_frame_encode` produces.
-/

import Stm32Bootloader.Frame
import Stm32Bootloader.Library.Framing

namespace Stm32Bootloader

open Framing LittleEndian

inductive BlFrameStatus where
  | incomplete
  | complete
  | error
  deriving DecidableEq, Repr

inductive BlFrameState where
  | waitSof
  | cmd
  | len
  | payload
  | crc
  deriving DecidableEq, Repr

structure BlFrameParser where
  byteCount : U16
  runningCrc : U32
  receivedCrc : U32
  state : BlFrameState
  frame : BlFrame

def BlFrame.withLen (frame : BlFrame) (len : U16)
    (fits : len.toNat ≤ blMaxPayload) : BlFrame :=
  { frame with len := len, lenFits := fits }

theorem byte_lenFits (byte : U8) :
    (byte.setWidth 16 : U16).toNat ≤ blMaxPayload := by
  have bound := byte.isLt
  simp only [blMaxPayload]
  bv_omega

def blFrameParserInit (p : BlFrameParser) : BlFrameParser :=
  { p with
    state := .waitSof
    byteCount := 0
    receivedCrc := 0
    runningCrc := 0
    frame := p.frame.withLen 0 (Nat.zero_le _) }

def blFrameFeed (p : BlFrameParser) (byte : U8) :
    BlFrameParser × BlFrameStatus :=
  match p.state with
  | .waitSof =>
      if byte = blSof then
        ({ p with
          state := .cmd
          byteCount := 0
          frame := p.frame.withLen 0 (Nat.zero_le _)
          runningCrc := 0
          receivedCrc := 0 }, .incomplete)
      else (p, .incomplete)
  | .cmd =>
      ({ p with
        frame := { p.frame with cmd := byte }
        runningCrc := blCrc32 p.runningCrc [byte]
        state := .len }, .incomplete)
  | .len =>
      let runningCrc := blCrc32 p.runningCrc [byte]
      if p.byteCount = 0 then
        ({ p with
          runningCrc := runningCrc
          frame := p.frame.withLen (byte.setWidth 16) (byte_lenFits byte)
          byteCount := p.byteCount + 1 }, .incomplete)
      else
        let len := p.frame.len ||| (byte.setWidth 16 <<< 8)
        if fits : len.toNat ≤ blMaxPayload then
          ({ p with
            runningCrc := runningCrc
            frame := p.frame.withLen len fits
            byteCount := 0
            state := if len = 0 then .crc else .payload }, .incomplete)
        else (blFrameParserInit p, .error)
  | .payload =>
      let byteCount := p.byteCount + 1
      let stored : BlFrameParser :=
        { p with
          runningCrc := blCrc32 p.runningCrc [byte]
          frame := { p.frame with
            payload := p.frame.payload.setIfInBounds p.byteCount.toNat
              byte } }
      if byteCount = p.frame.len then
        ({ stored with state := .crc, byteCount := 0 }, .incomplete)
      else ({ stored with byteCount := byteCount }, .incomplete)
  | .crc =>
      let receivedCrc :=
        p.receivedCrc ||| (byte.setWidth 32 <<< (8 * p.byteCount.toNat))
      let byteCount := p.byteCount + 1
      if byteCount = 4 then
        if p.runningCrc = receivedCrc then
          ({ p with
            receivedCrc := receivedCrc
            state := .waitSof
            byteCount := 0 }, .complete)
        else (blFrameParserInit p, .error)
      else
        ({ p with receivedCrc := receivedCrc, byteCount := byteCount },
          .incomplete)

/-- What a caller of `bl_frame_feed` acts on. -/
inductive FrameEvent where
  | complete (cmd : U8) (payload : List U8)
  | error
  deriving DecidableEq, Repr

/-- One call of `bl_frame_feed`, with the frame that is valid after it. -/
def frameFeed : Machine BlFrameParser U8 FrameEvent := fun p byte =>
  let (after, status) := blFrameFeed p byte
  (after,
    match status with
    | .incomplete => none
    | .complete => some (.complete after.frame.cmd after.frame.bytes)
    | .error => some .error)

/-! ### The grammar of frames -/

/-- The verdict on the bytes behind a start marker.  The length decides an
oversized frame, the last byte of the checksum any other. -/
def judgeFrame (body : List U8) : Option FrameEvent :=
  if body.length < 3 then none
  else
    let length := (word16At body 1).toNat
    if blMaxPayload < length then some .error
    else if body.length ≠ 3 + length + 4 then none
    else if blCrc32 0 (body.take (3 + length)) =
        word32At body (3 + length) then
      some (.complete (body.getD 0 0) (slice body 3 length))
    else some .error

def frameGrammar : Grammar U8 FrameEvent := ⟨blSof, judgeFrame⟩

theorem judgeFrame_short {body : List U8} (short : body.length < 3) :
    judgeFrame body = none := if_pos short

theorem judgeFrame_cons (cmd low high : U8) (rest : List U8) :
    judgeFrame (cmd :: low :: high :: rest) =
      let length := (word16 low high).toNat
      if blMaxPayload < length then some .error
      else if rest.length ≠ length + 4 then none
      else if blCrc32 0 (cmd :: low :: high :: rest.take length) =
          word32At rest length then
        some (.complete cmd (rest.take length))
      else some .error := by
  have total : (cmd :: low :: high :: rest).length = 3 + rest.length := by
    simp only [List.length_cons]
    omega
  have declared : word16At (cmd :: low :: high :: rest) 1 =
      word16 low high := rfl
  have covered : (cmd :: low :: high :: rest).take
      (3 + (word16 low high).toNat) =
        cmd :: low :: high :: rest.take (word16 low high).toNat := by
    rw [Nat.add_comm]
    rfl
  have trailer : word32At (cmd :: low :: high :: rest)
      (3 + (word16 low high).toNat) =
        word32At rest (word16 low high).toNat :=
    word32At_append_right [cmd, low, high] rest _ _ rfl
  have data : slice (cmd :: low :: high :: rest) 3
      (word16 low high).toNat = rest.take (word16 low high).toNat := rfl
  unfold judgeFrame
  rw [if_neg (by omega)]
  dsimp only
  rw [declared, total, covered, trailer, data]
  refine ite_congr rfl (fun _ => rfl) (fun _fits => ?_)
  by_cases complete : rest.length = (word16 low high).toNat + 4
  · rw [if_neg (not_not_intro complete), if_neg (by omega)]
    rfl
  · rw [if_pos complete, if_pos (by omega)]

theorem judgeFrame_open {cmd low high : U8} {rest : List U8}
    (fits : (word16 low high).toNat ≤ blMaxPayload)
    (missing : rest.length < (word16 low high).toNat + 4) :
    judgeFrame (cmd :: low :: high :: rest) = none := by
  rw [judgeFrame_cons]
  dsimp only
  rw [if_neg (Nat.not_lt.mpr fits), if_pos (Nat.ne_of_lt missing)]

/-! ### The parser is the receiver of the grammar -/

/-- The bytes behind the start marker that the fields of the parser encode. -/
inductive Collected (p : BlFrameParser) : List U8 → Prop where
  | start (state : p.state = .cmd) (count : p.byteCount = 0)
      (running : p.runningCrc = 0) (received : p.receivedCrc = 0) :
      Collected p []
  | cmd (state : p.state = .len) (count : p.byteCount = 0)
      (running : p.runningCrc = blCrc32 0 [p.frame.cmd])
      (received : p.receivedCrc = 0) :
      Collected p [p.frame.cmd]
  | low (low : U8) (state : p.state = .len) (count : p.byteCount = 1)
      (len : p.frame.len = low.setWidth 16)
      (running : p.runningCrc = blCrc32 0 [p.frame.cmd, low])
      (received : p.receivedCrc = 0) :
      Collected p [p.frame.cmd, low]
  | payload (low high : U8) (data : List U8) (state : p.state = .payload)
      (len : p.frame.len = word16 low high)
      (count : p.byteCount.toNat = data.length)
      (room : data.length < p.frame.len.toNat)
      (stored : p.frame.payload.toList.take data.length = data)
      (running : p.runningCrc =
        blCrc32 0 (p.frame.cmd :: low :: high :: data))
      (received : p.receivedCrc = 0) :
      Collected p (p.frame.cmd :: low :: high :: data)
  | crc (low high : U8) (trailer : List U8) (state : p.state = .crc)
      (len : p.frame.len = word16 low high)
      (count : p.byteCount.toNat = trailer.length)
      (room : trailer.length < 4)
      (running : p.runningCrc =
        blCrc32 0 (p.frame.cmd :: low :: high :: p.frame.bytes))
      (received : p.receivedCrc = word32At trailer 0) :
      Collected p (p.frame.cmd :: low :: high :: (p.frame.bytes ++ trailer))

def Collects (p : BlFrameParser) : Receiver U8 → Prop
  | none => p.state = .waitSof
  | some body => Collected p body

/-- One byte takes the parser and the receiver to the same report. -/
def Agrees (after : BlFrameParser × Option FrameEvent)
    (received : Receiver U8 × Option FrameEvent) : Prop :=
  after.2 = received.2 ∧ Collects after.1 received.1

theorem blCrc32_snoc (data : List U8) (byte : U8) :
    blCrc32 (blCrc32 0 data) [byte] = blCrc32 0 (data ++ [byte]) :=
  (blCrc32_append 0 data [byte]).symm

theorem Collected.cast {p : BlFrameParser} {body body' : List U8}
    (collected : Collected p body) (same : body = body') :
    Collected p body' := same ▸ collected

theorem bytes_empty {frame : BlFrame} (empty : frame.len = 0) :
    frame.bytes = [] := by
  rw [BlFrame.bytes, empty]
  rfl

section Steps

variable {p : BlFrameParser} (byte : U8)

theorem Collects.waiting (state : p.state = .waitSof) :
    Agrees (frameFeed p byte) (frameGrammar.receive none byte) := by
  unfold frameFeed blFrameFeed
  rw [state]
  dsimp only
  rw [Grammar.receive, frameGrammar]
  by_cases isSof : byte = blSof
  · rw [if_pos isSof, if_pos isSof]
    exact ⟨rfl, .start rfl rfl rfl rfl⟩
  · rw [if_neg isSof, if_neg isSof]
    exact ⟨rfl, state⟩

theorem receive_open {body : List U8}
    (open_ : judgeFrame (body ++ [byte]) = none) :
    frameGrammar.receive (some body) byte = (some (body ++ [byte]), none) := by
  have undecided : frameGrammar.judge (body ++ [byte]) = none := open_
  simp only [Grammar.receive, undecided]

theorem receive_closed {body : List U8} {event : FrameEvent}
    (closed : judgeFrame (body ++ [byte]) = some event) :
    frameGrammar.receive (some body) byte = (none, some event) := by
  have decided : frameGrammar.judge (body ++ [byte]) = some event := closed
  simp only [Grammar.receive, decided]

theorem Collected.startStep (state : p.state = .cmd)
    (count : p.byteCount = 0) (running : p.runningCrc = 0)
    (received : p.receivedCrc = 0) :
    Agrees (frameFeed p byte) (frameGrammar.receive (some []) byte) := by
  rw [receive_open byte (judgeFrame_short (by simp))]
  unfold frameFeed blFrameFeed
  rw [state]
  refine ⟨rfl, Collected.cmd rfl count ?_ received⟩
  rw [running]

theorem Collected.cmdStep (state : p.state = .len)
    (count : p.byteCount = 0)
    (running : p.runningCrc = blCrc32 0 [p.frame.cmd])
    (received : p.receivedCrc = 0) :
    Agrees (frameFeed p byte)
      (frameGrammar.receive (some [p.frame.cmd]) byte) := by
  rw [receive_open byte (judgeFrame_short (by simp))]
  unfold frameFeed blFrameFeed
  rw [state]
  dsimp only
  rw [if_pos count]
  refine ⟨rfl, Collected.low byte rfl ?_ rfl ?_ received⟩
  · rw [count]
    rfl
  · rw [running]
    exact blCrc32_snoc _ _

theorem Collected.lowStep (low : U8) (state : p.state = .len)
    (count : p.byteCount = 1) (len : p.frame.len = low.setWidth 16)
    (running : p.runningCrc = blCrc32 0 [p.frame.cmd, low])
    (received : p.receivedCrc = 0) :
    Agrees (frameFeed p byte)
      (frameGrammar.receive (some [p.frame.cmd, low]) byte) := by
  have nonzero : p.byteCount ≠ 0 := by
    rw [count]
    decide
  have declared : p.frame.len ||| (byte.setWidth 16 <<< 8) =
      word16 low byte := by
    rw [len]
    rfl
  unfold frameFeed blFrameFeed
  rw [state]
  dsimp only
  rw [if_neg nonzero]
  by_cases fits : (word16 low byte).toNat ≤ blMaxPayload
  · have open_ : judgeFrame ([p.frame.cmd, low] ++ [byte]) = none :=
      judgeFrame_open fits (by simp)
    rw [receive_open byte open_, dif_pos (by rw [declared]; exact fits)]
    have crcEq : blCrc32 p.runningCrc [byte] =
        blCrc32 0 [p.frame.cmd, low, byte] := by
      rw [running]
      exact blCrc32_snoc _ _
    refine ⟨rfl, ?_⟩
    by_cases empty : word16 low byte = 0
    · refine Collected.cast (Collected.crc low byte [] (if_pos ?_) declared
        rfl (Nat.succ_pos 3) ?_ received) ?_
      · exact declared.trans empty
      · rw [bytes_empty (declared.trans empty)]
        exact crcEq
      · rw [bytes_empty (declared.trans empty)]
        rfl
    · refine Collected.payload low byte [] (if_neg ?_) declared rfl ?_ rfl
        crcEq received
      · exact fun zero => empty (declared.symm.trans zero)
      · refine Nat.pos_of_ne_zero fun zero => empty ?_
        exact declared.symm.trans (BitVec.eq_of_toNat_eq zero)
  · have closed : judgeFrame ([p.frame.cmd, low] ++ [byte]) =
        some .error := by
      rw [List.cons_append, List.cons_append, List.nil_append,
        judgeFrame_cons]
      exact if_pos (Nat.lt_of_not_le fits)
    rw [receive_closed byte closed, dif_neg (by rw [declared]; exact fits)]
    exact ⟨rfl, rfl⟩

theorem Collected.payloadStep (low high : U8) (data : List U8)
    (state : p.state = .payload) (len : p.frame.len = word16 low high)
    (count : p.byteCount.toNat = data.length)
    (room : data.length < p.frame.len.toNat)
    (stored : p.frame.payload.toList.take data.length = data)
    (running : p.runningCrc =
      blCrc32 0 (p.frame.cmd :: low :: high :: data))
    (received : p.receivedCrc = 0) :
    Agrees (frameFeed p byte) (frameGrammar.receive
      (some (p.frame.cmd :: low :: high :: data)) byte) := by
  have fits := p.frame.lenFits
  have limit : p.frame.len.toNat ≤ 512 := fits
  have grown : (data ++ [byte]).length = data.length + 1 :=
    List.length_append
  have next : (p.byteCount + 1).toNat = data.length + 1 := by bv_omega
  have open_ : judgeFrame (p.frame.cmd :: low :: high :: data ++ [byte]) =
      none := by
    refine judgeFrame_open (by rw [← len]; exact fits) ?_
    rw [← len]
    change (data ++ [byte]).length < _
    omega
  have crcEq : blCrc32 p.runningCrc [byte] =
      blCrc32 0 (p.frame.cmd :: low :: high :: (data ++ [byte])) := by
    rw [running]
    exact blCrc32_snoc _ _
  have kept : (p.frame.payload.setIfInBounds p.byteCount.toNat
      byte).toList.take (data.length + 1) = data ++ [byte] := by
    rw [Vector.toList_setIfInBounds, count, List.take_add_one,
      List.take_set_of_le (Nat.le_refl _), stored,
      List.getElem?_set_self (by rw [Vector.length_toList]; omega)]
    rfl
  rw [receive_open byte open_]
  unfold frameFeed blFrameFeed
  rw [state]
  dsimp only
  by_cases last : p.byteCount + 1 = p.frame.len
  · rw [if_pos last]
    have full : p.frame.len.toNat = data.length + 1 := by
      rw [← last]
      exact next
    refine ⟨rfl, Collected.cast (Collected.crc low high [] rfl len rfl
      (Nat.succ_pos 3) ?_ received) ?_⟩
    · simp only [BlFrame.bytes, full, kept]
      exact crcEq
    · simp only [BlFrame.bytes, full, kept, List.append_nil]
      rfl
  · rw [if_neg last]
    refine ⟨rfl, Collected.payload low high (data ++ [byte]) rfl len ?_ ?_ ?_
      crcEq received⟩
    · rw [grown]
      exact next
    · rw [grown]
      have different : p.frame.len.toNat ≠ data.length + 1 := by
        intro same
        exact last (BitVec.eq_of_toNat_eq (next.trans same.symm))
      change data.length + 1 < p.frame.len.toNat
      omega
    · rw [grown]
      exact kept

theorem Collected.crcStep (low high : U8) (trailer : List U8)
    (state : p.state = .crc) (len : p.frame.len = word16 low high)
    (count : p.byteCount.toNat = trailer.length)
    (room : trailer.length < 4)
    (running : p.runningCrc =
      blCrc32 0 (p.frame.cmd :: low :: high :: p.frame.bytes))
    (received : p.receivedCrc = word32At trailer 0) :
    Agrees (frameFeed p byte) (frameGrammar.receive
      (some (p.frame.cmd :: low :: high :: (p.frame.bytes ++ trailer)))
      byte) := by
  have fits : (word16 low high).toNat ≤ blMaxPayload := by
    rw [← len]
    exact p.frame.lenFits
  have length : p.frame.bytes.length = (word16 low high).toNat := by
    rw [← len]
    exact p.frame.bytes_length
  have grown : (trailer ++ [byte]).length = trailer.length + 1 :=
    List.length_append
  have next : (p.byteCount + 1).toNat = trailer.length + 1 := by bv_omega
  have whole : p.frame.cmd :: low :: high :: (p.frame.bytes ++ trailer) ++
      [byte] =
        p.frame.cmd :: low :: high ::
          (p.frame.bytes ++ (trailer ++ [byte])) := by
    rw [← List.append_assoc]
    rfl
  have crcEq : p.receivedCrc |||
      (byte.setWidth 32 <<< (8 * p.byteCount.toNat)) =
        word32At (trailer ++ [byte]) 0 := by
    rw [word32At_snoc _ _ room, received, count]
  unfold frameFeed blFrameFeed
  rw [state]
  dsimp only
  rw [crcEq]
  by_cases last : p.byteCount + 1 = 4
  · have closing : (trailer ++ [byte]).length = 4 := by
      rw [grown, ← next, last]
      rfl
    have verdict : judgeFrame (p.frame.cmd :: low :: high ::
        (p.frame.bytes ++ trailer) ++ [byte]) =
          if p.runningCrc = word32At (trailer ++ [byte]) 0 then
            some (.complete p.frame.cmd p.frame.bytes)
          else some .error := by
      rw [whole, judgeFrame_cons, ← length]
      dsimp only
      rw [List.take_left, List.length_append, closing, running,
        word32At_append_right _ _ p.frame.bytes.length 0 rfl,
        if_neg (by rw [length]; exact Nat.not_lt.mpr fits),
        if_neg (not_not_intro rfl)]
    rw [if_pos last]
    by_cases matching : p.runningCrc = word32At (trailer ++ [byte]) 0
    · rw [if_pos matching] at verdict ⊢
      rw [receive_closed byte verdict]
      exact ⟨rfl, rfl⟩
    · rw [if_neg matching] at verdict ⊢
      rw [receive_closed byte verdict]
      exact ⟨rfl, rfl⟩
  · have early : (trailer ++ [byte]).length < 4 := by
      have different : trailer.length + 1 ≠ 4 := by
        intro same
        exact last (BitVec.eq_of_toNat_eq (next.trans same))
      omega
    have open_ : judgeFrame (p.frame.cmd :: low :: high ::
        (p.frame.bytes ++ trailer) ++ [byte]) = none := by
      rw [whole]
      refine judgeFrame_open fits ?_
      rw [List.length_append, length]
      omega
    rw [receive_open byte open_, if_neg last]
    refine ⟨rfl, Collected.cast (Collected.crc low high (trailer ++ [byte])
      rfl len ?_ early running rfl) whole.symm⟩
    rw [grown]
    exact next

/-- Byte by byte, the parser does what the receiver of the grammar does. -/
theorem frameFeed_receive {receiver : Receiver U8}
    (collects : Collects p receiver) :
    Agrees (frameFeed p byte) (frameGrammar.receive receiver byte) := by
  cases receiver with
  | none => exact Collects.waiting byte collects
  | some body =>
      have collected : Collected p body := collects
      cases collected with
      | start state count running received =>
          exact Collected.startStep byte state count running received
      | cmd state count running received =>
          exact Collected.cmdStep byte state count running received
      | low low state count len running received =>
          exact Collected.lowStep byte low state count len running received
      | payload low high data state len count room stored running received =>
          exact Collected.payloadStep byte low high data state len count room
            stored running received
      | crc low high trailer state len count room running received =>
          exact Collected.crcStep byte low high trailer state len count room
            running received

end Steps

end Stm32Bootloader
