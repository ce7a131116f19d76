/-
The wire protocol on the host, tools/blproto.py: its constants, and the
encoding and decoding of frames.

The host recomputes lengths and checksums on its own.  What the device encodes
it decodes to the same command and payload.
-/

import Stm32Bootloader.Frame

namespace Stm32Bootloader.Blproto

open LittleEndian

def sof : U8 := 0x7E
def protoVersion : Nat := 1
def maxPayload : Nat := 512
def frameOverhead : Nat := 8
def maxWriteData : Nat := (maxPayload - 4) / 8 * 8

def slotA : Nat := 0
def slotNone : Nat := 0xFF

def cmdHello : U8 := 0x01
def cmdEraseSlot : U8 := 0x02
def cmdWrite : U8 := 0x03
def cmdVerify : U8 := 0x04
def cmdSetActive : U8 := 0x05
def cmdReset : U8 := 0x06

def ok : U8 := 0x00
def errNotErased : U8 := 0x34

def crc32 (data : List U8) : U32 := blCrc32 0 data

/-- The reasons for which a frame is malformed. -/
inductive FrameError where
  | shorterThanOverhead
  | expectedSof (received : U8)
  | lengthMismatch (frame payload : Nat)
  | crcMismatch (received expected : U32)
  deriving DecidableEq, Repr

/-- A payload above the limit raises an error with its length. -/
def encodeFrame (cmd : U8) (payload : List U8) : Except Nat (List U8) :=
  if payload.length > maxPayload then .error payload.length
  else
    let body :=
      cmd :: (bytes16 (BitVec.ofNat 16 payload.length) ++ payload)
    .ok ([sof] ++ body ++ bytes32 (crc32 body))

def decodeFrame (frame : List U8) : Except FrameError (U8 × List U8) :=
  if frame.length < frameOverhead then .error .shorterThanOverhead
  else if frame.getD 0 0 ≠ sof then .error (.expectedSof (frame.getD 0 0))
  else
    let cmd := frame.getD 1 0
    let length := (word16At frame 2).toNat
    if frame.length ≠ frameOverhead + length then
      .error (.lengthMismatch frame.length length)
    else
      let payload := slice frame 4 length
      let received := word32At frame (4 + length)
      let expected := crc32 (slice frame 1 (3 + length))
      if received ≠ expected then .error (.crcMismatch received expected)
      else .ok (cmd, payload)

/-! ### Frames that the device encodes -/

theorem encoded_length {cmd : U8} {payload : List U8}
    (short : payload.length ≤ blMaxPayload) (rest : List U8) :
    (word16At (cmd :: (bytes16 (BitVec.ofNat 16 payload.length) ++ rest))
      1).toNat = payload.length := by
  have bound : payload.length ≤ 512 := short
  rw [← List.singleton_append, word16At_append_right [cmd] _ 1 0 rfl,
    word16At_bytes16]
  exact Nat.mod_eq_of_lt (by omega)

theorem decodeFrame_encode {cmd : U8} {payload : List U8} {outSize : Nat}
    {frame : List U8}
    (encoded : blFrameEncode cmd payload outSize = some frame) :
    decodeFrame frame = .ok (cmd, payload) := by
  obtain ⟨fits, _room, rfl⟩ := blFrameEncode_inv encoded
  generalize crcEq : blCrc32 0 (cmd ::
    (bytes16 (BitVec.ofNat 16 payload.length) ++ payload)) = crc
  generalize bodyEq : cmd ::
    (bytes16 (BitVec.ofNat 16 payload.length) ++ payload) = body
  rw [bodyEq] at crcEq
  have bodyLength : body.length = 3 + payload.length := by
    rw [← bodyEq, List.length_cons, List.length_append, bytes16_length]
    omega
  have frameLength : (blSof :: (body ++ bytes32 crc)).length =
      8 + payload.length := by
    rw [List.length_cons, List.length_append, bytes32_length, bodyLength]
    omega
  have length : (word16At (blSof :: (body ++ bytes32 crc)) 2).toNat =
      payload.length := by
    rw [← List.singleton_append, word16At_append_right [blSof] _ 2 1 rfl,
      ← bodyEq, List.cons_append, List.append_assoc]
    exact encoded_length fits _
  have data : slice (blSof :: (body ++ bytes32 crc)) 4 payload.length =
      payload := by
    rw [← bodyEq]
    exact List.take_left' rfl
  have covered : slice (blSof :: (body ++ bytes32 crc)) 1
      (3 + payload.length) = body := List.take_left' bodyLength
  have trailer : word32At (blSof :: (body ++ bytes32 crc))
      (4 + payload.length) = crc := by
    rw [← List.cons_append, word32At_append_right (blSof :: body) _ _ 0 (by
      rw [List.length_cons, bodyLength]
      omega)]
    have alone := word32At_bytes32 crc []
    rwa [List.append_nil] at alone
  have start : (blSof :: (body ++ bytes32 crc)).getD 0 0 = sof := rfl
  have command : (blSof :: (body ++ bytes32 crc)).getD 1 0 = cmd := by
    rw [← bodyEq]
    rfl
  unfold decodeFrame
  simp only [frameLength, length, data, covered, trailer, start, command,
    frameOverhead, crc32, crcEq, ne_eq, not_true_eq_false, if_false]
  rw [if_neg (by omega)]

end Stm32Bootloader.Blproto
