/-
The port seam of bl_port.h: flash layout, erase, program and read, and the
jump to the application.

The device carries the flash contents, how the next erase and program calls
will end, and the log of port calls made so far.  A call succeeds, reports a
failure and leaves its region as it was, or is cut off by a loss of power with
a whole number of erase pages or write granules done.
-/

import Stm32Bootloader.Library.Interruptible
import Stm32Bootloader.Library.Memory
import Stm32Bootloader.Proto

namespace Stm32Bootloader

open Interruptible

/-! ### Layout -/

structure BlRegion where
  base : U32
  size : U32
  deriving DecidableEq, Repr

def BlRegion.Holds (region : BlRegion) (address : Nat) : Prop :=
  region.base.toNat ≤ address ∧
    address < region.base.toNat + region.size.toNat

instance (region : BlRegion) (address : Nat) :
    Decidable (region.Holds address) :=
  inferInstanceAs (Decidable (_ ∧ _))

def BlRegion.Apart (left right : BlRegion) : Prop :=
  Memory.Apart left.base.toNat left.size.toNat
    right.base.toNat right.size.toNat

instance (left right : BlRegion) : Decidable (left.Apart right) :=
  inferInstanceAs (Decidable (Memory.Apart _ _ _ _))

/-- The two arrays of `bl_layout_t`.  An array is a function of its index;
only the indices below `blSlotCount` and `blMetaCount` are entries. -/
structure BlLayout where
  slot : U8 → BlRegion
  metaRegion : U32 → BlRegion

/-- A region that starts and ends on page boundaries of its own pages. -/
def regionIsErasable (eraseGranularity : U32 → U32)
    (base size : U32) : Bool :=
  let granularity := eraseGranularity base
  if granularity = 0 then false
  else base % granularity = 0 && size % granularity = 0

def slotIsValid (slot : U8) : Bool := slot < blSlotCount

/-- `(uint8_t)((slot + 1u) % BL_SLOT_COUNT)`. -/
def otherSlot (slot : U8) : U8 := (slot + 1) % blSlotCount

theorem slotIsValid_iff (slot : U8) :
    slotIsValid slot = true ↔ slot.toNat < 2 := by
  unfold slotIsValid
  rw [decide_eq_true_iff]
  rfl

theorem slotIsValid_cases {slot : U8} (valid : slotIsValid slot = true) :
    slot = blSlotA ∨ slot = blSlotB := by
  have bound := (slotIsValid_iff slot).mp valid
  simp only [blSlotA, blSlotB]
  bv_omega

theorem metaIndex_cases {index : U32} (valid : index < blMetaCount) :
    index = 0 ∨ index = 1 := by
  simp only [blMetaCount] at valid
  bv_omega

theorem otherSlot_valid (slot : U8) :
    slotIsValid (otherSlot slot) = true := by
  rw [slotIsValid_iff]
  simp only [otherSlot, blSlotCount, BitVec.toNat_umod]
  exact Nat.mod_lt _ (by decide)

theorem otherSlot_otherSlot {slot : U8} (valid : slotIsValid slot = true) :
    otherSlot (otherSlot slot) = slot := by
  rcases slotIsValid_cases valid with rfl | rfl <;> decide

theorem otherSlot_ne {slot : U8} (valid : slotIsValid slot = true) :
    otherSlot slot ≠ slot := by
  rcases slotIsValid_cases valid with rfl | rfl <;> decide

theorem eq_otherSlot {slot target : U8} (valid : slotIsValid slot = true)
    (targetValid : slotIsValid target = true) (different : target ≠ slot) :
    target = otherSlot slot := by
  rcases slotIsValid_cases valid with rfl | rfl <;>
    rcases slotIsValid_cases targetValid with rfl | rfl <;>
    first | rfl | exact absurd rfl different

/-- A port meeting the contract of bl_port.h: every region fits the address
space and holds what is stored in it, pages are not shared between regions,
and regions do not overlap. -/
structure Port where
  layout : BlLayout
  writeGranularity : U32
  eraseGranularity : U32 → U32
  granule : writeGranularity = 8
  slotFits : ∀ slot, slotIsValid slot = true →
    (layout.slot slot).base.toNat + (layout.slot slot).size.toNat ≤ 2 ^ 32
  slotHoldsImage : ∀ slot, slotIsValid slot = true →
    blImgHdrRegion.toNat + 8 ≤ (layout.slot slot).size.toNat
  slotPages : ∀ slot, slotIsValid slot = true →
    regionIsErasable eraseGranularity (layout.slot slot).base
      (layout.slot slot).size = true
  metaHoldsRecord : ∀ index, index < blMetaCount →
    BlMeta.byteSize ≤ (layout.metaRegion index).size.toNat
  metaPages : ∀ index, index < blMetaCount →
    regionIsErasable eraseGranularity (layout.metaRegion index).base
      (layout.metaRegion index).size = true
  pageHoldsRecord : ∀ index, index < blMetaCount →
    BlMeta.byteSize ≤ (eraseGranularity (layout.metaRegion index).base).toNat
  slotsApart : (layout.slot blSlotA).Apart (layout.slot blSlotB)
  metaApart : (layout.metaRegion 0).Apart (layout.metaRegion 1)
  slotMetaApart : ∀ slot index, slotIsValid slot = true →
    index < blMetaCount → (layout.slot slot).Apart (layout.metaRegion index)

theorem Port.slots_apart (port : Port) {slot other : U8}
    (slotOk : slotIsValid slot = true) (otherOk : slotIsValid other = true)
    (different : other ≠ slot) :
    (port.layout.slot slot).Apart (port.layout.slot other) := by
  rcases slotIsValid_cases slotOk with rfl | rfl <;>
    rcases slotIsValid_cases otherOk with rfl | rfl
  · exact absurd rfl different
  · exact port.slotsApart
  · exact port.slotsApart.symm
  · exact absurd rfl different

/-! ### Devices -/

inductive FlashError where
  | unlock
  | erase
  | program
  | verify
  deriving DecidableEq, Repr

def FlashError.result : FlashError → BlResult
  | .unlock => .errFlashUnlock
  | .erase => .errFlashErase
  | .program => .errFlashProgram
  | .verify => .errFlashVerify

/-- How one erase or program call ends. -/
inductive FlashOutcome where
  | success
  | failure (error : FlashError)
  | powerLoss (units : Nat)
  deriving DecidableEq, Repr

def FlashOutcome.ofFault : Option FlashError → FlashOutcome
  | none => .success
  | some error => .failure error

/-- How many bytes of a call on `total` bytes have taken effect. -/
def FlashOutcome.extent (outcome : FlashOutcome)
    (granularity total : Nat) : Nat :=
  match outcome with
  | .success => total
  | .failure _ => 0
  | .powerLoss units => min total (units * granularity)

inductive PortCall where
  | erase (address length : U32) (outcome : FlashOutcome)
  | write (address : U32) (data : List U8) (outcome : FlashOutcome)
  | jump (address : U32)
  deriving DecidableEq, Repr

abbrev Flash := Nat → U8

structure Device where
  flash : Flash
  outcomes : List FlashOutcome
  calls : List PortCall

def PortCall.apply (port : Port) (flash : Flash) : PortCall → Flash
  | .erase address length outcome =>
      Memory.fill flash address.toNat
        (outcome.extent (port.eraseGranularity address).toNat length.toNat)
        0xFF
  | .write address data outcome =>
      Memory.store flash address.toNat
        (data.take
          (outcome.extent port.writeGranularity.toNat data.length))
  | .jump _ => flash

/-- The next erase or program call succeeds unless the device says how it
ends. -/
def Device.outcome (device : Device) : FlashOutcome :=
  device.outcomes.headD .success

def Device.called (port : Port) (device : Device) (call : PortCall) :
    Device :=
  { flash := call.apply port device.flash
    outcomes := device.outcomes.tail
    calls := device.calls ++ [call] }

abbrev PortM (α : Type) := Prog Device α

def FlashOutcome.conclude (outcome : FlashOutcome) (device : Device) :
    Outcome Device BlResult :=
  match outcome with
  | .success => .returned .ok device
  | .failure error => .returned error.result device
  | .powerLoss _ => .lost device

def blFlashErase (port : Port) (address length : U32) : PortM BlResult :=
  fun device =>
    device.outcome.conclude
      (device.called port (.erase address length device.outcome))

def blFlashWrite (port : Port) (address : U32) (data : List U8) :
    PortM BlResult :=
  fun device =>
    device.outcome.conclude
      (device.called port (.write address data device.outcome))

/-- Reads have no side effect; the host port reads any range of its flash. -/
def blFlashRead (flash : Flash) (address : U32) (length : Nat) :
    Except BlResult (List U8) :=
  .ok (Memory.load flash address.toNat length)

/-- The call returns when the port refuses the jump; the host port records
the request and returns in either case. -/
def blJumpToApp (port : Port) (address : U32) : PortM Unit :=
  fun device =>
    .returned () { device.called port (.jump address) with
      outcomes := device.outcomes }

def blPortCrc32 (crc : U32) (data : List U8) : U32 := blCrc32 crc data

def readFlash : PortM Flash :=
  fun device => .returned device.flash device

@[simp] theorem readFlash_bind {α : Type} (next : Flash → PortM α)
    (device : Device) :
    (readFlash >>= next) device = next device.flash device := rfl

/-! ### Calls and what they leave alone -/

theorem FlashError.result_ne_ok (error : FlashError) :
    error.result ≠ .ok := by
  cases error <;> decide

theorem FlashOutcome.extent_success (granularity total : Nat) :
    FlashOutcome.success.extent granularity total = total := rfl

theorem FlashOutcome.extent_le (outcome : FlashOutcome)
    (granularity total : Nat) : outcome.extent granularity total ≤ total := by
  cases outcome with
  | success => exact Nat.le_refl _
  | failure error => exact Nat.zero_le _
  | powerLoss units => exact Nat.min_le_left _ _

def replay (port : Port) (flash : Flash) (calls : List PortCall) : Flash :=
  calls.foldl (PortCall.apply port) flash

theorem replay_append (port : Port) (flash : Flash)
    (left right : List PortCall) :
    replay port flash (left ++ right) =
      replay port (replay port flash left) right :=
  List.foldl_append

theorem apply_erase (port : Port) (flash : Flash) (address length : U32)
    (outcome : FlashOutcome) :
    (PortCall.erase address length outcome).apply port flash =
      Memory.fill flash address.toNat
        (outcome.extent (port.eraseGranularity address).toNat length.toNat)
        0xFF := rfl

theorem apply_write (port : Port) (flash : Flash) (address : U32)
    (data : List U8) (outcome : FlashOutcome) :
    (PortCall.write address data outcome).apply port flash =
      Memory.store flash address.toNat
        (data.take (outcome.extent 8 data.length)) := by
  have granule : port.writeGranularity.toNat = 8 := by
    rw [port.granule]
    rfl
  rw [← granule]
  rfl

theorem apply_erase_agreesOutside (port : Port) (flash : Flash)
    (address length : U32) (outcome : FlashOutcome) :
    Memory.AgreesOutside address.toNat length.toNat flash
      ((PortCall.erase address length outcome).apply port flash) := by
  apply (Memory.fill_agreesOutside _ _ _ _).widen (Nat.le_refl _)
  have bound := outcome.extent_le
    (port.eraseGranularity address).toNat length.toNat
  omega

theorem apply_write_agreesOutside (port : Port) (flash : Flash)
    (address : U32) (data : List U8) (outcome : FlashOutcome) :
    Memory.AgreesOutside address.toNat data.length flash
      ((PortCall.write address data outcome).apply port flash) := by
  apply (Memory.store_agreesOutside _ _ _).widen (Nat.le_refl _)
  rw [List.length_take]
  omega

theorem apply_erase_failure (port : Port) (flash : Flash)
    (address length : U32) (error : FlashError) :
    (PortCall.erase address length (.failure error)).apply port flash =
      flash := by
  funext location
  exact Memory.fill_agreesOutside flash address.toNat 0 0xFF location
    (by omega)

theorem apply_write_failure (port : Port) (flash : Flash)
    (address : U32) (data : List U8) (error : FlashError) :
    (PortCall.write address data (.failure error)).apply port flash =
      flash := by
  funext location
  apply Memory.store_agreesOutside flash address.toNat
  simp only [FlashOutcome.extent, List.take_zero, List.length_nil]
  omega

/-! ### The host port -/

def hostLayout : BlLayout :=
  { slot := fun index =>
      if index = blSlotA then ⟨0x08009000, 0x0001B000⟩
      else ⟨0x08024000, 0x0001B000⟩
    metaRegion := fun index =>
      if index = 0 then ⟨0x08008000, 0x00000800⟩
      else ⟨0x08008800, 0x00000800⟩ }

def hostPort : Port :=
  { layout := hostLayout
    writeGranularity := 8
    eraseGranularity := fun _ => 2048
    granule := rfl
    slotFits := by
      intro slot valid
      rcases slotIsValid_cases valid with rfl | rfl <;> decide
    slotHoldsImage := by
      intro slot valid
      rcases slotIsValid_cases valid with rfl | rfl <;> decide
    slotPages := by
      intro slot valid
      rcases slotIsValid_cases valid with rfl | rfl <;> decide
    metaHoldsRecord := by
      intro index valid
      rcases metaIndex_cases valid with rfl | rfl <;> decide
    metaPages := by
      intro index valid
      rcases metaIndex_cases valid with rfl | rfl <;> decide
    pageHoldsRecord := by
      intro index valid
      decide
    slotsApart := by decide
    metaApart := by decide
    slotMetaApart := by
      intro slot index slotValid indexValid
      rcases slotIsValid_cases slotValid with rfl | rfl <;>
        rcases metaIndex_cases indexValid with rfl | rfl <;> decide }

end Stm32Bootloader
