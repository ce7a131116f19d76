/-
The jump to the application of bl_port_host.c.

The host port starts nothing.  It looks at the vector table, as the target
would, and records the jump or returns.  Of an image that has passed
validation only the two words of its vector table can be refused.
-/

import Stm32Bootloader.Boot
import Stm32Bootloader.HostContract

namespace Stm32Bootloader

open LittleEndian Memory

def hostSramBase : U32 := 0x20000000
def hostSramEnd : U32 := 0x20010000
def hostVtorAlignment : U32 := blImgHdrRegion

/-- `g_jumped` and `g_jump_target`. -/
structure HostJump where
  gJumped : Bool
  gJumpTarget : U32
  deriving DecidableEq, Repr

namespace HostJump

def blPortInit : HostJump := ⟨false, 0⟩

def findSlotForAddress (addr : U32) : Option (U32 × U32) :=
  [blSlotA, blSlotB].findSome? fun index =>
    let base := (hostLayout.slot index).base
    let slotEnd := base + (hostLayout.slot index).size
    if addr ≥ base ∧ addr < slotEnd then some (base, slotEnd) else none

def blJumpToApp (flash : Flash) (baseAddr : U32) (host : HostJump) :
    HostJump :=
  match findSlotForAddress baseAddr with
  | none => host
  | some (slotBase, slotEnd) =>
      if baseAddr % hostVtorAlignment ≠ 0 then host
      else if ¬ flashRangeValid baseAddr 8 then host
      else
        let initialMsp := word32At (load flash baseAddr.toNat 8) 0
        let resetVector := word32At (load flash baseAddr.toNat 8) 4
        if initialMsp < hostSramBase ∨ initialMsp > hostSramEnd then host
        else if initialMsp &&& 3 ≠ 0 then host
        else if resetVector &&& 1 = 0 then host
        else
          let resetAddr := resetVector &&& ~~~1
          if resetAddr < slotBase ∨ resetAddr ≥ slotEnd then host
          else ⟨true, baseAddr⟩

/-! ### What is accepted -/

/-- An initial stack pointer into the RAM and a Thumb entry point into the
slot. -/
structure VectorTable (region : BlRegion) (initialMsp resetVector : U32) :
    Prop where
  stackLower : 0x20000000 ≤ initialMsp.toNat
  stackUpper : initialMsp.toNat ≤ 0x20010000
  stackAligned : initialMsp.toNat % 4 = 0
  thumb : resetVector.toNat % 2 = 1
  inside : region.Holds (resetVector.toNat - 1)

theorem findSlotForAddress_slot {slot : U8}
    (slotOk : slotIsValid slot = true) {addr : U32}
    (inside : (hostLayout.slot slot).Holds addr.toNat) :
    findSlotForAddress addr = some ((hostLayout.slot slot).base,
      (hostLayout.slot slot).base + (hostLayout.slot slot).size) := by
  obtain ⟨lower, upper⟩ := inside
  rcases slotIsValid_cases slotOk with rfl | rfl
  · have here : addr ≥ (hostLayout.slot blSlotA).base ∧
        addr < (hostLayout.slot blSlotA).base +
          (hostLayout.slot blSlotA).size := by
      simp only [hostLayout, if_pos] at lower upper ⊢
      bv_omega
    unfold findSlotForAddress
    rw [List.findSome?_cons]
    dsimp only
    rw [if_pos here]
  · have elsewhere : ¬ (addr ≥ (hostLayout.slot blSlotA).base ∧
        addr < (hostLayout.slot blSlotA).base +
          (hostLayout.slot blSlotA).size) := by
      have layoutA : hostLayout.slot blSlotA =
        ⟨0x08009000, 0x0001B000⟩ := rfl
      have layoutB : hostLayout.slot blSlotB =
        ⟨0x08024000, 0x0001B000⟩ := rfl
      rw [layoutB] at lower
      rw [layoutA]
      bv_omega
    have here : addr ≥ (hostLayout.slot blSlotB).base ∧
        addr < (hostLayout.slot blSlotB).base +
          (hostLayout.slot blSlotB).size := by
      have layoutB : hostLayout.slot blSlotB =
        ⟨0x08024000, 0x0001B000⟩ := rfl
      rw [layoutB] at lower upper ⊢
      bv_omega
    unfold findSlotForAddress
    rw [List.findSome?_cons]
    dsimp only
    rw [if_neg elsewhere, List.findSome?_cons]
    dsimp only
    rw [if_pos here]

theorem masked_mod (word : U32) (bits : Nat) (small : bits ≤ 8) :
    (word &&& BitVec.ofNat 32 (2 ^ bits - 1) = 0) ↔
      word.toNat % 2 ^ bits = 0 := by
  have mask : (BitVec.ofNat 32 (2 ^ bits - 1)).toNat = 2 ^ bits - 1 := by
    have bound : 2 ^ bits ≤ 2 ^ 8 :=
      Nat.pow_le_pow_right (by decide) small
    rw [BitVec.toNat_ofNat]
    exact Nat.mod_eq_of_lt (by omega)
  have masked : (word &&& BitVec.ofNat 32 (2 ^ bits - 1)).toNat =
      word.toNat % 2 ^ bits := by
    rw [BitVec.toNat_and, mask, Nat.and_two_pow_sub_one_eq_mod]
  rw [← masked]
  constructor
  · intro zero
    rw [zero]
    rfl
  · exact fun zero => BitVec.eq_of_toNat_eq zero

theorem reset_address (resetVector : U32)
    (thumb : resetVector.toNat % 2 = 1) :
    (resetVector &&& ~~~1).toNat = resetVector.toNat - 1 := by
  have apart : (resetVector &&& ~~~1) &&& (resetVector &&& 1) = 0 := by
    have regrouped : (resetVector &&& ~~~1) &&& (resetVector &&& 1) =
        (resetVector &&& resetVector) &&& (~~~1 &&& 1) := by ac_rfl
    have disjoint : (~~~1 &&& 1 : U32) = 0 := rfl
    rw [regrouped, disjoint]
    exact BitVec.and_zero
  have whole : (resetVector &&& ~~~1) + (resetVector &&& 1) =
      resetVector := by
    rw [BitVec.add_eq_or_of_and_eq_zero _ _ apart, ← BitVec.and_or_distrib_left]
    exact BitVec.and_allOnes
  have low : (resetVector &&& 1).toNat = 1 := by
    rw [BitVec.toNat_and]
    exact (Nat.and_two_pow_sub_one_eq_mod resetVector.toNat 1).trans thumb
  bv_omega

def Startable (flash : Flash) (slot : U8) (hdr : BlImgHdr) : Prop :=
  let base := (appBase hostLayout slot hdr).toNat
  VectorTable (hostLayout.slot slot) (word32At (load flash base 8) 0)
    (word32At (load flash base 8) 4)

instance (region : BlRegion) (initialMsp resetVector : U32) :
    Decidable (VectorTable region initialMsp resetVector) :=
  decidable_of_iff
    (0x20000000 ≤ initialMsp.toNat ∧ initialMsp.toNat ≤ 0x20010000 ∧
      initialMsp.toNat % 4 = 0 ∧ resetVector.toNat % 2 = 1 ∧
      region.Holds (resetVector.toNat - 1))
    ⟨fun ⟨lower, upper, aligned, thumb, inside⟩ =>
      ⟨lower, upper, aligned, thumb, inside⟩,
    fun table => ⟨table.stackLower, table.stackUpper, table.stackAligned,
      table.thumb, table.inside⟩⟩

instance (flash : Flash) (slot : U8) (hdr : BlImgHdr) :
    Decidable (Startable flash slot hdr) :=
  inferInstanceAs (Decidable (VectorTable _ _ _))

theorem ValidImage.address {flash : Flash} {slot : U8} {hdr : BlImgHdr}
    (image : ValidImage hostLayout flash slot hdr) :
    let base := appBase hostLayout slot hdr
    (hostLayout.slot slot).Holds base.toNat ∧
      base % hostVtorAlignment = 0 ∧ flashRangeValid base 8 = true := by
  have aligned := entryAligned_iff.mp image.entryAligned
  have upper := image.entryUpper
  have valid := image.slotOk
  intro base
  have alignment : hostVtorAlignment.toNat = 512 := rfl
  have layoutA : hostLayout.slot blSlotA = ⟨0x08009000, 0x0001B000⟩ := rfl
  have layoutB : hostLayout.slot blSlotB = ⟨0x08024000, 0x0001B000⟩ := rfl
  rcases slotIsValid_cases valid with rfl | rfl
  · rw [layoutA] at upper
    have baseEq : base.toNat = 0x08009000 + hdr.entryOffset.toNat := by
      simp only [base, appBase, layoutA]
      bv_omega
    rw [layoutA]
    refine ⟨⟨?_, ?_⟩, BitVec.eq_of_toNat_eq ?_, ?_⟩
    · bv_omega
    · bv_omega
    · rw [BitVec.toNat_umod, alignment]
      change base.toNat % 512 = 0
      omega
    · exact flashRangeValid_inside (by omega) (by bv_omega)
  · rw [layoutB] at upper
    have baseEq : base.toNat = 0x08024000 + hdr.entryOffset.toNat := by
      simp only [base, appBase, layoutB]
      bv_omega
    rw [layoutB]
    refine ⟨⟨?_, ?_⟩, BitVec.eq_of_toNat_eq ?_, ?_⟩
    · bv_omega
    · bv_omega
    · rw [BitVec.toNat_umod, alignment]
      change base.toNat % 512 = 0
      omega
    · exact flashRangeValid_inside (by omega) (by bv_omega)

theorem vectorTable_checks {slot : U8} (slotOk : slotIsValid slot = true)
    (initialMsp resetVector : U32) (started host : HostJump) :
    (if initialMsp < hostSramBase ∨ initialMsp > hostSramEnd then host
      else if initialMsp &&& 3 ≠ 0 then host
      else if resetVector &&& 1 = 0 then host
      else if resetVector &&& ~~~1 < (hostLayout.slot slot).base ∨
          resetVector &&& ~~~1 ≥ (hostLayout.slot slot).base +
            (hostLayout.slot slot).size then host
      else started) =
      if VectorTable (hostLayout.slot slot) initialMsp resetVector then
        started
      else host := by
  have stack := masked_mod initialMsp 2 (by decide)
  have odd := masked_mod resetVector 1 (by decide)
  have ramBase : hostSramBase.toNat = 0x20000000 := rfl
  have ramEnd : hostSramEnd.toNat = 0x20010000 := rfl
  have slotEnd : ((hostLayout.slot slot).base +
      (hostLayout.slot slot).size).toNat =
      (hostLayout.slot slot).base.toNat +
        (hostLayout.slot slot).size.toNat := by
    rcases slotIsValid_cases slotOk with rfl | rfl <;> rfl
  by_cases table : VectorTable (hostLayout.slot slot) initialMsp resetVector
  · have table' := table
    obtain ⟨lower, upper, word, thumb, entryLower, entryUpper⟩ := table'
    have address := reset_address resetVector thumb
    have notEven : ¬ resetVector &&& 1 = 0 := by
      intro zero
      have even := odd.mp zero
      omega
    have inRam : ¬ (initialMsp < hostSramBase ∨
        initialMsp > hostSramEnd) := by bv_omega
    have inSlot : ¬ (resetVector &&& ~~~1 < (hostLayout.slot slot).base ∨
        resetVector &&& ~~~1 ≥ (hostLayout.slot slot).base +
          (hostLayout.slot slot).size) := by bv_omega
    have aligned : ¬ initialMsp &&& 3 ≠ 0 := not_not_intro (stack.mpr word)
    rw [if_neg inRam, if_neg aligned, if_neg notEven, if_neg inSlot,
      if_pos table]
  · rw [if_neg table]
    refine ite_eq_left_iff.mpr fun inRam => ?_
    refine ite_eq_left_iff.mpr fun word => ?_
    refine ite_eq_left_iff.mpr fun thumb => ?_
    refine ite_eq_left_iff.mpr fun entry => absurd ?_ table
    have notEven : resetVector.toNat % 2 = 1 := by
      have mixed : ¬ resetVector.toNat % 2 ^ 1 = 0 := fun even =>
        thumb (odd.mpr even)
      omega
    have address := reset_address resetVector notEven
    exact ⟨by bv_omega, by bv_omega, stack.mp (Decidable.not_not.mp word),
      notEven, by bv_omega, by bv_omega⟩

/-- The jump into a validated image is made exactly when its vector table can
be used. -/
theorem blJumpToApp_validated {flash : Flash} {slot : U8} {hdr : BlImgHdr}
    (accepted : blCoreValidateSlot hostLayout flash slot = .ok hdr)
    (host : HostJump) :
    blJumpToApp flash (appBase hostLayout slot hdr) host =
      if Startable flash slot hdr then
        ⟨true, appBase hostLayout slot hdr⟩
      else host := by
  have image : ValidImage hostLayout flash slot hdr :=
    (blCoreValidateSlot_ok_iff hostPort).mp accepted
  obtain ⟨inside, aligned, ranged⟩ := ValidImage.address image
  unfold blJumpToApp
  rw [findSlotForAddress_slot image.slotOk inside]
  dsimp only
  rw [if_neg (not_not_intro aligned), if_neg (not_not_intro ranged)]
  exact vectorTable_checks image.slotOk _ _ _ host

end HostJump

end Stm32Bootloader
