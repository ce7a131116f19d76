/-
The table that the bootloader publishes to the application, bl_api.c.

The application looks the table up at a fixed address before it calls through
it.  The lookup accepts the bytes of a table with a function in the region and
nothing else.  The table lies where no request, boot or confirmation writes,
so an application finds it at every time or at none.
-/

import Stm32Bootloader.Containment

namespace Stm32Bootloader

open Interruptible LittleEndian Memory TransitionRun

def blApiMagic : U32 := 0x49504142
def blApiVersion : U16 := 1
def blApiAddress : U32 := 0x08000200

/-- `bl_api_t`.  A pointer is the address that it holds. -/
structure BlApi where
  magic : U32
  version : U16
  size : U16
  confirm : Nat
  deriving DecidableEq, Repr

namespace BlApi

/-- `sizeof(bl_api_t)` where pointers have so many bytes. -/
def byteSize (pointerBytes : Nat) : Nat := 8 + pointerBytes

def ofBytes (bytes : List U8) : BlApi :=
  { magic := word32At bytes 0
    version := word16At bytes 4
    size := word16At bytes 6
    confirm := natOfBytes (bytes.drop 8) }

def toBytes (pointerBytes : Nat) (table : BlApi) : List U8 :=
  bytes32 table.magic ++ bytes16 table.version ++ bytes16 table.size ++
    bytesOfNat pointerBytes table.confirm

end BlApi

/-- `bl_api_table`, linked with `bl_core_confirm` at this address. -/
def blApiTable (pointerBytes confirm : Nat) : BlApi :=
  { magic := blApiMagic
    version := blApiVersion
    size := BitVec.ofNat 16 (BlApi.byteSize pointerBytes)
    confirm := confirm }

def addressInRegion (value regionBase regionSize : Nat) : Bool :=
  if value = 0 then false
  else if value < regionBase then false
  else value - regionBase < regionSize

/-- The address of the table, or `none` for NULL. -/
def blApiLookup (pointerBytes : Nat) (memory : Flash)
    (address regionBase regionSize : Nat) : Option Nat :=
  if address = 0 ∨ regionSize = 0 then none
  else
    let candidate := BlApi.ofBytes
      (load memory address (BlApi.byteSize pointerBytes))
    if candidate.magic ≠ blApiMagic then none
    else if candidate.version ≠ blApiVersion then none
    else if candidate.size ≠ BitVec.ofNat 16 (BlApi.byteSize pointerBytes)
      then none
    else if ¬ addressInRegion candidate.confirm regionBase regionSize then
      none
    else some address

/-! ### What is accepted -/

section Accepted

variable {pointerBytes : Nat}

theorem BlApi.ofBytes_toBytes {table : BlApi}
    (fits : table.confirm < 256 ^ pointerBytes) :
    BlApi.ofBytes (table.toBytes pointerBytes) = table := by
  unfold BlApi.toBytes
  simp only [List.append_assoc]
  have magic := word32At_bytes32 table.magic (bytes16 table.version ++
    (bytes16 table.size ++ bytesOfNat pointerBytes table.confirm))
  have version := word16At_bytes16 table.version (bytes16 table.size ++
    bytesOfNat pointerBytes table.confirm)
  have size := word16At_bytes16 table.size
    (bytesOfNat pointerBytes table.confirm)
  unfold BlApi.ofBytes
  rw [magic, word16At_append_right _ _ 4 0 rfl, version,
    word16At_append_right _ _ 6 2 rfl, word16At_append_right _ _ 2 0 rfl,
    size]
  congr 1
  exact natOfBytes_bytesOfNat fits

theorem BlApi.toBytes_ofBytes {bytes : List U8}
    (size : bytes.length = BlApi.byteSize pointerBytes) :
    (BlApi.ofBytes bytes).toBytes pointerBytes = bytes := by
  unfold BlApi.byteSize at size
  have pointer : (bytes.drop 8).length = pointerBytes := by
    rw [List.length_drop, size, Nat.add_sub_cancel_left]
  have rest := bytesOfNat_natOfBytes (bytes.drop 8)
  rw [pointer] at rest
  unfold BlApi.ofBytes BlApi.toBytes
  dsimp only
  rw [bytes32_slice bytes (by omega), bytes16_slice bytes (by omega),
    bytes16_slice bytes (by omega), slice_append, slice_append, rest]
  exact List.take_append_drop 8 bytes

theorem addressInRegion_iff (value regionBase regionSize : Nat) :
    addressInRegion value regionBase regionSize = true ↔
      value ≠ 0 ∧ regionBase ≤ value ∧ value < regionBase + regionSize := by
  unfold addressInRegion
  split
  · rename_i zero
    exact iff_of_false Bool.false_ne_true fun all => all.1 zero
  · rename_i nonzero
    split
    · rename_i below
      exact iff_of_false Bool.false_ne_true fun all => by omega
    · rw [decide_eq_true_eq]
      omega

/-- The address holds a table that the bootloader could publish, with the
address of a function in the region. -/
structure Published (pointerBytes : Nat) (memory : Flash)
    (address regionBase regionSize confirm : Nat) : Prop where
  nonzero : confirm ≠ 0
  lower : regionBase ≤ confirm
  upper : confirm < regionBase + regionSize
  fits : confirm < 256 ^ pointerBytes
  bytes : load memory address (BlApi.byteSize pointerBytes) =
    (blApiTable pointerBytes confirm).toBytes pointerBytes

theorem Published.candidate {memory : Flash}
    {address regionBase regionSize confirm : Nat}
    (published : Published pointerBytes memory address regionBase regionSize
      confirm) :
    BlApi.ofBytes (load memory address (BlApi.byteSize pointerBytes)) =
      blApiTable pointerBytes confirm := by
  rw [published.bytes]
  exact BlApi.ofBytes_toBytes published.fits

theorem blApiLookup_iff (memory : Flash)
    (address regionBase regionSize found : Nat) :
    blApiLookup pointerBytes memory address regionBase regionSize =
        some found ↔
      found = address ∧ address ≠ 0 ∧ ∃ confirm,
        Published pointerBytes memory address regionBase regionSize
          confirm := by
  constructor
  · intro accepted
    unfold blApiLookup at accepted
    split at accepted
    · cases accepted
    rename_i present
    dsimp only at accepted
    split at accepted
    · cases accepted
    rename_i magic
    split at accepted
    · cases accepted
    rename_i version
    split at accepted
    · cases accepted
    rename_i size
    split at accepted
    · cases accepted
    rename_i inside
    rw [Decidable.not_not] at magic version size inside
    obtain ⟨nonzero, lower, upper⟩ :=
      (addressInRegion_iff _ _ _).mp inside
    refine ⟨(Option.some.inj accepted).symm, fun zero =>
      present (Or.inl zero), _, nonzero, lower, upper, ?_, ?_⟩
    · have bound := natOfBytes_lt
        ((load memory address (BlApi.byteSize pointerBytes)).drop 8)
      rw [List.length_drop, load_length, BlApi.byteSize,
        Nat.add_sub_cancel_left] at bound
      exact bound
    · have whole : BlApi.ofBytes
          (load memory address (BlApi.byteSize pointerBytes)) =
            blApiTable pointerBytes (BlApi.ofBytes (load memory address
              (BlApi.byteSize pointerBytes))).confirm := by
        unfold blApiTable
        rw [← magic, ← version, ← size]
      rw [← whole]
      exact (BlApi.toBytes_ofBytes (load_length _ _ _)).symm
  · rintro ⟨rfl, notNull, confirm, published⟩
    have present : ¬ (found = 0 ∨ regionSize = 0) := by
      rintro (zero | empty)
      · exact notNull zero
      · have lower := published.lower
        have upper := published.upper
        omega
    have inside : addressInRegion confirm regionBase regionSize = true :=
      (addressInRegion_iff _ _ _).mpr
        ⟨published.nonzero, published.lower, published.upper⟩
    unfold blApiLookup
    rw [if_neg present, published.candidate]
    dsimp only [blApiTable]
    rw [if_neg (not_not_intro rfl), if_neg (not_not_intro rfl),
      if_neg (not_not_intro rfl), if_neg (not_not_intro inside)]

end Accepted

example : blApiLookup 4 (fun _ => 0xFF) blApiAddress.toNat 0x08000000 0x8000 =
    none := by decide

/-! ### The table over time -/

section Runs

variable {pointerBytes regionBase regionSize : Nat}

/-- The bytes at the address of the table on the host port, where bytes up to
0x08008000 are reserved for the bootloader. -/
theorem systemStep_table (width : pointerBytes ≤ 8) {system : System}
    (targetOk : slotIsValid system.session.targetSlot = true) (step : Step) :
    load (systemStep hostPort system step).flash blApiAddress.toNat
        (BlApi.byteSize pointerBytes) =
      load system.flash blApiAddress.toNat
        (BlApi.byteSize pointerBytes) := by
  apply load_congr
  intro index inside
  have place : blApiAddress.toNat = 0x08000200 := rfl
  unfold BlApi.byteSize at inside
  apply (systemStep_contained hostPort system step targetOk).outside targetOk
  · rintro slot slotOk ⟨lower, _upper⟩
    have above : 0x08009000 ≤ (hostPort.layout.slot slot).base.toNat := by
      rcases slotIsValid_cases slotOk with rfl | rfl <;> decide
    omega
  · rintro region valid ⟨lower, _upper⟩
    have above : 0x08008000 ≤
        (hostPort.layout.metaRegion region).base.toNat := by
      rcases metaIndex_cases valid with rfl | rfl <;> decide
    omega

/-- A confirmation by the application: it looks the table up and calls through
it.  `code` is what the code at an address does. -/
def apiConfirm (code : Nat → PortM BlResult)
    (pointerBytes regionBase regionSize : Nat) (system : System)
    (outcomes : List FlashOutcome) : System :=
  match blApiLookup pointerBytes system.flash blApiAddress.toNat regionBase
      regionSize with
  | none => system
  | some address =>
      let table := BlApi.ofBytes
        (load system.flash address (BlApi.byteSize pointerBytes))
      System.ended (fun _ => system.session)
        (code table.confirm (system.device outcomes))

/-- A step of the device whose application confirms through the table. -/
def apiStep (code : Nat → PortM BlResult)
    (pointerBytes regionBase regionSize : Nat) (system : System)
    (step : Step) : System :=
  match step.op with
  | .confirm =>
      apiConfirm code pointerBytes regionBase regionSize system step.outcomes
  | _ => systemStep hostPort system step

def Op.isConfirm : Op → Bool
  | .confirm => true
  | _ => false

theorem blApiLookup_congr {before after : Flash} {address : Nat}
    (same : load after address (BlApi.byteSize pointerBytes) =
      load before address (BlApi.byteSize pointerBytes)) :
    blApiLookup pointerBytes after address regionBase regionSize =
      blApiLookup pointerBytes before address regionBase regionSize := by
  unfold blApiLookup
  rw [same]

/-- The session names a slot, and the table is as it was in this flash. -/
structure KeepsTable (pointerBytes : Nat) (flash : Flash)
    (system : System) : Prop where
  targetOk : slotIsValid system.session.targetSlot = true
  table : load system.flash blApiAddress.toNat
      (BlApi.byteSize pointerBytes) =
    load flash blApiAddress.toNat (BlApi.byteSize pointerBytes)

variable {flash : Flash} {system : System}

theorem keepsTable_run (width : pointerBytes ≤ 8) (flash : Flash)
    (steps : List Step) :
    KeepsTable pointerBytes flash
      (run (systemStep hostPort) (System.initial flash) steps) :=
  run_invariant (KeepsTable pointerBytes flash)
    ⟨BlSession.zeroed_targetOk, rfl⟩
    (fun system step keeps =>
      ⟨systemStep_targetOk hostPort system step keeps.targetOk,
        (systemStep_table width keeps.targetOk step).trans keeps.table⟩)
    steps

theorem apiStep_published {code : Nat → PortM BlResult}
    (keeps : KeepsTable pointerBytes flash system) {confirm : Nat}
    (published : Published pointerBytes flash blApiAddress.toNat regionBase
      regionSize confirm)
    (linked : code confirm = blCoreConfirm hostPort) (step : Step) :
    apiStep code pointerBytes regionBase regionSize system step =
      systemStep hostPort system step := by
  obtain ⟨op, outcomes⟩ := step
  cases op with
  | request frame responseSize => rfl
  | boot => rfl
  | powerCycle => rfl
  | confirm =>
      have found := (blApiLookup_iff flash blApiAddress.toNat regionBase
        regionSize blApiAddress.toNat).mpr
          ⟨rfl, by decide, confirm, published⟩
      have candidate := published.candidate
      unfold apiStep apiConfirm
      dsimp only
      rw [blApiLookup_congr keeps.table, found]
      dsimp only
      rw [keeps.table, candidate]
      exact congrArg (fun body : PortM BlResult =>
        System.ended (fun _ => system.session) (body (system.device outcomes)))
        linked

theorem apiStep_refused {code : Nat → PortM BlResult}
    (keeps : KeepsTable pointerBytes flash system)
    (refused : blApiLookup pointerBytes flash blApiAddress.toNat regionBase
      regionSize = none) (step : Step) :
    apiStep code pointerBytes regionBase regionSize system step =
      if step.op.isConfirm then system
      else systemStep hostPort system step := by
  obtain ⟨op, outcomes⟩ := step
  cases op with
  | request frame responseSize => rfl
  | boot => rfl
  | powerCycle => rfl
  | confirm =>
      unfold apiStep apiConfirm
      dsimp only
      rw [blApiLookup_congr keeps.table, refused]
      rfl

/-- The lookup accepts a table that could be published and nothing else.  At
the address of the bootloader's table it finds one after every run or after
none, as it does at the start: an application that finds it confirms as
`bl_core_confirm` does, and one that does not find it confirms nothing. -/
theorem apiTable_everyRun (code : Nat → PortM BlResult)
    (width : pointerBytes ≤ 8) (flash : Flash)
    (linked : ∀ confirm, Published pointerBytes flash blApiAddress.toNat
      regionBase regionSize confirm → code confirm = blCoreConfirm hostPort)
    (steps : List Step) :
    let lookup := fun memory => blApiLookup pointerBytes memory
      blApiAddress.toNat regionBase regionSize
    let reached := run (apiStep code pointerBytes regionBase regionSize)
      (System.initial flash) steps
    (∀ (bytes : Nat) (memory : Flash) (address base size found : Nat),
      blApiLookup bytes memory address base size = some found ↔
        found = address ∧ address ≠ 0 ∧
          ∃ confirm, Published bytes memory address base size confirm) ∧
      lookup reached.flash = lookup flash ∧
      (lookup flash = some blApiAddress.toNat ∧
          (∃ confirm, Published pointerBytes flash blApiAddress.toNat
            regionBase regionSize confirm) ∧
          reached = run (systemStep hostPort) (System.initial flash) steps ∨
        lookup flash = none ∧
          (∀ confirm, ¬ Published pointerBytes flash blApiAddress.toNat
            regionBase regionSize confirm) ∧
          reached = run (systemStep hostPort) (System.initial flash)
            (steps.filter fun step => !step.op.isConfirm)) := by
  intro lookup reached
  refine ⟨fun _ memory address base size => blApiLookup_iff memory address
    base size, ?_⟩
  have accepts := @blApiLookup_iff pointerBytes flash blApiAddress.toNat
    regionBase regionSize
  cases found : lookup flash with
  | some address =>
      obtain ⟨rfl, _notNull, confirm, published⟩ := (accepts address).mp found
      have same : reached =
          run (systemStep hostPort) (System.initial flash) steps := by
        induction steps using List.reverseRecOn with
        | nil => rfl
        | append_singleton steps step ih =>
            change run _ _ (steps ++ [step]) = _
            rw [run_snoc, run_snoc, ih]
            exact apiStep_published (keepsTable_run width flash steps)
              published (linked confirm published) step
      refine ⟨?_, Or.inl ⟨rfl, ⟨confirm, published⟩, same⟩⟩
      rw [same, ← found]
      exact blApiLookup_congr (keepsTable_run width flash steps).table
  | none =>
      have absent : ∀ confirm, ¬ Published pointerBytes flash
          blApiAddress.toNat regionBase regionSize confirm := by
        intro confirm published
        have accepted := (accepts _).mpr ⟨rfl, by decide, confirm, published⟩
        cases found.symm.trans accepted
      have same : reached = run (systemStep hostPort) (System.initial flash)
          (steps.filter fun step => !step.op.isConfirm) := by
        induction steps using List.reverseRecOn with
        | nil => rfl
        | append_singleton steps step ih =>
            change run _ _ (steps ++ [step]) = _
            rw [run_snoc, ih, List.filter_append,
              apiStep_refused (keepsTable_run width flash _) found]
            cases confirms : step.op.isConfirm with
            | true =>
                rw [List.filter_cons_of_neg (by simp [confirms]),
                  List.filter_nil, List.append_nil]
                rfl
            | false =>
                rw [List.filter_cons_of_pos (by simp [confirms]),
                  List.filter_nil, run_snoc]
                rfl
      refine ⟨?_, Or.inr ⟨rfl, absent, same⟩⟩
      rw [same, ← found]
      exact blApiLookup_congr (keepsTable_run width flash _).table

end Runs

/-- Flash that holds a table for 32-bit pointers and nothing else. -/
def publishedFlash : Flash :=
  store (fun _ => 0xFF) blApiAddress.toNat
    ((blApiTable 4 0x08001235).toBytes 4)

theorem publishedFlash_lookup :
    blApiLookup 4 publishedFlash blApiAddress.toNat 0x08000000 0x8000 =
      some blApiAddress.toNat := by
  decide +kernel

theorem apiTable_everyRun_published :
    run (apiStep (fun _ => blCoreConfirm hostPort) 4 0x08000000 0x8000)
        (System.initial publishedFlash) [⟨.boot, []⟩, ⟨.confirm, []⟩] =
      run (systemStep hostPort) (System.initial publishedFlash)
        [⟨.boot, []⟩, ⟨.confirm, []⟩] := by
  have whole := @apiTable_everyRun 4 0x08000000 0x8000
    (fun _ => blCoreConfirm hostPort) (by decide) publishedFlash
    (fun _ _ => rfl) [⟨.boot, []⟩, ⟨.confirm, []⟩]
  rcases whole.2.2 with ⟨_found, _published, same⟩ | ⟨lost, _absent, _same⟩
  · exact same
  · cases publishedFlash_lookup.symm.trans lost

end Stm32Bootloader
