/-
The simulated flash of bl_port_host.c.

An array holds the bytes, and a bitmap the bytes that have been programmed
since their last erase.  The two together are a write-once store: a byte
reads as what was last written to it since it was last erased, and a failed
assertion keeps any other call from happening.
-/

import Stm32Bootloader.HostContract
import Stm32Bootloader.Library.Bitmap
import Stm32Bootloader.Library.WriteOnce

namespace Stm32Bootloader

open Memory WriteOnce

def hostWriteGranularity : U32 := 8
def hostEraseGranularity : U32 := 2048

/-- The static variables that the flash calls use.  An array is a function of
its index. -/
structure HostFlash where
  gFlash : Nat → U8
  gWritten : Nat → U8
  gWriteCallCount : U32
  gFailWriteFrom : U32

namespace HostFlash

def blPortInit : HostFlash :=
  { gFlash := fun _ => 0xFF
    gWritten := fun _ => 0
    gWriteCallCount := 0
    gFailWriteFrom := 0xFFFFFFFF }

def flashOffset (addr : U32) : U32 := addr - hostFlashBase

def flashByteWritten (host : HostFlash) (offset : U32) : Bool :=
  let byteIndex := (offset / 8).toNat
  let bitIndex := (offset % 8).toNat
  let mask : U8 := ((1 : U32) <<< bitIndex).setWidth 8
  host.gWritten byteIndex &&& mask ≠ 0

def flashMarkWritten (host : HostFlash) (offset : U32) : HostFlash :=
  let byteIndex := (offset / 8).toNat
  let bitIndex := (offset % 8).toNat
  let mask : U8 := ((1 : U32) <<< bitIndex).setWidth 8
  { host with
    gWritten := Function.update host.gWritten byteIndex
      (host.gWritten byteIndex ||| mask) }

def flashMarkErased (host : HostFlash) (offset : U32) : HostFlash :=
  let byteIndex := (offset / 8).toNat
  let bitIndex := (offset % 8).toNat
  let mask : U8 := ((1 : U32) <<< bitIndex).setWidth 8
  { host with
    gWritten := Function.update host.gWritten byteIndex
      (host.gWritten byteIndex &&& ~~~mask) }

/-- `for (uint32_t i = 0u; i < len; ++i)` over `offset + i`. -/
def forRange (body : HostFlash → U32 → HostFlash) (offset len : U32)
    (host : HostFlash) : HostFlash :=
  (List.range len.toNat).foldl
    (fun host index => body host (offset + BitVec.ofNat 32 index)) host

/-- A pointer: NULL, or the bytes that follow it in memory. -/
abbrev Pointer := Option (Nat → U8)

def pointed (data : Pointer) (len : U32) : List U8 :=
  load (data.getD fun _ => 0) 0 len.toNat

/-- A call that fails an assertion aborts, `none`. -/
def blFlashErase (addr len : U32) (host : HostFlash) :
    Option (BlResult × HostFlash) :=
  if ¬ flashRangeValid addr len then none
  else if len = 0 then some (.ok, host)
  else if (addr - hostFlashBase) % hostEraseGranularity ≠ 0 then none
  else if len % hostEraseGranularity ≠ 0 then none
  else
    let offset := flashOffset addr
    let host :=
      { host with gFlash := fill host.gFlash offset.toNat len.toNat 0xFF }
    some (.ok, forRange flashMarkErased offset len host)

def blFlashWrite (addr : U32) (data : Pointer) (len : U32)
    (host : HostFlash) : Option (BlResult × HostFlash) :=
  if data.isNone ∧ len > 0 then some (.errNullPointer, host)
  else if ¬ flashRangeValid addr len then none
  else if len = 0 then some (.ok, host)
  else if (addr - hostFlashBase) % hostWriteGranularity ≠ 0 then none
  else if len % hostWriteGranularity ≠ 0 then none
  else
    let offset := flashOffset addr
    if (List.range len.toNat).any fun index =>
        flashByteWritten host (offset + BitVec.ofNat 32 index) then none
    else
      -- The call is counted before it can fail.
      let callIndex := host.gWriteCallCount
      let host := { host with gWriteCallCount := callIndex + 1 }
      if callIndex ≥ host.gFailWriteFrom then some (.errFlashProgram, host)
      else
        let host :=
          { host with
            gFlash := store host.gFlash offset.toNat (pointed data len) }
        some (.ok, forRange flashMarkWritten offset len host)

/-- The result and the bytes behind `dst` afterwards. -/
def blFlashRead (addr : U32) (dst : Pointer) (len : U32)
    (host : HostFlash) : Option (BlResult × Pointer) :=
  if dst.isNone ∧ len > 0 then some (.errNullPointer, dst)
  else if ¬ flashRangeValid addr len then none
  else if len = 0 then some (.ok, dst)
  else
    let offset := flashOffset addr
    some (.ok, dst.map fun bytes =>
      store bytes 0 (load host.gFlash offset.toNat len.toNat))

def blHostFailAfterNWrites (n : U32) (host : HostFlash) : HostFlash :=
  { host with gWriteCallCount := 0, gFailWriteFrom := n }

def blHostClearFailures (host : HostFlash) : HostFlash :=
  { host with gWriteCallCount := 0, gFailWriteFrom := 0xFFFFFFFF }

/-! ### Ranges -/

theorem range_offset {addr len : U32}
    (valid : flashRangeValid addr len = true) :
    (flashOffset addr).toNat = addr.toNat - hostFlashBase.toNat ∧
      (flashOffset addr).toNat + len.toNat ≤ hostFlashSize.toNat := by
  have bounds := (flashRangeValid_iff addr len).mp valid
  have base := hostFlashBase_toNat
  have size := hostFlashSize_toNat
  unfold flashOffset
  bv_omega

/-! ### The bitmap -/

theorem bit_mask (offset : U32) :
    ((1 : U32) <<< (offset % 8).toNat).setWidth 8 =
      Bitmap.mask 8 offset.toNat := by
  have place : (offset % 8).toNat = offset.toNat % 8 := BitVec.toNat_umod
  have power : ∀ bit, bit < 8 →
      ((1 : U32) <<< bit).setWidth 8 = BitVec.twoPow 8 bit := by
    decide
  rw [place]
  exact power _ (Nat.mod_lt _ (by decide))

theorem byte_index (offset : U32) : (offset / 8).toNat = offset.toNat / 8 :=
  BitVec.toNat_udiv

theorem flashByteWritten_eq (host : HostFlash) (offset : U32) :
    flashByteWritten host offset = Bitmap.get host.gWritten offset.toNat := by
  have inside : offset.toNat % 8 < 8 := Nat.mod_lt _ (by decide)
  unfold flashByteWritten Bitmap.get
  dsimp only
  rw [bit_mask, byte_index, Bitmap.mask, BitVec.and_twoPow]
  cases (host.gWritten (offset.toNat / 8)).getLsbD (offset.toNat % 8) with
  | false => rfl
  | true =>
      rw [if_pos rfl, decide_eq_true_eq]
      intro zero
      have bit := congrArg (fun word => word.getLsbD (offset.toNat % 8)) zero
      simp [inside] at bit

theorem flashMarkWritten_eq (host : HostFlash) (offset : U32) :
    flashMarkWritten host offset =
      { host with gWritten := Bitmap.set host.gWritten offset.toNat } := by
  unfold flashMarkWritten Bitmap.set
  dsimp only
  rw [bit_mask, byte_index]

theorem flashMarkErased_eq (host : HostFlash) (offset : U32) :
    flashMarkErased host offset =
      { host with gWritten := Bitmap.clear host.gWritten offset.toNat } := by
  unfold flashMarkErased Bitmap.clear
  dsimp only
  rw [bit_mask, byte_index]

theorem place_toNat {offset : U32} {index : Nat}
    (fits : offset.toNat + index < 2 ^ 32) :
    (offset + BitVec.ofNat 32 index).toNat = offset.toNat + index := by
  rw [BitVec.toNat_add, BitVec.toNat_ofNat]
  omega

theorem forRange_bitmap {body : HostFlash → U32 → HostFlash}
    {mark : (Nat → U8) → Nat → Nat → U8}
    (marks : ∀ host offset, body host offset =
      { host with gWritten := mark host.gWritten offset.toNat })
    {offset len : U32} (fits : offset.toNat + len.toNat ≤ 2 ^ 32)
    (host : HostFlash) :
    forRange body offset len host =
      { host with
        gWritten := Bitmap.overRange mark offset.toNat len.toNat
          host.gWritten } := by
  have each : ∀ count, count ≤ len.toNat →
      (List.range count).foldl
          (fun host index => body host (offset + BitVec.ofNat 32 index))
          host =
        { host with
          gWritten := Bitmap.overRange mark offset.toNat count
            host.gWritten } := by
    intro count within
    induction count with
    | zero => rfl
    | succ count ih =>
        rw [List.range_succ, List.foldl_append, ih (by omega),
          List.foldl_cons, List.foldl_nil, marks, place_toNat (by omega),
          Bitmap.overRange_succ]
  exact each len.toNat (Nat.le_refl _)

theorem forRange_markErased {offset len : U32}
    (fits : offset.toNat + len.toNat ≤ 2 ^ 32) (host : HostFlash) :
    forRange flashMarkErased offset len host =
      { host with
        gWritten := Bitmap.overRange Bitmap.clear offset.toNat len.toNat
          host.gWritten } :=
  forRange_bitmap flashMarkErased_eq fits host

theorem forRange_markWritten {offset len : U32}
    (fits : offset.toNat + len.toNat ≤ 2 ^ 32) (host : HostFlash) :
    forRange flashMarkWritten offset len host =
      { host with
        gWritten := Bitmap.overRange Bitmap.set offset.toNat len.toNat
          host.gWritten } :=
  forRange_bitmap flashMarkWritten_eq fits host

theorem pointed_length (data : Pointer) (len : U32) :
    (pointed data len).length = len.toNat :=
  load_length _ _ _

/-! ### What a call does -/

section Calls

variable {addr len : U32} {data dst : Pointer} {host host' : HostFlash}
  {result : BlResult}

def erased (host : HostFlash) (base size : Nat) : HostFlash :=
  { host with
    gFlash := fill host.gFlash base size 0xFF
    gWritten := Bitmap.overRange Bitmap.clear base size host.gWritten }

def programmed (host : HostFlash) (base : Nat) (block : List U8) :
    HostFlash :=
  { host with
    gFlash := store host.gFlash base block
    gWritten := Bitmap.overRange Bitmap.set base block.length
      host.gWritten }

theorem erased_nothing (base : Nat) : host.erased base 0 = host := by
  have kept : fill host.gFlash base 0 0xFF = host.gFlash :=
    funext fun offset =>
      fill_agreesOutside host.gFlash base 0 0xFF offset (by omega)
  unfold erased
  rw [kept]
  rfl

theorem programmed_nothing (base : Nat) : host.programmed base [] = host := by
  have kept : store host.gFlash base [] = host.gFlash :=
    funext fun offset => store_agreesOutside host.gFlash base [] offset (by
      rw [List.length_nil]
      omega)
  unfold programmed
  rw [kept]
  rfl

theorem blFlashErase_passed
    (passed : blFlashErase addr len host = some (result, host')) :
    flashRangeValid addr len = true ∧ result = .ok ∧
      host' = host.erased (flashOffset addr).toNat len.toNat := by
  unfold blFlashErase at passed
  split at passed
  · cases passed
  rename_i valid
  rw [Decidable.not_not] at valid
  have inside := (range_offset valid).2
  have size := hostFlashSize_toNat
  refine ⟨valid, ?_⟩
  split at passed
  · rename_i zero
    cases passed
    rw [zero]
    exact ⟨rfl, (erased_nothing _).symm⟩
  split at passed
  · cases passed
  split at passed
  · cases passed
  dsimp only at passed
  rw [forRange_markErased (by omega)] at passed
  cases passed
  exact ⟨rfl, rfl⟩

/-- A write that passes the assertions fails with the flash as it was, or
programs bytes none of which was programmed before. -/
theorem blFlashWrite_passed
    (passed : blFlashWrite addr data len host = some (result, host')) :
    (result ≠ .ok ∧ host'.gFlash = host.gFlash ∧
        host'.gWritten = host.gWritten) ∨
      (flashRangeValid addr len = true ∧ result = .ok ∧
        (∀ index, index < len.toNat → Bitmap.get host.gWritten
          ((flashOffset addr).toNat + index) = false) ∧
        ∃ count, host' = { host.programmed (flashOffset addr).toNat
            (pointed data len) with gWriteCallCount := count }) := by
  unfold blFlashWrite at passed
  split at passed
  · cases passed
    exact Or.inl ⟨by decide, rfl, rfl⟩
  split at passed
  · cases passed
  rename_i valid
  rw [Decidable.not_not] at valid
  have inside := (range_offset valid).2
  have size := hostFlashSize_toNat
  split at passed
  · rename_i zero
    cases passed
    subst zero
    refine Or.inr ⟨valid, rfl, fun index impossible => ?_,
      host.gWriteCallCount, ?_⟩
    · cases impossible
    · have nothing : pointed data 0 = [] := rfl
      rw [nothing, programmed_nothing]
  split at passed
  · cases passed
  split at passed
  · cases passed
  dsimp only at passed
  split at passed
  · cases passed
  rename_i unwritten
  split at passed
  · cases passed
    exact Or.inl ⟨by decide, rfl, rfl⟩
  rw [forRange_markWritten (by omega)] at passed
  cases passed
  refine Or.inr ⟨valid, rfl, fun index within => ?_,
    host.gWriteCallCount + 1, ?_⟩
  · rw [← place_toNat (by omega), ← flashByteWritten_eq]
    rw [List.any_eq_true] at unwritten
    by_contra written
    exact unwritten ⟨index, List.mem_range.mpr within,
      Bool.not_eq_false _ |>.mp written⟩
  · unfold programmed
    rw [pointed_length]

theorem blFlashRead_passed {bytes : Nat → U8} {reply : BlResult × Pointer}
    (passed : blFlashRead addr (some bytes) len host = some reply) :
    reply = (.ok, some (store bytes 0
      (load host.gFlash (flashOffset addr).toNat len.toNat))) := by
  unfold blFlashRead at passed
  rw [if_neg (fun null => absurd null.1 (by simp))] at passed
  split at passed
  · cases passed
  split at passed
  · rename_i zero
    cases passed
    subst zero
    have kept : store bytes 0 [] = bytes :=
      funext fun offset => store_agreesOutside bytes 0 [] offset
        (Or.inr (Nat.zero_le _))
    exact congrArg (fun buffer => (BlResult.ok, some buffer)) kept.symm
  · cases passed
    rfl

end Calls

/-! ### The abstract store -/

/-- The array and the bitmap hold the content of a write-once memory. -/
structure Refines (host : HostFlash) (content : Nat → Option U8) : Prop where
  bytes : ∀ offset, host.gFlash offset = (content offset).getD 0xFF
  bitmap : ∀ offset,
    Bitmap.get host.gWritten offset = (content offset).isSome

section Refines

variable {host : HostFlash} {content : Nat → Option U8}

theorem refines_init : Refines blPortInit fun _ => none where
  bytes _ := rfl
  bitmap _ := BitVec.getLsbD_zero

theorem Refines.recount (refines : Refines host content) (count from_ : U32) :
    Refines { host with gWriteCallCount := count, gFailWriteFrom := from_ }
      content :=
  ⟨refines.bytes, refines.bitmap⟩

theorem Refines.erased (refines : Refines host content) (base size : Nat) :
    Refines (host.erased base size)
      (Action.apply content (.erase base size)) where
  bytes offset := by
    have held := refines.bytes offset
    unfold HostFlash.erased Action.apply fill
    dsimp only
    split
    · rfl
    · exact held
  bitmap offset := by
    have held := refines.bitmap offset
    unfold HostFlash.erased Action.apply fill
    dsimp only
    rw [Bitmap.get_clearRange (by decide), held]
    split
    · rename_i covered
      rw [decide_eq_true covered]
      rfl
    · rename_i apart
      rw [decide_eq_false apart]
      rfl

theorem Refines.programmed (refines : Refines host content) (base : Nat)
    (block : List U8) :
    Refines (host.programmed base block)
      (Action.apply content (.program base block)) where
  bytes offset := by
    have held := refines.bytes offset
    unfold HostFlash.programmed Action.apply store
    dsimp only
    split
    · rw [List.getElem?_map]
      cases block[offset - base]? with
      | none => exact held
      | some byte => rfl
    · exact held
  bitmap offset := by
    have held := refines.bitmap offset
    unfold HostFlash.programmed Action.apply store
    dsimp only
    rw [Bitmap.get_setRange (by decide), held, List.getElem?_map]
    by_cases above : base ≤ offset
    · rw [if_pos above]
      by_cases below : offset < base + block.length
      · rw [decide_eq_true ⟨above, below⟩,
          List.getElem?_eq_getElem (by omega)]
        rfl
      · rw [decide_eq_false (fun both => below both.2),
          List.getElem?_eq_none (by omega)]
        rfl
    · rw [if_neg above, decide_eq_false (fun both => above both.1)]
      rfl

end Refines

/-- The calls of the flash interface, and what a test injects. -/
inductive Call where
  | erase (addr len : U32)
  | write (addr : U32) (data : Pointer) (len : U32)
  | read (addr : U32) (dst : Pointer) (len : U32)
  | failAfterNWrites (n : U32)
  | clearFailures

namespace Call

def run (host : HostFlash) : Call → Option (BlResult × HostFlash)
  | .erase addr len => blFlashErase addr len host
  | .write addr data len => blFlashWrite addr data len host
  | .read addr dst len =>
      (blFlashRead addr dst len host).map fun reply => (reply.1, host)
  | .failAfterNWrites n => some (.ok, blHostFailAfterNWrites n host)
  | .clearFailures => some (.ok, blHostClearFailures host)

/-- What a call has done to the store, by its result. -/
def actions (result : BlResult) : Call → List (Action U8)
  | .erase addr len =>
      if result = .ok then [.erase (flashOffset addr).toNat len.toNat] else []
  | .write addr data len =>
      if result = .ok then
        [.program (flashOffset addr).toNat (pointed data len)]
      else []
  | _ => []

def Covers (offset : Nat) : Call → Prop
  | .erase addr len | .write addr _ len =>
      (flashOffset addr).toNat ≤ offset ∧
        offset < (flashOffset addr).toNat + len.toNat
  | _ => False

/-- A sequence of calls, as long as the assertions hold, and what it does to
the store. -/
def runAll (host : HostFlash) :
    List Call → Option (HostFlash × List (Action U8))
  | [] => some (host, [])
  | call :: later => do
      let (result, host) ← call.run host
      let (last, done) ← runAll host later
      some (last, call.actions result ++ done)

variable {host host' : HostFlash} {result : BlResult}
  {content : Nat → Option U8}

/-- One call of the port is one step of the store. -/
theorem run_refines (refines : Refines host content) {call : Call}
    (ran : call.run host = some (result, host')) :
    Refines host' ((call.actions result).foldl Action.apply content) := by
  cases call with
  | erase addr len =>
      obtain ⟨_valid, rfl, rfl⟩ := blFlashErase_passed ran
      exact refines.erased _ _
  | write addr data len =>
      rcases blFlashWrite_passed ran with
        ⟨failed, bytes, written⟩ | ⟨_valid, rfl, _unwritten, count, rfl⟩
      · have nothing : (Call.write addr data len).actions result = [] :=
          if_neg failed
        rw [nothing]
        refine ⟨fun offset => ?_, fun offset => ?_⟩
        · rw [bytes]
          exact refines.bytes offset
        · rw [written]
          exact refines.bitmap offset
      · have after := refines.programmed (flashOffset addr).toNat
          (pointed data len)
        exact ⟨after.bytes, after.bitmap⟩
  | read addr dst len =>
      obtain ⟨reply, _read, same⟩ := Option.map_eq_some_iff.mp ran
      cases same
      exact refines
  | failAfterNWrites n =>
      cases ran
      exact refines.recount _ _
  | clearFailures =>
      cases ran
      exact refines.recount _ _

theorem runAll_contents {calls : List Call} {done : List (Action U8)}
    (refines : Refines host content)
    (ran : runAll host calls = some (host', done)) :
    Refines host' (done.foldl Action.apply content) := by
  induction calls generalizing host content done with
  | nil =>
      cases ran
      exact refines
  | cons call later ih =>
      unfold runAll at ran
      obtain ⟨⟨result, next⟩, first, ran⟩ := Option.bind_eq_some_iff.mp ran
      obtain ⟨⟨last, rest⟩, second, ran⟩ := Option.bind_eq_some_iff.mp ran
      cases ran
      rw [List.foldl_append]
      exact ih (run_refines refines first) second

theorem run_frame {call : Call}
    (ran : call.run host = some (result, host')) {offset : Nat}
    (apart : ¬ call.Covers offset) :
    host'.gFlash offset = host.gFlash offset ∧
      Bitmap.get host'.gWritten offset = Bitmap.get host.gWritten offset := by
  cases call with
  | erase addr len =>
      obtain ⟨_valid, _ok, rfl⟩ := blFlashErase_passed ran
      have outside : ¬ ((flashOffset addr).toNat ≤ offset ∧
        offset < (flashOffset addr).toNat + len.toNat) := apart
      refine ⟨if_neg outside, ?_⟩
      unfold HostFlash.erased
      rw [Bitmap.get_clearRange (by decide), decide_eq_false outside]
      rfl
  | write addr data len =>
      rcases blFlashWrite_passed ran with
        ⟨_failed, bytes, written⟩ | ⟨_valid, _ok, _unwritten, count, rfl⟩
      · rw [bytes, written]
        exact ⟨rfl, rfl⟩
      · have length := pointed_length data len
        have outside : ¬ ((flashOffset addr).toNat ≤ offset ∧
          offset < (flashOffset addr).toNat + len.toNat) := apart
        constructor
        · apply store_agreesOutside
          omega
        · unfold HostFlash.programmed
          rw [Bitmap.get_setRange (by decide), length,
            decide_eq_false outside]
          rfl
  | read addr dst len =>
      obtain ⟨reply, _read, same⟩ := Option.map_eq_some_iff.mp ran
      cases same
      exact ⟨rfl, rfl⟩
  | failAfterNWrites n =>
      cases ran
      exact ⟨rfl, rfl⟩
  | clearFailures =>
      cases ran
      exact ⟨rfl, rfl⟩

theorem run_unprogrammed (refines : Refines host content) {call : Call}
    (ran : call.run host = some (result, host')) {base : Nat}
    {block : List U8}
    (programs : .program base block ∈ call.actions result) {offset : Nat}
    (lower : base ≤ offset) (upper : offset < base + block.length) :
    content offset = none := by
  cases call with
  | write addr data len =>
      rcases blFlashWrite_passed ran with
        ⟨failed, _bytes, _written⟩ | ⟨_valid, rfl, unwritten, _count, _after⟩
      · have nothing : (Call.write addr data len).actions result = [] :=
          if_neg failed
        rw [nothing] at programs
        cases programs
      · have single : (Call.write addr data len).actions .ok =
            [.program (flashOffset addr).toNat (pointed data len)] := rfl
        rw [single, List.mem_singleton] at programs
        cases programs
        rw [pointed_length] at upper
        have clear := unwritten (offset - (flashOffset addr).toNat) (by omega)
        rw [Nat.add_sub_cancel' lower, refines.bitmap] at clear
        exact Option.not_isSome_iff_eq_none.mp (by rw [clear]; decide)
  | erase addr len =>
      obtain ⟨_valid, rfl, _after⟩ := blFlashErase_passed ran
      have single : (Call.erase addr len).actions .ok =
          [.erase (flashOffset addr).toNat len.toNat] := rfl
      rw [single, List.mem_singleton] at programs
      cases programs
  | read addr dst len => cases programs
  | failAfterNWrites n => cases programs
  | clearFailures => cases programs

theorem actions_cases (call : Call) (result : BlResult) :
    call.actions result = [] ∨ ∃ action, call.actions result = [action] := by
  cases call with
  | erase addr len =>
      by_cases ok : result = .ok
      · exact Or.inr ⟨_, if_pos ok⟩
      · exact Or.inl (if_neg ok)
  | write addr data len =>
      by_cases ok : result = .ok
      · exact Or.inr ⟨_, if_pos ok⟩
      · exact Or.inl (if_neg ok)
  | read addr dst len => exact Or.inl rfl
  | failAfterNWrites n => exact Or.inl rfl
  | clearFailures => exact Or.inl rfl

theorem runAll_unprogrammed {calls : List Call} {done : List (Action U8)}
    (refines : Refines host content)
    (ran : runAll host calls = some (host', done))
    {earlier later : List (Action U8)} {base : Nat} {block : List U8}
    (split : done = earlier ++ .program base block :: later) {offset : Nat}
    (lower : base ≤ offset) (upper : offset < base + block.length) :
    earlier.foldl Action.apply content offset = none := by
  induction calls generalizing host content done earlier with
  | nil =>
      cases ran
      cases earlier <;> cases split
  | cons call rest ih =>
      unfold runAll at ran
      obtain ⟨⟨result, next⟩, first, ran⟩ := Option.bind_eq_some_iff.mp ran
      obtain ⟨⟨last, others⟩, second, ran⟩ := Option.bind_eq_some_iff.mp ran
      cases ran
      have after := run_refines refines first
      rcases call.actions_cases result with nothing | ⟨action, single⟩
      · rw [nothing] at split after
        exact ih after second split
      · rw [single] at split after
        cases earlier with
        | nil =>
            cases split
            refine run_unprogrammed refines first ?_ lower upper
            rw [single]
            exact List.mem_singleton_self _
        | cons head earlier =>
            obtain ⟨rfl, behind⟩ := List.cons.inj split
            exact ih after second behind

/-- The call lacks its buffer, or is a write that is to fail. -/
def Failing (host : HostFlash) : Call → Prop
  | .write _ data len => (data.isNone ∧ len > 0) ∨
      (len ≠ 0 ∧ host.gWriteCallCount ≥ host.gFailWriteFrom)
  | .read _ dst len => dst.isNone ∧ len > 0
  | _ => False

theorem run_ok_iff {call : Call}
    (ran : call.run host = some (result, host')) :
    result = .ok ↔ ¬ call.Failing host := by
  cases call with
  | erase addr len =>
      exact iff_of_true (blFlashErase_passed ran).2.1 not_false
  | failAfterNWrites n =>
      cases ran
      exact iff_of_true rfl not_false
  | clearFailures =>
      cases ran
      exact iff_of_true rfl not_false
  | read addr dst len =>
      obtain ⟨reply, read, same⟩ := Option.map_eq_some_iff.mp ran
      cases same
      unfold blFlashRead at read
      split at read
      · rename_i null
        cases read
        exact iff_of_false (fun impossible => by cases impossible)
          (not_not_intro null)
      rename_i pointer
      split at read
      · cases read
      split at read
      · cases read
        exact iff_of_true rfl pointer
      · cases read
        exact iff_of_true rfl pointer
  | write addr data len =>
      change blFlashWrite addr data len host = _ at ran
      unfold blFlashWrite at ran
      split at ran
      · rename_i null
        cases ran
        exact iff_of_false (by decide) (not_not_intro (Or.inl null))
      rename_i pointer
      split at ran
      · cases ran
      split at ran
      · rename_i zero
        cases ran
        refine iff_of_true rfl ?_
        rintro (null | ⟨nonzero, _count⟩)
        · exact pointer null
        · exact nonzero zero
      rename_i nonzero
      split at ran
      · cases ran
      split at ran
      · cases ran
      dsimp only at ran
      split at ran
      · cases ran
      split at ran
      · rename_i count
        cases ran
        exact iff_of_false (by decide)
          (not_not_intro (Or.inr ⟨nonzero, count⟩))
      · rename_i count
        cases ran
        refine iff_of_true rfl ?_
        rintro (null | ⟨_nonzero, reached⟩)
        · exact pointer null
        · exact count reached

end Call

/-- The simulated flash is a write-once store: after any calls that pass the
assertions, whatever failures are injected, a byte reads as what was last
programmed since its last erase, the bitmap says whether there is such a
value, and a further call leaves what it does not address alone.  The range
check is exact, a further call fails only for want of its buffer or by
injection, and no byte was programmed that had a value. -/
theorem runAll_writeOnce {calls : List Call} {host : HostFlash}
    {done : List (Action U8)}
    (ran : Call.runAll blPortInit calls = some (host, done)) :
    (∀ offset value, contents done offset = some value ↔
      LastProgrammed done offset value) ∧
    (∀ addr bytes len reply,
      blFlashRead addr (some bytes) len host = some reply →
        reply.1 = .ok ∧ ∃ copied, reply.2 = some copied ∧
          ∀ index, index < len.toNat → copied index =
            (contents done ((flashOffset addr).toNat + index)).getD 0xFF) ∧
    (∀ offset, host.gFlash offset = (contents done offset).getD 0xFF) ∧
    (∀ offset : U32, flashByteWritten host offset = true ↔
      ∃ value, LastProgrammed done offset.toNat value) ∧
    (∀ (call : Call) result host', call.run host = some (result, host') →
      ∀ offset : U32, ¬ call.Covers offset.toNat →
        host'.gFlash offset.toNat = host.gFlash offset.toNat ∧
          flashByteWritten host' offset = flashByteWritten host offset) ∧
    (∀ addr len : U32, flashRangeValid addr len = true ↔
      hostFlashBase.toNat ≤ addr.toNat ∧
        addr.toNat + len.toNat ≤
          hostFlashBase.toNat + hostFlashSize.toNat) ∧
    (∀ (call : Call) result host', call.run host = some (result, host') →
      (result = .ok ↔ ¬ call.Failing host)) ∧
    ∀ earlier base block later,
      done = earlier ++ .program base block :: later →
        ∀ offset, base ≤ offset → offset < base + block.length →
          contents earlier offset = none := by
  have refines : Refines host (contents done) :=
    Call.runAll_contents refines_init ran
  refine ⟨fun _ _ => contents_eq_some_iff, ?_, refines.bytes,
    fun offset => ?_, ?_, flashRangeValid_iff,
    fun _call _result _host' passed => Call.run_ok_iff passed,
    fun _earlier _base _block _later split _offset lower upper =>
      Call.runAll_unprogrammed refines_init ran split lower upper⟩
  · intro addr bytes len reply passed
    rw [blFlashRead_passed passed]
    refine ⟨rfl, _, rfl, fun index within => ?_⟩
    have copied := store_inside bytes 0
      (load host.gFlash (flashOffset addr).toNat len.toNat) index (by
        rw [load_length]
        exact within)
    rw [Nat.zero_add] at copied
    rw [copied, ← refines.bytes]
    exact Option.some.inj ((List.getElem?_eq_getElem _).symm.trans
      (getElem?_load _ _ _ _ within))
  · rw [flashByteWritten_eq, refines.bitmap, Option.isSome_iff_exists]
    exact exists_congr fun _ => contents_eq_some_iff
  · intro call result host' passed offset apart
    obtain ⟨bytes, bits⟩ := Call.run_frame passed apart
    rw [flashByteWritten_eq, flashByteWritten_eq]
    exact ⟨bytes, bits⟩

/-- A byte that is written stays while another write fails and another page
is erased. -/
theorem runAll_writeOnce_page :
    ∃ host done,
      Call.runAll blPortInit
          [.write 0x08009000 (some fun _ => 0x5A) 8, .failAfterNWrites 0,
            .write 0x08009008 (some fun _ => 0x11) 8,
            .erase 0x08009800 0x00000800] = some (host, done) ∧
        ∀ offset, host.gFlash offset = (contents done offset).getD 0xFF := by
  have passes : (Call.runAll blPortInit
      [.write 0x08009000 (some fun _ => 0x5A) 8, .failAfterNWrites 0,
        .write 0x08009008 (some fun _ => 0x11) 8,
        .erase 0x08009800 0x00000800]).isSome = true := by
    decide +kernel
  obtain ⟨⟨host, done⟩, ran⟩ := Option.isSome_iff_exists.mp passes
  exact ⟨host, done, ran, (runAll_writeOnce ran).2.2.1⟩

/-! ### The port model -/

/-- The array by addresses. -/
def flash (host : HostFlash) : Flash :=
  fun address => host.gFlash (address - hostFlashBase.toNat)

/-- A call as a call of the port model, by its result. -/
def Call.portCalls (result : BlResult) : Call → List PortCall
  | .erase addr len => [.erase addr len .success]
  | .write addr data len =>
      [.write addr (pointed data len)
        (if result = .ok then .success else .failure .program)]
  | _ => []

/-- A call that passes the assertions does to the flash what the port model
says. -/
theorem Call.run_replay {host host' : HostFlash} {result : BlResult}
    {call : Call} (ran : call.run host = some (result, host'))
    {address : Nat} (inside : hostFlashBase.toNat ≤ address) :
    host'.flash address =
      replay hostPort host.flash (call.portCalls result) address := by
  cases call with
  | erase addr len =>
      obtain ⟨valid, _ok, rfl⟩ := blFlashErase_passed ran
      have bounds := (flashRangeValid_iff addr len).mp valid
      have place := (range_offset valid).1
      change fill host.gFlash _ _ _ _ = fill host.flash _ _ _ _
      unfold fill
      refine if_congr ?_ rfl rfl
      rw [FlashOutcome.extent_success]
      omega
  | write addr data len =>
      rcases blFlashWrite_passed ran with
        ⟨failed, bytes, _written⟩ | ⟨valid, rfl, _unwritten, count, rfl⟩
      · have kept : Call.portCalls result (.write addr data len) =
            [.write addr (pointed data len) (.failure .program)] := by
          unfold Call.portCalls
          dsimp only
          rw [if_neg failed]
        rw [kept]
        change _ = (PortCall.write addr _ _).apply hostPort _ _
        rw [apply_write_failure]
        exact congrFun bytes _
      · have bounds := (flashRangeValid_iff addr len).mp valid
        have place := (range_offset valid).1
        change store host.gFlash _ _ _ =
          (PortCall.write addr _ .success).apply hostPort host.flash _
        rw [apply_write, FlashOutcome.extent_success, List.take_length]
        unfold store
        have shifted : address - hostFlashBase.toNat -
            (flashOffset addr).toNat = address - addr.toNat := by omega
        rw [shifted]
        exact if_congr (by omega) rfl rfl
  | read addr dst len =>
      obtain ⟨reply, _read, same⟩ := Option.map_eq_some_iff.mp ran
      cases same
      rfl
  | failAfterNWrites n =>
      cases ran
      rfl
  | clearFailures =>
      cases ran
      rfl

theorem blFlashErase_isSome_iff (addr len : U32) (outcome : FlashOutcome)
    (host : HostFlash) :
    (blFlashErase addr len host).isSome = true ↔
      (PortCall.erase addr len outcome).Permitted := by
  have granularity : hostPort.eraseGranularity addr = hostEraseGranularity :=
    rfl
  unfold blFlashErase PortCall.Permitted RangeAligned
  dsimp only
  rw [granularity]
  split
  · rename_i invalid
    exact iff_of_false (by simp) fun permitted => invalid permitted.1
  rename_i valid
  rw [Decidable.not_not] at valid
  rw [and_iff_right valid]
  split
  · exact iff_of_true rfl (Or.inl ‹_›)
  rename_i nonempty
  rw [or_iff_right nonempty]
  split
  · exact iff_of_false (by simp) fun permitted => absurd permitted.1 ‹_›
  split
  · exact iff_of_false (by simp) fun permitted => absurd permitted.2 ‹_›
  · exact iff_of_true rfl ⟨by_contra ‹_›, by_contra ‹_›⟩

/-- The assertions of a write are what the port model permits, and that no
byte is programmed. -/
theorem blFlashWrite_isSome_iff (addr len : U32) (bytes : Nat → U8)
    (outcome : FlashOutcome) (host : HostFlash) :
    (blFlashWrite addr (some bytes) len host).isSome = true ↔
      (PortCall.write addr (pointed (some bytes) len) outcome).Permitted ∧
        (List.range len.toNat).any (fun index => flashByteWritten host
          (flashOffset addr + BitVec.ofNat 32 index)) = false := by
  have granularity : hostPort.writeGranularity = hostWriteGranularity := rfl
  have length : BitVec.ofNat 32 (pointed (some bytes) len).length = len := by
    rw [pointed_length, BitVec.ofNat_toNat, BitVec.setWidth_eq]
  unfold blFlashWrite PortCall.Permitted RangeAligned
  dsimp only
  rw [granularity, length, if_neg (fun null => absurd null.1 (by simp))]
  split
  · rename_i invalid
    exact iff_of_false (by simp) fun permitted => invalid permitted.1.1
  rename_i valid
  rw [Decidable.not_not] at valid
  rw [and_iff_right valid]
  split
  · rename_i zero
    subst zero
    exact iff_of_true rfl ⟨Or.inl rfl, rfl⟩
  rename_i nonempty
  rw [or_iff_right nonempty]
  split
  · exact iff_of_false (by simp) fun permitted => absurd permitted.1.1 ‹_›
  split
  · exact iff_of_false (by simp) fun permitted => absurd permitted.1.2 ‹_›
  split
  · rename_i written
    refine iff_of_false (by simp) fun permitted => ?_
    rw [written] at permitted
    exact Bool.noConfusion permitted.2
  · rename_i addrOff lenOff written
    have clear := Bool.not_eq_true _ |>.mp written
    refine iff_of_true ?_ ⟨⟨by_contra addrOff, by_contra lenOff⟩, clear⟩
    split <;> rfl

end HostFlash

end Stm32Bootloader
