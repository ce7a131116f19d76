/-
The image builder, tools/mkimage.py.

It parses the version, pads the binary to whole flash granules and writes the
header region and the payload to one file.  Host and device accept that file
with the fields it was built from, since the header they decode is the one
that was packed.
-/

import Stm32Bootloader.Image
import Stm32Bootloader.Tools.Blimage

namespace Stm32Bootloader.Mkimage

open Blimage LittleEndian Memory

/-! ### Integers as text -/

/-- What `int` looks up in the character database.  Beyond the ASCII digits
it may know others. -/
structure Unicode where
  decimal : Char → Option Nat
  isSpace : Char → Bool
  decimal_ascii : ∀ char, char.isDigit = true →
    decimal char = some (char.toNat - 48)
  space_ascii : ∀ char, char.isDigit = true → isSpace char = false

/-- Longer literals are refused by the interpreter. -/
def maxStrDigits : Nat := 4300

/-- The digits of a literal; one underscore may stand between two digits. -/
def literalDigits (unicode : Unicode) : Bool → List Char → Option (List Nat)
  | afterDigit, [] => if afterDigit then some [] else none
  | afterDigit, char :: later =>
      if char = '_' then
        if afterDigit then literalDigits unicode false later else none
      else
        match unicode.decimal char with
        | none => none
        | some digit =>
            (literalDigits unicode true later).map fun rest => digit :: rest

def decimalValue (digits : List Nat) : Nat :=
  digits.foldl (fun value digit => 10 * value + digit) 0

def stripped (unicode : Unicode) (text : List Char) : List Char :=
  ((text.dropWhile unicode.isSpace).reverse.dropWhile
    unicode.isSpace).reverse

/-- `int` of a string; `none` stands for the ValueError. -/
def pyInt (unicode : Unicode) (text : List Char) : Option Int :=
  let (sign, literal) : Int × List Char :=
    match stripped unicode text with
    | '+' :: literal => (1, literal)
    | '-' :: literal => (-1, literal)
    | literal => (1, literal)
  match literalDigits unicode false literal with
  | none => none
  | some digits =>
      if digits.length > maxStrDigits then none
      else some (sign * decimalValue digits)

/-! ### The program -/

def parseVersion (unicode : Unicode) (version : List Char) :
    Except String Nat :=
  match version.splitOn '.' with
  | [major, minor, patch] =>
      match pyInt unicode major, pyInt unicode minor,
        pyInt unicode patch with
      | some major, some minor, some patch =>
          if ¬ (0 ≤ major ∧ major ≤ 255) then
            .error "Major version must be 0-255"
          else if ¬ (0 ≤ minor ∧ minor ≤ 255) then
            .error "Minor version must be 0-255"
          else if ¬ (0 ≤ patch ∧ patch ≤ 255) then
            .error "Patch version must be 0-255"
          else
            .ok ((major.toNat <<< 16) ||| (minor.toNat <<< 8) |||
              patch.toNat)
      | _, _, _ => .error "Version must contain only numbers, e.g. 1.2.3"
  | _ => .error "Version must be MAJOR.MINOR.PATCH, e.g. 1.2.3"

inductive MkimageError where
  | usage (message : String)
  /-- A payload length that `struct.pack` does not fit in 32 bits. -/
  | structError
  deriving DecidableEq, Repr

/-- The header region and the payload of the file that is written. -/
def main (unicode : Unicode) (version : List Char) (binary : List U8) :
    Except MkimageError (List U8 × List U8) :=
  if binary.length = 0 then .error (.usage "Input file is empty")
  else
    let payload := padPayload binary
    let imgCrc32 := zlibCrc32 payload
    match parseVersion unicode version with
    | .error message => .error (.usage message)
    | .ok fwVersion =>
        if payload.length ≥ 2 ^ 32 then .error .structError
        else
          let (header, _hdrCrc32) :=
            buildHeader (BitVec.ofNat 32 payload.length) imgCrc32
              (BitVec.ofNat 32 fwVersion) (BitVec.ofNat 32 hdrRegionSize)
          .ok (buildHeaderRegion header, payload)

/-! ### Versions -/

/-- The text is a decimal numeral in ASCII for the value, perhaps with
leading zeros. -/
structure Spells (text : List Char) (value : Nat) : Prop where
  nonempty : text ≠ []
  digits : ∀ char ∈ text, char.isDigit = true
  short : text.length ≤ maxStrDigits
  spelled : decimalValue (text.map fun char => char.toNat - 48) = value

theorem literalDigits_ascii (unicode : Unicode) {text : List Char}
    (digits : ∀ char ∈ text, char.isDigit = true) (afterDigit : Bool)
    (started : text = [] → afterDigit = true) :
    literalDigits unicode afterDigit text =
      some (text.map fun char => char.toNat - 48) := by
  induction text generalizing afterDigit with
  | nil => rw [literalDigits, started rfl, if_pos rfl, List.map_nil]
  | cons char later ih =>
      have isDigit := digits char List.mem_cons_self
      have notUnderscore : char ≠ '_' := by
        rintro rfl
        cases isDigit
      have rest := ih
        (fun other member => digits other (List.mem_cons_of_mem _ member))
        true (fun _ => rfl)
      rw [literalDigits, if_neg notUnderscore,
        unicode.decimal_ascii char isDigit, rest]
      rfl

theorem dropWhile_none {α : Type} {drop : α → Bool} {items : List α}
    (keeps : ∀ item ∈ items, drop item = false) :
    items.dropWhile drop = items := by
  cases items with
  | nil => rfl
  | cons item later =>
      exact List.dropWhile_cons_of_neg
        (Bool.eq_false_iff.mp (keeps item List.mem_cons_self))

theorem stripped_ascii (unicode : Unicode) {text : List Char}
    (digits : ∀ char ∈ text, char.isDigit = true) :
    stripped unicode text = text := by
  have spaceless : ∀ char ∈ text, unicode.isSpace char = false :=
    fun char member => unicode.space_ascii char (digits char member)
  have reversed : ∀ char ∈ text.reverse, unicode.isSpace char = false :=
    fun char member => spaceless char (List.mem_reverse.mp member)
  rw [stripped, dropWhile_none spaceless, dropWhile_none reversed,
    List.reverse_reverse]

theorem pyInt_spelled (unicode : Unicode) {text : List Char} {value : Nat}
    (spells : Spells text value) :
    pyInt unicode text = some (value : Int) := by
  have literal := literalDigits_ascii unicode spells.digits false
    (fun empty => absurd empty spells.nonempty)
  have unsigned : ∀ (sign : Char) (rest : List Char),
      sign.isDigit = false → text ≠ sign :: rest := by
    intro sign rest notDigit same
    have isDigit := spells.digits sign (same ▸ List.mem_cons_self)
    rw [notDigit] at isDigit
    cases isDigit
  unfold pyInt
  rw [stripped_ascii unicode spells.digits]
  split
  rename_i sign chosen choice
  split at choice
  · exact absurd rfl (unsigned '+' _ rfl)
  · exact absurd rfl (unsigned '-' _ rfl)
  · cases choice
    rw [literal]
    simp only [List.length_map]
    rw [if_neg (Nat.not_lt.mpr spells.short), spells.spelled, one_mul]

theorem packed_version {major minor patch : Nat} (minorRange : minor ≤ 255)
    (patchRange : patch ≤ 255) :
    (major <<< 16) ||| (minor <<< 8) ||| patch =
      65536 * major + 256 * minor + patch := by
  have low : (minor <<< 8) ||| patch = 256 * minor + patch := by
    rw [← Nat.shiftLeft_add_eq_or_of_lt (by omega), Nat.shiftLeft_eq]
    omega
  rw [Nat.or_assoc, low, ← Nat.shiftLeft_add_eq_or_of_lt (by omega),
    Nat.shiftLeft_eq]
  omega

theorem parseVersion_spelled (unicode : Unicode)
    {major minor patch : List Char}
    {majorValue minorValue patchValue : Nat}
    (majorSpells : Spells major majorValue)
    (minorSpells : Spells minor minorValue)
    (patchSpells : Spells patch patchValue)
    (majorRange : majorValue ≤ 255) (minorRange : minorValue ≤ 255)
    (patchRange : patchValue ≤ 255) :
    parseVersion unicode (['.'].intercalate [major, minor, patch]) =
      .ok (65536 * majorValue + 256 * minorValue + patchValue) := by
  have dotless : ∀ {text value}, Spells text value → '.' ∉ text := by
    intro text value spells member
    cases spells.digits '.' member
  have parts : (['.'].intercalate [major, minor, patch]).splitOn '.' =
      [major, minor, patch] := by
    refine List.splitOn_intercalate '.' ?_ (List.cons_ne_nil _ _)
    intro part member
    simp only [List.mem_cons, List.not_mem_nil, or_false] at member
    rcases member with rfl | rfl | rfl
    · exact dotless majorSpells
    · exact dotless minorSpells
    · exact dotless patchSpells
  unfold parseVersion
  rw [parts]
  simp only [pyInt_spelled unicode majorSpells,
    pyInt_spelled unicode minorSpells, pyInt_spelled unicode patchSpells]
  rw [if_neg (by omega), if_neg (by omega), if_neg (by omega)]
  simp only [Int.toNat_natCast, packed_version minorRange patchRange]

/-! ### Payload and header -/

theorem padPayload_fill (binary : List U8) :
    ∃ fill, fill < 8 ∧
      padPayload binary = binary ++ List.replicate fill 0xFF ∧
      (padPayload binary).length = (binary.length + 7) / 8 * 8 := by
  have granularity : writeGranularity = 8 := rfl
  unfold padPayload
  rw [granularity]
  dsimp only
  by_cases ragged : binary.length % 8 ≠ 0
  · rw [if_pos ragged]
    refine ⟨8 - binary.length % 8, by omega, rfl, ?_⟩
    rw [List.length_append, List.length_replicate]
    omega
  · rw [if_neg ragged]
    refine ⟨0, by decide, (List.append_nil _).symm, ?_⟩
    omega

def builtHeader (imgSize imgCrc32 fwVersion entryOffset : U32) : BlImgHdr :=
  { magic := imgMagic
    hdrVersion := hdrVersion
    flags := 0
    imgSize := imgSize
    imgCrc32 := imgCrc32
    fwVersion := fwVersion
    entryOffset := entryOffset
    reserved := Vector.replicate 12 0
    hdrCrc32 := (buildHeader imgSize imgCrc32 fwVersion entryOffset).2 }

section Header

variable (imgSize imgCrc32 fwVersion entryOffset : U32)

theorem buildHeader_toBytes :
    (buildHeader imgSize imgCrc32 fwVersion entryOffset).1 =
      (builtHeader imgSize imgCrc32 fwVersion entryOffset).toBytes := rfl

theorem buildHeader_length :
    (buildHeader imgSize imgCrc32 fwVersion entryOffset).1.length = 40 := by
  rw [buildHeader_toBytes, BlImgHdr.toBytes_length]

theorem decodeHeader_buildHeader :
    decodeHeader (buildHeader imgSize imgCrc32 fwVersion entryOffset).1 =
      .ok (builtHeader imgSize imgCrc32 fwVersion entryOffset) := by
  have length := buildHeader_length imgSize imgCrc32 fwVersion entryOffset
  have size : hdrStructSize = 40 := rfl
  unfold decodeHeader
  rw [if_neg (by omega), List.take_of_length_le (by omega),
    buildHeader_toBytes, BlImgHdr.ofBytes_toBytes]

theorem buildHeaderRegion_take (payload : List U8) :
    (buildHeaderRegion (buildHeader imgSize imgCrc32 fwVersion
      entryOffset).1 ++ payload).take 40 =
        (builtHeader imgSize imgCrc32 fwVersion entryOffset).toBytes := by
  rw [buildHeaderRegion, List.append_assoc]
  exact List.take_left' (buildHeader_length _ _ _ _)

theorem buildHeaderRegion_length :
    (buildHeaderRegion (buildHeader imgSize imgCrc32 fwVersion
      entryOffset).1).length = 512 := by
  have size : hdrRegionSize = 512 := rfl
  rw [buildHeaderRegion, List.length_append, List.length_replicate,
    buildHeader_length, size]

end Header

def payloadHeader (payload : List U8) (fwVersion : U32) : BlImgHdr :=
  builtHeader (BitVec.ofNat 32 payload.length) (zlibCrc32 payload) fwVersion
    (BitVec.ofNat 32 hdrRegionSize)

def payloadImage (payload : List U8) (fwVersion : U32) : List U8 :=
  buildHeaderRegion (buildHeader (BitVec.ofNat 32 payload.length)
    (zlibCrc32 payload) fwVersion (BitVec.ofNat 32 hdrRegionSize)).1 ++
      payload

/-- A payload of whole granules that fits in a slot behind the header
region. -/
structure Fitting (payload : List U8) (slotSize : U32) : Prop where
  nonempty : 0 < payload.length
  aligned : payload.length % 8 = 0
  room : 512 + payload.length ≤ slotSize.toNat

section Fitting

variable {payload : List U8} {slotSize : U32}
  (fitting : Fitting payload slotSize) (fwVersion : U32)

include fitting

theorem Fitting.imgSize :
    (payloadHeader payload fwVersion).imgSize.toNat = payload.length := by
  have room := fitting.room
  have bound := slotSize.isLt
  exact Nat.mod_eq_of_lt (by omega)

omit fitting in
theorem payloadImage_header :
    BlImgHdr.ofBytes ((payloadImage payload fwVersion).take 40) =
      payloadHeader payload fwVersion := by
  rw [payloadImage, buildHeaderRegion_take, BlImgHdr.ofBytes_toBytes]
  rfl

omit fitting in
theorem payloadImage_drop :
    (payloadImage payload fwVersion).drop 512 = payload :=
  List.drop_left' (buildHeaderRegion_length _ _ _ _)

omit fitting in
theorem payloadImage_length :
    (payloadImage payload fwVersion).length = 512 + payload.length := by
  rw [payloadImage, List.length_append, buildHeaderRegion_length]

theorem Fitting.accepted :
    Accepted (payloadImage payload fwVersion) (some slotSize.toNat)
      (payloadHeader payload fwVersion) := by
  have imgSize := fitting.imgSize fwVersion
  have nonempty := fitting.nonempty
  have room := fitting.room
  have entry : (payloadHeader payload fwVersion).entryOffset.toNat = 512 :=
    rfl
  have behind := @payloadImage_drop payload fwVersion
  have covered : (payloadImage payload fwVersion).take 36 =
      (payloadHeader payload fwVersion).coveredBytes := by
    have front := congrArg (List.take 36) (buildHeaderRegion_take
      (BitVec.ofNat 32 payload.length) (zlibCrc32 payload) fwVersion
      (BitVec.ofNat 32 hdrRegionSize) payload)
    rw [List.take_take] at front
    exact front.trans (List.take_left' (BlImgHdr.coveredBytes_length _))
  exact {
    region := by
      rw [payloadImage_length]
      exact Nat.le_add_right _ _
    decoded := payloadImage_header fwVersion
    magic := rfl
    version := rfl
    hdrCrc := (congrArg zlibCrc32 covered).symm
    entryLower := by
      rw [entry]
      decide
    entryAligned := by
      rw [entry]
      decide
    nonempty := by
      intro zero
      rw [zero] at imgSize
      exact absurd imgSize (Nat.ne_of_lt nonempty)
    aligned := by
      rw [imgSize]
      exact fitting.aligned
    payload := by rw [entry, behind, imgSize]
    imgCrc := by
      rw [entry, behind]
      rfl
    fits := by
      rintro size ⟨⟩
      rw [entry, imgSize]
      exact room }

theorem Fitting.installed (port : Port) (flash : Flash) {slot : U8}
    (slotOk : slotIsValid slot = true)
    (size : (port.layout.slot slot).size = slotSize) :
    blCoreValidateSlot port.layout
        (installed port.layout flash slot (payloadImage payload fwVersion))
        slot =
      .ok (payloadHeader payload fwVersion) := by
  have nonempty := fitting.nonempty
  have room := fitting.room
  have length := @payloadImage_length payload fwVersion
  rw [← size] at room
  rw [blCoreValidateSlot_ok_iff]
  refine validImage_installed flash slotOk (by omega) (by omega)
    (payloadImage_header fwVersion) rfl rfl rfl rfl ?_ ?_
  · rw [fitting.imgSize, length, Nat.add_sub_cancel_left]
  · rw [payloadImage_drop]
    rfl

end Fitting

/-- Every binary that fits in a slot and every version give an image that
host and device accept, with the fields that it was built from. -/
theorem main_installable {unicode : Unicode} {major minor patch : List Char}
    {majorValue minorValue patchValue : Nat}
    (majorSpells : Spells major majorValue)
    (minorSpells : Spells minor minorValue)
    (patchSpells : Spells patch patchValue)
    (majorRange : majorValue ≤ 255) (minorRange : minorValue ≤ 255)
    (patchRange : patchValue ≤ 255) {binary : List U8}
    (nonempty : binary ≠ []) {slotSize : U32}
    (room : (binary.length + 7) / 8 * 8 + 512 ≤ slotSize.toNat) :
    (∃ region payload header fill,
      main unicode (['.'].intercalate [major, minor, patch]) binary =
          .ok (region, payload) ∧
        payload = binary ++ List.replicate fill 0xFF ∧ fill < 8 ∧
        payload.length = (binary.length + 7) / 8 * 8 ∧
        validate (region ++ payload) (some slotSize.toNat) = .ok header ∧
        header.imgSize.toNat = payload.length ∧
        header.fwVersion.toNat =
          65536 * majorValue + 256 * minorValue + patchValue ∧
        header.entryOffset.toNat = 512 ∧
        ∀ (port : Port) (flash : Flash) (slot : U8),
          slotIsValid slot = true →
          (port.layout.slot slot).size = slotSize →
          blCoreValidateSlot port.layout
              (installed port.layout flash slot (region ++ payload)) slot =
            .ok header) ∧
      ∀ imgSize imgCrc32 fwVersion entryOffset : U32,
        decodeHeader
            (buildHeader imgSize imgCrc32 fwVersion entryOffset).1 =
          .ok {
            magic := imgMagic
            hdrVersion := hdrVersion
            flags := 0
            imgSize := imgSize
            imgCrc32 := imgCrc32
            fwVersion := fwVersion
            entryOffset := entryOffset
            reserved := Vector.replicate 12 0
            hdrCrc32 :=
              (buildHeader imgSize imgCrc32 fwVersion entryOffset).2 } := by
  refine ⟨?_, decodeHeader_buildHeader⟩
  have bound := slotSize.isLt
  have positive := List.length_pos_iff.mpr nonempty
  obtain ⟨fill, few, padded, length⟩ := padPayload_fill binary
  have fitting : Fitting (padPayload binary) slotSize :=
    ⟨by omega, by omega, by omega⟩
  have version := parseVersion_spelled unicode majorSpells minorSpells
    patchSpells majorRange minorRange patchRange
  refine ⟨_, _, _, fill, ?_, padded, few, length,
    (fitting.accepted (BitVec.ofNat 32
      (65536 * majorValue + 256 * minorValue + patchValue))).validated,
    fitting.imgSize _, ?_, rfl,
    fun port flash slot slotOk size =>
      fitting.installed _ port flash slotOk size⟩
  · unfold main
    rw [if_neg (by omega)]
    simp only [version]
    rw [if_neg (by omega)]
  · exact Nat.mod_eq_of_lt (by omega)

/-- The database restricted to ASCII. -/
def asciiOnly : Unicode :=
  { decimal := fun char =>
      if char.isDigit then some (char.toNat - 48) else none
    isSpace := fun char =>
      (9 ≤ char.toNat && char.toNat ≤ 13) || char.toNat = 32
    decimal_ascii := fun _char isDigit => if_pos isDigit
    space_ascii := by
      intro char isDigit
      simp only [Char.isDigit, Bool.and_eq_true, decide_eq_true_eq,
        UInt32.le_iff_toNat_le] at isDigit
      have lower : 48 ≤ char.toNat := isDigit.1
      simp only [Bool.or_eq_false_iff, Bool.and_eq_false_iff,
        decide_eq_false_iff_not]
      omega }

theorem main_installable_small :
    (∃ region payload header fill,
      main asciiOnly (['.'].intercalate [['1'], ['0', '2'], ['3']])
          [0xAA, 0xBB, 0xCC] = .ok (region, payload) ∧
        payload = [0xAA, 0xBB, 0xCC] ++ List.replicate fill 0xFF ∧
        fill < 8 ∧
        payload.length = (3 + 7) / 8 * 8 ∧
        validate (region ++ payload) (some (4096#32).toNat) = .ok header ∧
        header.imgSize.toNat = payload.length ∧
        header.fwVersion.toNat = 65536 * 1 + 256 * 2 + 3 ∧
        header.entryOffset.toNat = 512 ∧
        ∀ (port : Port) (flash : Flash) (slot : U8),
          slotIsValid slot = true →
          (port.layout.slot slot).size = 4096#32 →
          blCoreValidateSlot port.layout
              (installed port.layout flash slot (region ++ payload)) slot =
            .ok header) ∧
      ∀ imgSize imgCrc32 fwVersion entryOffset : U32,
        decodeHeader
            (buildHeader imgSize imgCrc32 fwVersion entryOffset).1 =
          .ok {
            magic := imgMagic
            hdrVersion := hdrVersion
            flags := 0
            imgSize := imgSize
            imgCrc32 := imgCrc32
            fwVersion := fwVersion
            entryOffset := entryOffset
            reserved := Vector.replicate 12 0
            hdrCrc32 :=
              (buildHeader imgSize imgCrc32 fwVersion entryOffset).2 } :=
  main_installable
    ⟨List.cons_ne_nil _ _, List.forall_mem_singleton.mpr rfl, by decide, rfl⟩
    ⟨List.cons_ne_nil _ _, List.forall_mem_cons.mpr
      ⟨rfl, List.forall_mem_singleton.mpr rfl⟩, by decide, rfl⟩
    ⟨List.cons_ne_nil _ _, List.forall_mem_singleton.mpr rfl, by decide, rfl⟩
    (by decide) (by decide) (by decide) (List.cons_ne_nil _ _) (by decide)

end Stm32Bootloader.Mkimage
