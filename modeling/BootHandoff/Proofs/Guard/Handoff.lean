/-
  The hand-off with its guards: the color masks, the size and the lines of the framebuffer, and the
  copies of what is handed on into buffers of a fixed size. Together with the guarded readers this
  is the whole of the hand-off but for the sink, and it is the hand-off (`describe_eq`): no guard
  stops it, whatever the boot loader and the tables say.
-/
import BootHandoff.Boot
import BootHandoff.Proofs.Guard.Acpi

namespace BootHandoff.Guard

open Acpi (AcpiError Rsdp)
open Coreboot (Channel Framebuffer)
open Text

variable {ε : Type}

/-! ## The framebuffer -/

/-- The bits of a pixel that a channel takes. A channel that starts past the highest bit takes none,
    which is no matter for a guard. -/
def mask (c : Channel) : Option UInt32 := do
  let ones ←
    if 32 ≤ c.size then some 0xffffffff
    else do
      let power ← shiftLeft 1 c.size.toUInt32
      let ones ← sub power.toNat 1
      some (UInt32.ofNat ones)
  some ((shiftLeft ones c.position.toUInt32).getD 0)

/-- The pixels of a line. -/
def pixelsPerScanLine (fb : Framebuffer) : Option UInt32 :=
  if fb.bitsPerPixel = 0 then some 0
  else do
    let bits ← shiftLeft fb.bytesPerLine 3
    let pixels ← div bits.toNat fb.bitsPerPixel.toNat
    some (UInt32.ofNat pixels)

/-- The description of a framebuffer, unless it cannot be used. -/
def displayMode (fb : Framebuffer) : Option (Option DisplayMode) :=
  if fb.address = 0 ∨ fb.bitsPerPixel = 0 then some none
  else do
    let size ← mul fb.bytesPerLine.toNat fb.yResolution.toNat
    let redMask ← mask fb.red
    let greenMask ← mask fb.green
    let blueMask ← mask fb.blue
    let reservedMask ← mask fb.unused
    let line ← pixelsPerScanLine fb
    some <| some {
      base := fb.address
      size := if size < 2 ^ 32 then (UInt64.ofNat size).toUInt32 else 0xffffffff
      horizontalResolution := fb.xResolution
      verticalResolution := fb.yResolution
      pixelFormat := DisplayMode.formatOf fb.red.position fb.green.position fb.blue.position
      redMask, greenMask, blueMask, reservedMask
      pixelsPerScanLine := line }

theorem toUInt32_lt_iff {a : UInt8} : a.toUInt32 < 32 ↔ a < 32 := by
  rw [UInt32.lt_iff_toNat_lt, UInt8.lt_iff_toNat_lt, UInt8.toNat_toUInt32]
  rfl

/-- A bit below the width of a word is in the word. -/
theorem one_le_shiftLeft {k : UInt8} (h : k < 32) : (1 : UInt32) ≤ 1 <<< k.toUInt32 := by
  have hbits : ∀ i : Fin 32, (1 : UInt32) ≤ 1 <<< UInt32.ofNat i := by decide
  have hk : k.toUInt32 = UInt32.ofNat k.toNat := by
    rw [← UInt32.toNat_inj, UInt8.toNat_toUInt32, UInt32.toNat_ofNat_of_lt']
    exact Nat.lt_trans k.toNat_lt (by decide)
  rw [hk]
  exact hbits ⟨k.toNat, UInt8.lt_iff_toNat_lt.1 h⟩

theorem mask_eq (c : Channel) : mask c = some c.mask := by
  have hposition : ∀ ones : UInt32, (shiftLeft ones c.position.toUInt32).getD 0 =
      if c.position < 32 then ones <<< c.position.toUInt32 else 0 := by
    intro ones
    unfold shiftLeft
    rw [ite_congr (propext toUInt32_lt_iff) (fun _ => rfl) fun _ => rfl]
    split <;> rfl
  unfold mask Channel.mask
  by_cases hsize : 32 ≤ c.size
  · rw [if_pos hsize, if_pos hsize, Option.bind_eq_bind, Option.bind_some]
    exact congrArg some (hposition _)
  · have hlt : c.size < 32 := UInt8.not_le.1 hsize
    have hone := one_le_shiftLeft hlt
    have hpower : shiftLeft 1 c.size.toUInt32 = some (1 <<< c.size.toUInt32) :=
      shiftLeft_eq (toUInt32_lt_iff.2 hlt)
    have hones : UInt32.ofNat (((1 : UInt32) <<< c.size.toUInt32).toNat - 1) =
        1 <<< c.size.toUInt32 - 1 := by
      rw [← UInt32.toNat_inj, UInt32.toNat_sub_of_le _ _ hone, UInt32.toNat_ofNat_of_lt']
      · rfl
      · exact Nat.lt_of_le_of_lt (Nat.sub_le ..) (UInt32.toNat_lt _)
    have hdifference : sub ((1 : UInt32) <<< c.size.toUInt32).toNat 1 = _ :=
      sub_eq (UInt32.le_iff_toNat_le.1 hone)
    simp only [if_neg hsize, hpower, Option.bind_eq_bind, Option.bind_some]
    rw [hdifference, Option.bind_some, hones, hposition]

theorem pixelsPerScanLine_eq (fb : Framebuffer) :
    pixelsPerScanLine fb = some fb.pixelsPerScanLine := by
  unfold pixelsPerScanLine Framebuffer.pixelsPerScanLine
  split
  · rfl
  · rename_i hdepth
    have hne : fb.bitsPerPixel.toNat ≠ 0 := fun h => hdepth (UInt8.toNat_inj.1 h)
    have hquotient : UInt32.ofNat ((fb.bytesPerLine <<< 3).toNat / fb.bitsPerPixel.toNat) =
        (fb.bytesPerLine <<< 3) / fb.bitsPerPixel.toUInt32 := by
      rw [← UInt32.toNat_inj, UInt32.toNat_div, UInt8.toNat_toUInt32, UInt32.toNat_ofNat_of_lt']
      exact Nat.lt_of_le_of_lt (Nat.div_le_self ..) (UInt32.toNat_lt _)
    rw [step (shiftLeft_eq (by decide)), step (div_eq hne), hquotient]

theorem displayMode_eq (fb : Framebuffer) :
    displayMode fb = some (DisplayMode.ofFramebuffer? fb) := by
  unfold displayMode DisplayMode.ofFramebuffer?
  split
  · rfl
  · have hsize := fb.toNat_size
    have hlt := fb.size.toNat_lt
    simp only [mask_eq, pixelsPerScanLine_eq, Option.bind_eq_bind, Option.bind_some,
      mul_eq (hsize ▸ hlt), ← hsize, UInt64.ofNat_toNat]

/-! ## What is published -/

/-- Publishes the description of a framebuffer. -/
def publishMode (g : DisplayMode) : Procedure ε Unit := do
  let data ← check (copyOver (Bytes.zeros 48) g.encode)
  Procedure.emit (.guid Guid.graphicsInfo data)
  let place := hex g.base.toNat
  Procedure.log .graphics .debug
    s!"Created graphics info HOB: {g.horizontalResolution}x{g.verticalResolution} @ {place}"

/-- Publishes the framebuffer, if there is one that can be used. -/
def publishFramebuffer : Option Framebuffer → Procedure ε Unit
  | none => Procedure.log .handoff .debug "No framebuffer"
  | some fb => do
    match ← check (displayMode fb) with
    | some graphics => publishMode graphics
    | none => Procedure.log .handoff .warn s!"Framebuffer at {hex fb.address.toNat} is unusable"

/-- Publishes the locations of the tables. -/
def publishLocations (t : TableLocations) : Procedure ε Unit := do
  let data ← check (copyOver (Bytes.zeros 32) t.encode)
  Procedure.emit (.guid Guid.systemTableInfo data)
  let smbios ← check (copyOver (Bytes.zeros 16) (TableLocations.encodeUniversal t.smbiosBase))
  Procedure.emit (.guid Guid.universalSmbiosTable smbios)
  Procedure.log .tableLocations .debug "Created SMBIOS table HOB"
  let acpi ← check (copyOver (Bytes.zeros 16) (TableLocations.encodeUniversal t.acpiBase))
  Procedure.emit (.guid Guid.universalAcpiTable acpi)
  Procedure.log .tableLocations .debug "Created ACPI table HOB"

/-- Gathers the board information and runs the SCI diagnostic. -/
def survey (rsdp : Rsdp) : Procedure AcpiError BoardInfo := do
  let (info, fadt) ← Procedure.examine fun mem => find mem rsdp
  let _ ← SciCheck.run fadt
  pure info

/-- Describes the platform. -/
def describePlatform (info : Coreboot.Info) : Procedure AcpiError Summary := do
  let map := info.memoryMap
  let tolud ← Handoff.guessTolud map
  Procedure.log .handoff .info "Building resource descriptors for usable memory:"
  (MemoryMap.usable map).forM Descriptor.publish
  publishFramebuffer info.framebuffer
  let (tableLocations, rsdp) ← Procedure.examine fun mem => findLocations mem info
  publishLocations tableLocations
  let boardInfo ← survey rsdp
  let data ← check (copyOver (Bytes.zeros 72) boardInfo.encode)
  Procedure.emit (.guid Guid.acpiBoardInfo data)
  Procedure.log .handoff .debug "Created ACPI board info HOB"
  Procedure.log .handoff .info "Building resource descriptors for reserved memory:"
  (MemoryMap.reserved map tolud boardInfo.pcieBase).forM Descriptor.publish
  pure ⟨tolud, tableLocations, boardInfo⟩

/-- Describes the platform and the payload. -/
def describe (settings : Settings) (addressBits : UInt8) (info : Coreboot.Info) :
    Procedure AcpiError Summary := do
  let summary ← describePlatform info
  Handoff.describePayload settings addressBits
  pure summary

theorem publishMode_eq (g : DisplayMode) : (publishMode g : Procedure ε Unit) = g.publish := by
  have hcopy : copyOver (Bytes.zeros 48) g.encode = some g.encode := copyOver_eq (by simp)
  unfold publishMode DisplayMode.publish
  rw [check_bind hcopy]

theorem publishFramebuffer_eq (framebuffer : Option Framebuffer) :
    (publishFramebuffer framebuffer : Procedure ε Unit) =
      Handoff.publishFramebuffer framebuffer := by
  cases framebuffer with
  | none => rfl
  | some fb =>
    refine (check_bind (displayMode_eq fb) _).trans ?_
    rw [Handoff.publishFramebuffer]
    cases DisplayMode.ofFramebuffer? fb with
    | none => rfl
    | some g => exact publishMode_eq g

theorem publishLocations_eq (t : TableLocations) :
    (publishLocations t : Procedure ε Unit) = t.publish := by
  have hdata : copyOver (Bytes.zeros 32) t.encode = some t.encode := copyOver_eq (by simp)
  have htable : ∀ a, copyOver (Bytes.zeros 16) (TableLocations.encodeUniversal a) =
      some (TableLocations.encodeUniversal a) := fun a => copyOver_eq (by simp)
  unfold publishLocations TableLocations.publish
  simp only [hdata, htable, check_bind rfl]

theorem survey_eq (rsdp : Rsdp) : survey rsdp = BoardInfo.survey rsdp := by
  unfold survey BoardInfo.survey
  simp only [find_eq]

theorem describePlatform_eq (info : Coreboot.Info) :
    describePlatform info = Handoff.describePlatform info := by
  have hcopy : ∀ b : BoardInfo, copyOver (Bytes.zeros 72) b.encode = some b.encode :=
    fun b => copyOver_eq (by simp)
  unfold describePlatform Handoff.describePlatform
  simp only [publishFramebuffer_eq, findLocations_eq, publishLocations_eq, survey_eq, hcopy,
    check_bind rfl]

theorem describe_eq (settings : Settings) (addressBits : UInt8) (info : Coreboot.Info) :
    describe settings addressBits info = Boot.describe settings addressBits info := by
  unfold describe Boot.describe
  rw [describePlatform_eq]

end BootHandoff.Guard
