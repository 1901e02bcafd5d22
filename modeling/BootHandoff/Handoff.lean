/-
  The hand-off: the blocks that describe the platform, in a fixed order. First comes what follows
  from the boot loader's facts alone (DRAM, the framebuffer), then the ACPI and SMBIOS tables and
  the board information, and last the reserved memory, whose classification needs the
  configuration window found in the ACPI tables. The payload itself, the processor and the I/O
  APIC are described apart.
-/
import BootHandoff.MemoryMap.Classification
import BootHandoff.Platform.BoardInfo
import BootHandoff.Platform.DisplayMode
import BootHandoff.Platform.TableLocations
import BootHandoff.Settings

namespace BootHandoff

open Acpi (AcpiError)
open Text

variable {ε : Type}

/-! ## Resources -/

namespace Descriptor

/-- The text of an allocation in a log line. -/
def allocationText : Option Allocation → String
  | some a => s!"Some({a.name})"
  | none => "None"

/-- The log line of a descriptor. -/
def line (d : Descriptor) : String :=
  let limit := Address.offsetClamped d.base d.size.toNat
  s!"{d.kind.name} {hex d.base.toNat}-{hex limit.toNat} {allocationText d.allocation}"

/-- The blocks of a descriptor: the resource, and the allocation if it has one. -/
def hobs (d : Descriptor) : List Hob :=
  .resource d.kind d.attributes d.base d.size ::
    (d.allocation.map fun a => Hob.allocation d.base d.size a.memoryType).toList

/-- Publishes a descriptor. -/
def publish (d : Descriptor) : Procedure ε Unit := do
  Procedure.log .hob .debug d.line
  d.hobs.forM Procedure.emit

end Descriptor

/-! ## The platform -/

/-- What the hand-off found out about the platform. -/
structure Summary where
  tolud : Tolud
  tableLocations : TableLocations
  boardInfo : BoardInfo
deriving DecidableEq, Repr

namespace Handoff

/-- Publishes the framebuffer, if there is one that can be used. -/
def publishFramebuffer : Option Coreboot.Framebuffer → Procedure ε Unit
  | none => Procedure.log .handoff .debug "No framebuffer"
  | some fb =>
    match DisplayMode.ofFramebuffer? fb with
    | some graphics => graphics.publish
    | none => Procedure.log .handoff .warn s!"Framebuffer at {hex fb.address.toNat} is unusable"

/-- Estimates the top of lower usable DRAM. -/
def guessTolud (map : List Region) : Procedure ε Tolud := do
  Procedure.log .handoff .info "Guessing Top of Lower Usable DRAM:"
  let tolud := Tolud.estimate map
  tolud.warnings.forM fun r => Procedure.note r (.done ())
  Procedure.log .handoff .info s!"Assuming TOLUD = {tolud.text}"
  pure tolud

/-- Describes the platform from the facts of the boot loader and the ACPI tables in memory. -/
def describePlatform (info : Coreboot.Info) : Procedure AcpiError Summary := do
  let map := info.memoryMap
  let tolud ← guessTolud map
  Procedure.log .handoff .info "Building resource descriptors for usable memory:"
  (MemoryMap.usable map).forM Descriptor.publish
  publishFramebuffer info.framebuffer
  let (tableLocations, rsdp) ← Procedure.examine fun mem => TableLocations.find mem info
  tableLocations.publish
  let boardInfo ← BoardInfo.survey rsdp
  Procedure.emit (.guid Guid.acpiBoardInfo boardInfo.encode)
  Procedure.log .handoff .debug "Created ACPI board info HOB"
  Procedure.log .handoff .info "Building resource descriptors for reserved memory:"
  (MemoryMap.reserved map tolud boardInfo.pcieBase).forM Descriptor.publish
  pure ⟨tolud, tableLocations, boardInfo⟩

/-! ## The payload -/

/-- The EFI memory type of memory used by boot services. -/
def bootServicesData : UInt32 := 4

/-- The EFI memory type of device windows. -/
def memoryMappedIo : UInt32 := 11

/-- The width of the I/O address space. -/
def ioBits : UInt8 := 16

/-- The blocks that do not depend on the boot loader: the image of the payload, the processor and
    the window of the I/O APIC. -/
def payloadHobs (settings : Settings) (addressBits : UInt8) : List Hob :=
  [.allocation settings.imageBase settings.imageSize bootServicesData,
    .cpu addressBits ioBits,
    .resource .memoryMappedIo Attributes.deviceWindow settings.ioApicBase settings.ioApicSize,
    .allocation settings.ioApicBase settings.ioApicSize memoryMappedIo]

/-- Describes the payload and the processor it runs on. -/
def describePayload (settings : Settings) (addressBits : UInt8) : Procedure ε Unit :=
  (payloadHobs settings addressBits).forM Procedure.emit

end Handoff

end BootHandoff
