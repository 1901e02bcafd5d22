/-
  The window of PCI Express configuration space (ECAM) that the MCFG table describes first.
-/
import BootHandoff.Acpi.Table

namespace BootHandoff.Acpi

open Text

/-- A window of PCI Express configuration space. -/
structure PcieWindow where
  base : Address
  segment : UInt16
  startBus : UInt8
  endBus : UInt8
deriving DecidableEq, Repr

namespace PcieWindow

/-- Where the first allocation lies in the table: past the header and eight reserved bytes. -/
def allocationOffset : Nat := TableHeader.size + 8

/-- The size of an allocation. -/
def allocationSize : Nat := 16

/-- The configuration space of one bus: 32 devices of 8 functions with 4 KiB each. -/
def bytesPerBus : Nat := 32 * 8 * 4096

/-- The window in the bytes of an allocation. -/
def ofBytes (bs : Bytes) : PcieWindow := ⟨bs.word64 0, bs.word16 8, bs.byte 10, bs.byte 11⟩

/-- Reads the first window of the table at an address. A table too short for one has none. -/
def read? (mem : Memory) (address : Address) : Survey (Option PcieWindow) := do
  let header ← readHeader mem address
  let length := header.length.toNat
  if length < allocationOffset + allocationSize then
    Logged.note .mcfg .warn
      s!"MCFG at {hex address.toNat} holds no allocation ({length} bytes)"
    pure none
  else
    match address.offset? allocationOffset with
    | none => Logged.fail (.badAddress (.overflow address length))
    | some allocation =>
      let bs ← readBytes mem allocation allocationSize
      pure (some (ofBytes bs))

/-- The number of buses that the window decodes, none if the last lies below the first. -/
def buses (w : PcieWindow) : Nat := w.endBus.toNat + 1 - w.startBus.toNat

/-- The size in bytes. -/
def size (w : PcieWindow) : UInt64 := UInt64.ofNat (w.buses * bytesPerBus)

theorem buses_le (w : PcieWindow) : w.buses ≤ 256 := by
  have := w.endBus.toNat_lt
  unfold buses
  omega

theorem toNat_size (w : PcieWindow) : w.size.toNat = w.buses * bytesPerBus := by
  have := w.buses_le
  exact Address.toNat_ofNat (by unfold bytesPerBus; omega)

end PcieWindow

end BootHandoff.Acpi
