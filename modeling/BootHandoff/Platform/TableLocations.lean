/-
  Where the ACPI and SMBIOS tables are. The address of the root pointer comes from the boot
  loader's record of it, or else from the CBMEM area of the ACPI tables; the SMBIOS entry point is
  the start of its CBMEM area. Both are published three times over: together, and each in the form
  of the universal payload specification.
-/
import BootHandoff.Acpi.Rsdp
import BootHandoff.Coreboot.Info
import BootHandoff.Procedure

namespace BootHandoff

open Acpi (AcpiError Rsdp Survey)
open Coreboot (CbmemArea)
open Text

/-- The location of the ACPI and SMBIOS tables. -/
structure TableLocations where
  /-- The address of the ACPI root pointer. -/
  acpiBase : Address
  acpiSize : UInt32
  /-- The address of the SMBIOS entry point, zero if there is none. -/
  smbiosBase : Address
  smbiosSize : UInt32
deriving DecidableEq, Repr

namespace TableLocations

/-- The address of the root pointer, of which the boot loader's own record goes first. -/
def rsdpAddress? (info : Coreboot.Info) : Option Address :=
  info.acpiRsdp.or ((info.cbmemArea? CbmemArea.acpi).map (·.address))

/-- The locations that go with a root pointer. -/
def ofRsdp (info : Coreboot.Info) (rsdp : Rsdp) : TableLocations :=
  let smbios := info.cbmemArea? CbmemArea.smbios
  ⟨rsdp.address, rsdp.length, (smbios.map (·.address)).getD 0, (smbios.map (·.size)).getD 0⟩

/-- Finds the tables and checks the root pointer. -/
def find (mem : Memory) (info : Coreboot.Info) : Survey (TableLocations × Rsdp) := do
  match rsdpAddress? info with
  | none => Logged.fail .noRsdp
  | some address =>
    let rsdp ← Rsdp.readChecked mem address
    let tables := ofRsdp info rsdp
    let acpi := s!"{hex tables.acpiBase.toNat}, length {hex tables.acpiSize.toNat}"
    Logged.note .tableLocations .info s!"Detected Acpi Table at {acpi}"
    let smbios := s!"{hex tables.smbiosBase.toNat}, length {hex tables.smbiosSize.toNat}"
    Logged.note .tableLocations .info s!"Detected Smbios Table at {smbios}"
    pure (tables, rsdp)

/-- The bytes in which both locations are handed on together. -/
def encode (t : TableLocations) : Bytes :=
  Bytes.ofWord64 t.acpiBase ++ Bytes.ofWord32 t.acpiSize ++ Bytes.zeros 4
    ++ Bytes.ofWord64 t.smbiosBase ++ Bytes.ofWord32 t.smbiosSize ++ Bytes.zeros 4

@[simp] theorem length_encode (t : TableLocations) : t.encode.length = 32 := by simp [encode]

/-- The bytes in which one table is handed on: the revision 1 and the size 16 of this very
    structure, then the address of the table. -/
def encodeUniversal (table : Address) : Bytes :=
  [1, 0] ++ Bytes.ofWord16 16 ++ Bytes.zeros 4 ++ Bytes.ofWord64 table

@[simp] theorem length_encodeUniversal (table : Address) : (encodeUniversal table).length = 16 := by
  simp [encodeUniversal]

/-- Publishes the locations. -/
def publish {ε : Type} (t : TableLocations) : Procedure ε Unit := do
  Procedure.emit (.guid Guid.systemTableInfo t.encode)
  Procedure.emit (.guid Guid.universalSmbiosTable (encodeUniversal t.smbiosBase))
  Procedure.log .tableLocations .debug "Created SMBIOS table HOB"
  Procedure.emit (.guid Guid.universalAcpiTable (encodeUniversal t.acpiBase))
  Procedure.log .tableLocations .debug "Created ACPI table HOB"

end TableLocations

end BootHandoff
