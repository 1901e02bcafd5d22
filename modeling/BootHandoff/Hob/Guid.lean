/-
  GUIDs, the 16-byte names of the data that the next boot stage looks for.
-/
import BootHandoff.Bytes

namespace BootHandoff

/-- A GUID in its stored form. -/
structure Guid where
  bytes : Bytes
  length_bytes : bytes.length = 16
deriving DecidableEq

namespace Guid

/-- The GUID with the given fields: the first three are stored as little-endian numbers. -/
def ofFields (timeLow : UInt32) (timeMid timeHigh : UInt16) (rest : Vector UInt8 8) : Guid :=
  ⟨Bytes.ofWord32 timeLow ++ Bytes.ofWord16 timeMid ++ Bytes.ofWord16 timeHigh ++ rest.toList,
    by simp⟩

/-- The GUID in 16 bytes. -/
def ofBytes? (bs : Bytes) : Option Guid :=
  if h : bs.length = 16 then some ⟨bs, h⟩ else none

theorem ofBytes?_bytes (g : Guid) : ofBytes? g.bytes = some g := by
  rw [ofBytes?, dif_pos g.length_bytes]

/-- The board information found in the ACPI tables. -/
def acpiBoardInfo : Guid :=
  ofFields 0x0ad3d31b 0xb3d8 0x4506 #v[0xae, 0x71, 0x2e, 0xf1, 0x10, 0x06, 0xd9, 0x0f]

/-- Where the ACPI and SMBIOS tables are. -/
def systemTableInfo : Guid :=
  ofFields 0x16c8a6d0 0xfe8a 0x4082 #v[0xa2, 0x08, 0xcf, 0x89, 0xc4, 0x29, 0x04, 0x33]

/-- The ACPI root pointer of the universal payload specification. -/
def universalAcpiTable : Guid :=
  ofFields 0x9f9a9506 0x5597 0x4515 #v[0xba, 0xb6, 0x8b, 0xcd, 0xe7, 0x84, 0xba, 0x87]

/-- The SMBIOS entry point of the universal payload specification. -/
def universalSmbiosTable : Guid :=
  ofFields 0x590a0d26 0x06e5 0x4d20 #v[0x8a, 0x82, 0x59, 0xea, 0x1b, 0x34, 0x98, 0x2d]

/-- The framebuffer and its mode. -/
def graphicsInfo : Guid :=
  ofFields 0x39f62cce 0x6825 0x4669 #v[0xbb, 0x56, 0x54, 0x1a, 0xba, 0x75, 0x3a, 0x07]

end Guid

end BootHandoff
