/-
  What the coreboot tables tell about the platform.
-/
import BootHandoff.Coreboot.Framebuffer
import BootHandoff.Memory
import BootHandoff.MemoryMap.Region

namespace BootHandoff.Coreboot

/-- The serial console that coreboot used. -/
structure SerialRecord where
  type : UInt32
  base : UInt32
  baud : UInt32
  registerWidth : UInt32
  inputHertz : UInt32
deriving DecidableEq, Repr

/-- The record type of a console behind I/O ports. -/
def SerialRecord.ioMapped : UInt32 := 1

/-- An area of CBMEM, the memory that coreboot keeps for what it hands on. -/
structure CbmemArea where
  id : UInt32
  address : Address
  size : UInt32
deriving DecidableEq, Repr

namespace CbmemArea

/-- The id of the area that holds the ACPI tables. -/
def acpi : UInt32 := 0x41435049

/-- The id of the area that holds the SMBIOS tables. -/
def smbios : UInt32 := 0x534d4254

end CbmemArea

/-- The most memory map entries that are kept. -/
def maxMemoryRegions : Nat := 128

/-- The most CBMEM areas that are kept. -/
def maxCbmemAreas : Nat := 32

/-- The facts found in the tables. -/
structure Info where
  /-- The memory map, in table order. -/
  memoryMap : List Region := []
  serial : Option SerialRecord := none
  framebuffer : Option Framebuffer := none
  /-- The address of the ACPI root pointer. -/
  acpiRsdp : Option Address := none
  version : Option String := none
  /-- The CBMEM areas, in table order. -/
  cbmem : List CbmemArea := []
deriving DecidableEq, Repr

/-- The first CBMEM area with an id. -/
def Info.cbmemArea? (info : Info) (id : UInt32) : Option CbmemArea :=
  info.cbmem.find? fun area => area.id = id

/-- Why the tables cannot be used. -/
inductive TableError
  /-- No header where the tables should be. -/
  | headerNotFound
  /-- The tables hold no memory map. -/
  | noMemoryMap
  /-- A part of the tables cannot be read. -/
  | memory (e : MemoryError)
deriving DecidableEq, Repr

/-- The text of a table error. -/
def TableError.message : TableError → String
  | headerNotFound => "coreboot table header not found"
  | noMemoryMap => "coreboot tables carry no memory map"
  | memory e => s!"coreboot tables unreadable: {e.message}"

end BootHandoff.Coreboot
