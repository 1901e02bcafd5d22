/-
  The memory map as the boot loader reports it: a list of regions, each of one type. The end of a
  region is held at the last address (`toNat_limit`), so a region that would run past it is still
  a region. `totalRam?` is the sum of the RAM sizes, if it fits 64 bits.
-/
import BootHandoff.Address

namespace BootHandoff

/-- What a region of physical memory is used for. -/
inductive MemoryType
  /-- Usable RAM. -/
  | ram
  /-- Reserved, either DRAM that firmware keeps or a device window. -/
  | reserved
  /-- ACPI tables, which can be reclaimed. -/
  | acpi
  /-- ACPI non-volatile storage. -/
  | nvs
  | unusable
  | disabled
  /-- Persistent (non-volatile) memory. -/
  | persistent
deriving DecidableEq, Repr

namespace MemoryType

/-- The type a coreboot memory tag stands for. Tag 16 marks the tables of the boot loader, which
    must survive, so it is reserved like every tag without a meaning of its own. -/
def ofTag (tag : UInt32) : MemoryType :=
  match tag.toNat with
  | 1 => ram
  | 3 => acpi
  | 4 => nvs
  | 5 => unusable
  | 6 => disabled
  | 7 => persistent
  | _ => reserved

/-- The number of the type in the firmware's memory map. -/
def number : MemoryType → UInt32
  | ram => 1
  | reserved => 2
  | acpi => 3
  | nvs => 4
  | unusable => 5
  | disabled => 6
  | persistent => 7

/-- The name written in logs. -/
def name : MemoryType → String
  | ram => "Ram"
  | reserved => "Reserved"
  | acpi => "Acpi"
  | nvs => "Nvs"
  | unusable => "Unusable"
  | disabled => "Disabled"
  | persistent => "PersistentMemory"

theorem ofTag_number (t : MemoryType) : ofTag t.number = t := by cases t <;> rfl

/-- Memory that is DRAM for certain: RAM and the two ACPI types. -/
def isDram : MemoryType → Bool
  | ram | acpi | nvs => true
  | _ => false

/-- Types that say nothing about where DRAM ends. -/
def saysNothingOfDram : MemoryType → Bool
  | unusable | disabled | persistent => true
  | _ => false

end MemoryType

/-- The boundary of the memory that 32 bits address. -/
def fourGiB : Address := 0x100000000

/-- An entry of the memory map. -/
structure Region where
  start : Address
  size : UInt64
  type : MemoryType
deriving DecidableEq, Repr

namespace Region

/-- The address after the last byte, or the last address if the region runs past it. -/
def limit (r : Region) : Address := r.start.offsetClamped r.size.toNat

theorem toNat_limit (r : Region) :
    r.limit.toNat = min (r.start.toNat + r.size.toNat) (2 ^ 64 - 1) :=
  Address.toNat_offsetClamped ..

/-- The whole region lies below 4 GiB. -/
def isLow (r : Region) : Bool := r.limit ≤ fourGiB

end Region

/-- The total size of the RAM in a memory map, if it fits 64 bits. -/
def totalRam? (map : List Region) : Option UInt64 :=
  (map.filter fun r => r.type = .ram).foldlM (fun total r => Address.offset? total r.size.toNat) 0

end BootHandoff
