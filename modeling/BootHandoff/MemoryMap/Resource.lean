/-
  Resource descriptors: what the next boot stage is told about a range of memory, with the codes
  that the Platform Initialization specification gives to kinds, attributes and allocations.
-/
import BootHandoff.Address

namespace BootHandoff

/-- What kind of resource a range of addresses is. -/
inductive ResourceKind
  | systemMemory
  | memoryMappedIo
  | reserved
deriving DecidableEq, Repr

namespace ResourceKind

/-- The resource type code. -/
def code : ResourceKind → UInt32
  | systemMemory => 0
  | memoryMappedIo => 1
  | reserved => 5

/-- The name written in logs. -/
def name : ResourceKind → String
  | systemMemory => "SystemMemory"
  | memoryMappedIo => "MemoryMappedIo"
  | reserved => "Reserved"

/-- The kind with a resource type code. -/
def ofCode? (code : UInt32) : Option ResourceKind :=
  match code.toNat with
  | 0 => some systemMemory
  | 1 => some memoryMappedIo
  | 5 => some reserved
  | _ => none

theorem ofCode?_code (k : ResourceKind) : ofCode? k.code = some k := by cases k <;> rfl

end ResourceKind

/-- A set of resource attributes, one bit each. -/
abbrev Attributes := UInt32

namespace Attributes

def present : Attributes := 0x1

def initialized : Attributes := 0x2

def tested : Attributes := 0x4

def uncacheable : Attributes := 0x400

def writeCombineable : Attributes := 0x800

def writeThroughCacheable : Attributes := 0x1000

def writeBackCacheable : Attributes := 0x2000

/-- The attributes of every entry of the memory map. -/
def memoryMap : Attributes :=
  present ||| initialized ||| tested ||| uncacheable ||| writeCombineable
    ||| writeThroughCacheable ||| writeBackCacheable

/-- The attributes of an uncached device window. -/
def deviceWindow : Attributes := present ||| initialized ||| tested ||| uncacheable

end Attributes

/-- Why a described range must stay allocated. -/
inductive Allocation
  | unusable
  | persistent
  | acpiReclaim
  | acpiNvs
deriving DecidableEq, Repr

namespace Allocation

/-- The EFI memory type of the allocation. -/
def memoryType : Allocation → UInt32
  | unusable => 8
  | persistent => 14
  | acpiReclaim => 9
  | acpiNvs => 10

/-- The name written in logs. -/
def name : Allocation → String
  | unusable => "Unusable"
  | persistent => "PersistentMemory"
  | acpiReclaim => "AcpiReclaim"
  | acpiNvs => "AcpiNvs"

end Allocation

/-- The description of one entry of the memory map. -/
structure Descriptor where
  base : Address
  size : UInt64
  kind : ResourceKind
  attributes : Attributes
  allocation : Option Allocation
deriving DecidableEq, Repr

end BootHandoff
