/-
  Hand-off blocks (HOBs) of the Platform Initialization specification and their encoding. Each
  block opens with an eight-byte header that holds its type and its length, and takes a multiple
  of eight bytes (`eight_dvd_size`); what is left over at its end is zero.
-/
import BootHandoff.Hob.Guid
import BootHandoff.MemoryMap.Resource

namespace BootHandoff

/-! ## Lengths -/

/-- A length rounded up to the alignment of blocks. -/
def alignLength (n : Nat) : Nat := (n + 7) / 8 * 8

/-- A 64-bit length rounded up to the alignment of blocks, if the sum this takes fits 64 bits. -/
def alignLength? (n : UInt64) : Option UInt64 :=
  (Address.offset? n 7).map fun _ => UInt64.ofNat (alignLength n.toNat)

theorem eight_dvd_alignLength (n : Nat) : 8 ∣ alignLength n := Nat.dvd_mul_left ..

theorem le_alignLength (n : Nat) : n ≤ alignLength n := by unfold alignLength; omega

theorem alignLength_lt (n : Nat) : alignLength n < n + 8 := by unfold alignLength; omega

/-! ## Blocks -/

namespace HobType

/-- The table that opens a list. -/
def handoff : UInt16 := 0x0001

def allocation : UInt16 := 0x0002

def resource : UInt16 := 0x0003

/-- Data named by a GUID. -/
def guid : UInt16 := 0x0004

def cpu : UInt16 := 0x000b

/-- The block that closes a list. -/
def endOfList : UInt16 := 0xffff

end HobType

/-- A block that describes the platform. -/
inductive Hob
  /-- A range of addresses and what kind of resource it is. -/
  | resource (kind : ResourceKind) (attributes : Attributes) (base length : UInt64)
  /-- A range of memory that is in use. -/
  | allocation (base length : UInt64) (memoryType : UInt32)
  /-- Data named by a GUID. -/
  | guid (name : Guid) (data : Bytes)
  /-- The widths of the memory and I/O address spaces. -/
  | cpu (memoryBits ioBits : UInt8)
deriving DecidableEq

/-- The size of the header that every block opens with. -/
def hobHeaderSize : Nat := 8

/-- The header of a block: its type, its length in 16 bits, and four zero bytes. -/
def hobHeader (type : UInt16) (length : Nat) : Bytes :=
  Bytes.ofWord16 type ++ Bytes.ofWord16 (UInt16.ofNat length) ++ Bytes.zeros 4

@[simp] theorem length_hobHeader (type : UInt16) (n : Nat) :
    (hobHeader type n).length = hobHeaderSize := by
  simp [hobHeader, hobHeaderSize]

namespace Hob

/-- The type of a block. -/
def type : Hob → UInt16
  | resource .. => HobType.resource
  | allocation .. => HobType.allocation
  | guid .. => HobType.guid
  | cpu .. => HobType.cpu

/-- What follows the header. The owner of a resource and the name of an allocation are left
    zero. -/
def content : Hob → Bytes
  | resource kind attributes base length =>
    Bytes.zeros 16 ++ Bytes.ofWord32 kind.code ++ Bytes.ofWord32 attributes
      ++ Bytes.ofWord64 base ++ Bytes.ofWord64 length
  | allocation base length memoryType =>
    Bytes.zeros 16 ++ Bytes.ofWord64 base ++ Bytes.ofWord64 length ++ Bytes.ofWord32 memoryType
      ++ Bytes.zeros 4
  | guid name data => name.bytes ++ data
  | cpu memoryBits ioBits => [memoryBits, ioBits] ++ Bytes.zeros 6

/-- The size of a block without the bytes that fill it up. -/
def bareSize (h : Hob) : Nat := hobHeaderSize + h.content.length

/-- The size of a block. -/
def size (h : Hob) : Nat := alignLength h.bareSize

/-- The bytes of a block. -/
def encode (h : Hob) : Bytes :=
  hobHeader h.type h.size ++ h.content ++ Bytes.zeros (h.size - h.bareSize)

theorem bareSize_resource (k : ResourceKind) (a : Attributes) (b l : UInt64) :
    (resource k a b l).bareSize = 48 := by
  simp [bareSize, content, hobHeaderSize]

theorem bareSize_allocation (b l : UInt64) (t : UInt32) : (allocation b l t).bareSize = 48 := by
  simp [bareSize, content, hobHeaderSize]

theorem bareSize_guid (name : Guid) (data : Bytes) :
    (guid name data).bareSize = 24 + data.length := by
  simp [bareSize, content, hobHeaderSize, name.length_bytes]
  omega

theorem bareSize_cpu (m i : UInt8) : (cpu m i).bareSize = 16 := rfl

theorem eight_dvd_size (h : Hob) : 8 ∣ h.size := eight_dvd_alignLength _

@[simp] theorem length_encode (h : Hob) : h.encode.length = h.size := by
  have := le_alignLength h.bareSize
  simp only [encode, List.length_append, length_hobHeader, Bytes.length_zeros]
  unfold size
  unfold bareSize at *
  omega

end Hob

/-! ## Errors -/

/-- Why a block is refused. -/
inductive HobError
  /-- The room for blocks is used up. -/
  | outOfResources (needed available : Nat)
deriving DecidableEq, Repr

/-- The text of a refusal. -/
def HobError.message : HobError → String
  | outOfResources needed available =>
    s!"HOB window exhausted: need {needed} bytes, {available} available"

end BootHandoff
