/-
  The root system description pointer (RSDP). Its first 20 bytes are as old as ACPI 1.0 and have a
  checksum of their own; from revision 2 on it is longer, has the address of the XSDT, and a
  second checksum covers all of it. `Rsdp.read` takes the fields as they stand, `Rsdp.readChecked`
  also checks the signature, the checksums and the length.
-/
import BootHandoff.Acpi.Table

namespace BootHandoff.Acpi

open Text

/-- A root pointer. -/
structure Rsdp where
  /-- Where the root pointer itself is. -/
  address : Address
  revision : UInt8
  /-- The address of the RSDT, zero if there is none. -/
  rsdt : UInt32
  /-- The address of the XSDT, zero if there is none or the revision is too old for one. -/
  xsdt : Address
  /-- The size of the root pointer in bytes. -/
  length : UInt32
deriving DecidableEq, Repr

namespace Rsdp

/-- The size of the ACPI 1.0 part. -/
def oldSize : Nat := 20

/-- The size of the fields from revision 2 on. -/
def extendedSize : Nat := 36

/-- The longest root pointer that is believed. -/
def maxLength : Nat := 64

/-- The first revision with the extended fields. -/
def extendedRevision : UInt8 := 2

/-- The fields of an ACPI 1.0 root pointer in its bytes. -/
def ofOldBytes (address : Address) (bs : Bytes) : Rsdp :=
  ⟨address, bs.byte 15, bs.word32 16, 0, UInt32.ofNat oldSize⟩

/-- The fields of an extended root pointer in its bytes. -/
def ofExtendedBytes (address : Address) (revision : UInt8) (bs : Bytes) : Rsdp :=
  ⟨address, revision, bs.word32 16, bs.word64 24, bs.word32 20⟩

/-- Reads the root pointer at an address without checking it. -/
def read (mem : Memory) (address : Address) : Survey Rsdp := do
  let old ← readBytes mem address oldSize
  let revision := old.byte 15
  if extendedRevision ≤ revision then
    let bs ← readBytes mem address extendedSize
    pure (ofExtendedBytes address revision bs)
  else pure (ofOldBytes address old)

/-- Refuses a root pointer with a warning. -/
def refuse {α : Type} (why : String) : Survey α := do
  Logged.note .rsdp .warn why
  Logged.fail .invalidRsdp

/-- Checks the length of an extended root pointer and the checksum over all of it. -/
def checkExtended (mem : Memory) (rsdp : Rsdp) : Survey Unit := do
  let length := rsdp.length.toNat
  if extendedSize ≤ length ∧ length ≤ maxLength then
    let bs ← readBytes mem rsdp.address length
    if bs.checksum = 0 then pure ()
    else refuse s!"RSDP extended checksum mismatch at {hex rsdp.address.toNat}"
  else refuse s!"RSDP has implausible length {length}"

/-- Reads and checks the root pointer at an address. -/
def readChecked (mem : Memory) (address : Address) : Survey Rsdp := do
  let head ← readBytes mem address oldSize
  if head.take 8 ≠ Signature.rsdp then
    refuse s!"Invalid RSDP signature at {hex address.toNat}"
  else if head.checksum ≠ 0 then
    refuse s!"RSDP checksum mismatch at {hex address.toNat}"
  else
    let rsdp ← read mem address
    if extendedRevision ≤ rsdp.revision then checkExtended mem rsdp else pure ()
    let tables := s!"RSDT {hex rsdp.rsdt.toNat}, XSDT {hex rsdp.xsdt.toNat}"
    Logged.note .rsdp .debug
      s!"RSDP at {hex rsdp.address.toNat}: revision {rsdp.revision}, {tables}"
    pure rsdp

end Rsdp

end BootHandoff.Acpi
