/-
  ACPI tables in general: their common header, the signatures of the tables that matter here, and
  what can go wrong on the way to them.
-/
import BootHandoff.Logged
import BootHandoff.Memory

namespace BootHandoff.Acpi

/-- Why the ACPI tables cannot be used. -/
inductive AcpiError
  /-- The boot loader names no root pointer. -/
  | noRsdp
  /-- The root pointer has a wrong signature or checksum. -/
  | invalidRsdp
  /-- No root table lists a FADT. -/
  | fadtNotFound
  /-- A table cannot be read. -/
  | badAddress (e : MemoryError)
deriving DecidableEq, Repr

/-- The text of an ACPI error. -/
def AcpiError.message : AcpiError → String
  | noRsdp => "no ACPI RSDP provided"
  | invalidRsdp => "invalid ACPI RSDP"
  | fadtNotFound => "FADT not found in RSDT/XSDT"
  | badAddress e => s!"ACPI table unreadable: {e.message}"

/-- A run of the ACPI reader. -/
abbrev Survey (α : Type) := Logged AcpiError α

/-- Reads memory as a step of the ACPI reader. -/
def readBytes (mem : Memory) (address : Address) (length : Nat) : Survey Bytes :=
  Logged.ofExcept .badAddress (mem.read address length)

section

variable {α : Type} {mem : Memory} {address : Address} {length : Nat}

theorem outcome_readBytes_bind_of_ok {bs : Bytes} (h : mem.read address length = .ok bs)
    (f : Bytes → Survey α) : (readBytes mem address length >>= f).outcome = (f bs).outcome :=
  Logged.outcome_bind_of_ok (Logged.outcome_ofExcept_eq_ok_iff.mpr h) f

theorem outcome_readBytes_bind_of_error {e : MemoryError} (h : mem.read address length = .error e)
    (f : Bytes → Survey α) :
    (readBytes mem address length >>= f).outcome = .error (.cause (.badAddress e)) := by
  rw [Logged.outcome_bind, readBytes, Logged.outcome_ofExcept, h]
  rfl

end

/-! ## The table header -/

/-- The header that every table but the root pointer starts with. -/
structure TableHeader where
  signature : Bytes
  length : UInt32
  revision : UInt8
  checksum : UInt8
  oemId : Bytes
  oemTableId : Bytes
  oemRevision : UInt32
  creatorId : UInt32
  creatorRevision : UInt32
deriving DecidableEq, Repr

/-- The size of a table header. -/
def TableHeader.size : Nat := 36

/-- The header in its 36 bytes. -/
def TableHeader.ofBytes (bs : Bytes) : TableHeader where
  signature := bs.slice 0 4
  length := bs.word32 4
  revision := bs.byte 8
  checksum := bs.byte 9
  oemId := bs.slice 10 6
  oemTableId := bs.slice 16 8
  oemRevision := bs.word32 24
  creatorId := bs.word32 28
  creatorRevision := bs.word32 32

/-- Reads the header of the table at an address. -/
def readHeader (mem : Memory) (address : Address) : Survey TableHeader := do
  let bs ← readBytes mem address TableHeader.size
  pure (TableHeader.ofBytes bs)

/-! ## Signatures -/

namespace Signature

/-- The fixed ACPI description table. -/
def fadt : Bytes := Bytes.ofAscii "FACP"

/-- The table of PCI Express configuration windows. -/
def mcfg : Bytes := Bytes.ofAscii "MCFG"

/-- The trusted platform module, version 2.0. -/
def tpm2 : Bytes := Bytes.ofAscii "TPM2"

/-- The trusted platform module, version 1.2. -/
def tcpa : Bytes := Bytes.ofAscii "TCPA"

/-- The root system description pointer. -/
def rsdp : Bytes := Bytes.ofAscii "RSD PTR "

end Signature

end BootHandoff.Acpi
