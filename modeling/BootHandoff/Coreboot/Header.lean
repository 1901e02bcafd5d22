/-
  Where the coreboot tables start. A table header opens with the signature `LBIO`. A pointer to it
  may be off by up to a page, so the page from the pointer on is searched in steps of 16 bytes; a
  null pointer means the two areas in low memory where tables are left by custom.
-/
import BootHandoff.Coreboot.Record
import BootHandoff.Logged

namespace BootHandoff.Coreboot

open Text

/-- A run of the table reader. -/
abbrev Reading (α : Type) := Logged TableError α

/-- Reads memory as a step of the table reader. -/
def readBytes (mem : Memory) (address : Address) (length : Nat) : Reading Bytes :=
  Logged.ofExcept .memory (mem.read address length)

theorem outcome_readBytes_bind {mem : Memory} {address : Address} {length : Nat} {bs : Bytes}
    (h : mem.read address length = .ok bs) {α : Type} (f : Bytes → Reading α) :
    (readBytes mem address length >>= f).outcome = (f bs).outcome :=
  Logged.outcome_bind_of_ok (by rw [readBytes, Logged.outcome_ofExcept, h]; rfl) f

theorem outcome_readBytes_eq_ok_iff {mem : Memory} {address : Address} {length : Nat}
    {bs : Bytes} :
    (readBytes mem address length).outcome = .ok bs ↔ mem.read address length = .ok bs :=
  Logged.outcome_ofExcept_eq_ok_iff

/-- The first four bytes of a table. -/
def signature : Bytes := Bytes.ofAscii "LBIO"

/-- The signature of a table can be read at an address. -/
def carriesSignature (mem : Memory) (address : Address) : Bool :=
  match mem.read address 4 with
  | .ok bs => bs = signature
  | .error _ => false

/-- The first of `steps` addresses, 16 bytes apart, that carries the signature. The first of them
    lies `offset` bytes past `base`. -/
def firstSignature (mem : Memory) (base : Address) :
    (steps offset : Nat) → Reading (Option Address)
  | 0, _ => pure none
  | steps + 1, offset => do
    let address ← Logged.sum (base.offset? offset)
    if carriesSignature mem address then pure (some address)
    else firstSignature mem base steps (offset + 16)

/-- The first 16-byte step of an area that carries the signature. -/
def searchArea (mem : Memory) (base : Address) (size : Nat) : Reading (Option Address) :=
  firstSignature mem base (size / 16) 0

/-- The header at a pointer, or in the page that starts there. -/
def headerNear (mem : Memory) (pointer : Address) : Reading (Option Address) :=
  if carriesSignature mem pointer then pure (some pointer) else searchArea mem pointer 0x1000

/-- The header in the areas of low memory where tables are left by custom. -/
def headerInLowMemory (mem : Memory) : Reading (Option Address) := do
  match ← searchArea mem 0 0x1000 with
  | some header =>
    Logged.note .coreboot .debug "Found coreboot tables in low memory"
    pure (some header)
  | none =>
    match ← searchArea mem 0xf0000 0x10000 with
    | some header =>
      Logged.note .coreboot .debug "Found coreboot tables in BIOS area"
      pure (some header)
    | none => pure none

end BootHandoff.Coreboot
