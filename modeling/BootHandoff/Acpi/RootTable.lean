/-
  The root tables, which list the addresses of all other tables: the RSDT with 32-bit entries and
  the XSDT with 64-bit entries. Of each table that is looked for, the first one listed counts, and
  what the XSDT lists goes before what the RSDT lists.
-/
import BootHandoff.Acpi.Rsdp

namespace BootHandoff.Acpi

open Text

/-- The tables of interest among those listed. -/
structure Listing where
  fadt : Option Address := none
  mcfg : Option Address := none
  tpm2 : Bool := false
  tcpa : Bool := false
deriving DecidableEq, Repr

namespace Listing

/-- Takes note of a listed table. -/
def add (found : Listing) (signature : Bytes) (address : Address) : Listing :=
  if signature = Signature.fadt then { found with fadt := found.fadt.or (some address) }
  else if signature = Signature.mcfg then { found with mcfg := found.mcfg.or (some address) }
  else if signature = Signature.tpm2 then { found with tpm2 := true }
  else if signature = Signature.tcpa then { found with tcpa := true }
  else found

/-- Two listings taken together, of which the second goes first. -/
def merge (found preferred : Listing) : Listing where
  fadt := preferred.fadt.or found.fadt
  mcfg := preferred.mcfg.or found.mcfg
  tpm2 := found.tpm2 || preferred.tpm2
  tcpa := found.tcpa || preferred.tcpa

end Listing

/-- The two kinds of root table. -/
inductive RootTable
  | rsdt
  | xsdt
deriving DecidableEq, Repr

namespace RootTable

/-- The size of an entry. -/
def entrySize : RootTable → Nat
  | rsdt => 4
  | xsdt => 8

/-- The address in the bytes of an entry. -/
def entryOfBytes : RootTable → Bytes → Address
  | rsdt, bs => (bs.word32 0).toUInt64
  | xsdt, bs => bs.word64 0

/-- Goes through `count` entries of the root table at `address`, which declares `length` bytes,
    from entry `index` on. Null entries are skipped. -/
def listEntries (mem : Memory) (kind : RootTable) (address : Address) (length : Nat) :
    (count index : Nat) → Listing → Survey Listing
  | 0, _, found => pure found
  | count + 1, index, found =>
    match address.offset? (TableHeader.size + index * kind.entrySize) with
    | none => Logged.fail (.badAddress (.overflow address length))
    | some place => do
      let entry := kind.entryOfBytes (← readBytes mem place kind.entrySize)
      if entry = 0 then listEntries mem kind address length count (index + 1) found
      else
        let header ← readHeader mem entry
        listEntries mem kind address length count (index + 1) (found.add header.signature entry)

/-- A table signature as text. -/
def signatureText (signature : Bytes) : String :=
  (String.fromUTF8? signature.toByteArray).getD "????"

/-- The tables listed by the root table at an address. -/
def listing (mem : Memory) (kind : RootTable) (address : Address) : Survey Listing := do
  let header ← readHeader mem address
  let length := header.length.toNat
  let count := (length - TableHeader.size) / kind.entrySize
  Logged.note .boardInfo .debug
    s!"{signatureText header.signature} at {hex address.toNat}: {count} entries"
  listEntries mem kind address length count 0 {}

/-- The tables listed by a root table, none if its address is null. -/
def listingIfPresent (mem : Memory) (kind : RootTable) (address : Address) : Survey Listing :=
  if address = 0 then pure {} else listing mem kind address

end RootTable

/-- The tables listed by the root tables of a root pointer. -/
def Rsdp.listing (mem : Memory) (rsdp : Rsdp) : Survey Listing := do
  let old ← RootTable.rsdt.listingIfPresent mem rsdp.rsdt.toUInt64
  let new ← RootTable.xsdt.listingIfPresent mem rsdp.xsdt
  pure (old.merge new)

end BootHandoff.Acpi
