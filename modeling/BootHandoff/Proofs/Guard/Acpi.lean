/-
  The readers of the ACPI tables with their guards. Every offset, length and part of a buffer that
  the readers compute with is guarded here, as `Guard.Words` has it, and none of the guards ever
  stops them: each reader is equal to its counterpart without guards (`readChecked_eq`,
  `listEntries_eq`, `readFadt_eq`, `find_eq`). What keeps the guards quiet is different each time: a
  test of the length before it is used, a minimum with the size of the buffer, or the width of the
  field that the number comes from.
-/
import BootHandoff.Platform.BoardInfo
import BootHandoff.Platform.TableLocations
import BootHandoff.Proofs.Guard.Words

namespace BootHandoff.Guard

open Acpi (AcpiError Fadt Listing PcieWindow Rsdp RootTable Survey TableHeader)
open Coreboot (CbmemArea)
open Text

theorem length_of_outcome_readBytes {mem : Memory} {address : Address} {n : Nat} {bs : Bytes}
    (h : (Acpi.readBytes mem address n).outcome = .ok bs) : bs.length = n := by
  rw [Acpi.readBytes, Logged.outcome_ofExcept] at h
  cases hread : mem.read address n with
  | error e =>
    rw [hread] at h
    cases h
  | ok cs =>
    rw [hread] at h
    cases h
    exact Memory.length_of_read hread

/-! ## The root pointer -/

/-- Reads a root pointer into a buffer for the extended one, first the old part of it. -/
def readRsdp (mem : Memory) (address : Address) : Survey Rsdp := do
  let buffer := Bytes.zeros Rsdp.extendedSize
  let field ← Logged.sum (part buffer 0 Rsdp.oldSize)
  let old ← Acpi.readBytes mem address field.length
  let revision ← Logged.sum old[15]?
  if Rsdp.extendedRevision ≤ revision then
    let bs ← Acpi.readBytes mem address buffer.length
    pure (Rsdp.ofExtendedBytes address revision bs)
  else pure (Rsdp.ofOldBytes address old)

/-- Checks an extended root pointer, of which as much as its length says is read into a buffer for
    the longest one. -/
def checkExtended (mem : Memory) (rsdp : Rsdp) : Survey Unit := do
  let length := rsdp.length.toNat
  if Rsdp.extendedSize ≤ length ∧ length ≤ Rsdp.maxLength then
    let field ← Logged.sum (part (Bytes.zeros Rsdp.maxLength) 0 length)
    let bs ← Acpi.readBytes mem rsdp.address field.length
    if bs.checksum = 0 then pure ()
    else Rsdp.refuse s!"RSDP extended checksum mismatch at {hex rsdp.address.toNat}"
  else Rsdp.refuse s!"RSDP has implausible length {length}"

/-- Reads and checks a root pointer. -/
def readChecked (mem : Memory) (address : Address) : Survey Rsdp := do
  let head ← Acpi.readBytes mem address Rsdp.oldSize
  let signature ← Logged.sum (part head 0 8)
  if signature ≠ Acpi.Signature.rsdp then
    Rsdp.refuse s!"Invalid RSDP signature at {hex address.toNat}"
  else if head.checksum ≠ 0 then
    Rsdp.refuse s!"RSDP checksum mismatch at {hex address.toNat}"
  else
    let rsdp ← readRsdp mem address
    if Rsdp.extendedRevision ≤ rsdp.revision then checkExtended mem rsdp else pure ()
    let tables := s!"RSDT {hex rsdp.rsdt.toNat}, XSDT {hex rsdp.xsdt.toNat}"
    Logged.note .rsdp .debug
      s!"RSDP at {hex rsdp.address.toNat}: revision {rsdp.revision}, {tables}"
    pure rsdp

section

variable (mem : Memory)

theorem readRsdp_eq (address : Address) : readRsdp mem address = Rsdp.read mem address := by
  obtain ⟨field, hpart, hlength⟩ : ∃ field,
      part (Bytes.zeros Rsdp.extendedSize) 0 Rsdp.oldSize = some field ∧
        field.length = Rsdp.oldSize := exists_part_zeros (by decide)
  unfold readRsdp Rsdp.read
  dsimp only
  rw [sum_bind hpart, hlength, Bytes.length_zeros]
  refine Logged.bind_congr_of_ok fun old hold => ?_
  have hold' : old.length = 20 := length_of_outcome_readBytes hold
  have hrevision : old[15]? = some (old.byte 15) := by
    rw [Bytes.byte, List.getD_eq_getElem?_getD, List.getElem?_eq_getElem (by omega),
      Option.getD_some]
  exact sum_bind hrevision _

/-- The length was tested before it is used. -/
theorem checkExtended_eq (rsdp : Rsdp) : checkExtended mem rsdp = rsdp.checkExtended mem := by
  unfold checkExtended Rsdp.checkExtended
  dsimp only
  split
  · rename_i hlength
    obtain ⟨field, hpart, hfield⟩ := exists_part_zeros hlength.2
    rw [sum_bind hpart, hfield]
  · rfl

theorem readChecked_eq (address : Address) :
    readChecked mem address = Rsdp.readChecked mem address := by
  unfold readChecked Rsdp.readChecked
  refine Logged.bind_congr_of_ok fun head hhead => ?_
  have hlength : head.length = 20 := length_of_outcome_readBytes hhead
  have hpart : part head 0 8 = some (head.take 8) := part_eq ⟨by omega, by omega⟩
  rw [sum_bind hpart]
  simp only [readRsdp_eq, checkExtended_eq]

end

/-- Finds the tables and checks the root pointer. -/
def findLocations (mem : Memory) (info : Coreboot.Info) : Survey (TableLocations × Rsdp) := do
  match TableLocations.rsdpAddress? info with
  | none => Logged.fail .noRsdp
  | some address =>
    let rsdp ← readChecked mem address
    let tables := TableLocations.ofRsdp info rsdp
    let acpi := s!"{hex tables.acpiBase.toNat}, length {hex tables.acpiSize.toNat}"
    Logged.note .tableLocations .info s!"Detected Acpi Table at {acpi}"
    let smbios := s!"{hex tables.smbiosBase.toNat}, length {hex tables.smbiosSize.toNat}"
    Logged.note .tableLocations .info s!"Detected Smbios Table at {smbios}"
    pure (tables, rsdp)

theorem findLocations_eq (mem : Memory) (info : Coreboot.Info) :
    findLocations mem info = TableLocations.find mem info := by
  unfold findLocations TableLocations.find
  cases TableLocations.rsdpAddress? info with
  | none => rfl
  | some address => simp only [readChecked_eq]

/-! ## The root tables -/

/-- The offset of an entry of a root table. -/
def entryOffset (kind : RootTable) (index : Nat) : Option Nat := do
  let past ← mul index kind.entrySize
  add TableHeader.size past

/-- Goes through entries of a root table. That the address of one wraps around is a failure of the
    reader, and no matter for a guard. -/
def listEntries (mem : Memory) (kind : RootTable) (address : Address) (length : Nat) :
    (count index : Nat) → Listing → Survey Listing
  | 0, _, found => pure found
  | count + 1, index, found => do
    let offset ← Logged.sum (entryOffset kind index)
    match address.offset? offset with
    | none => Logged.fail (.badAddress (.overflow address length))
    | some place => do
      let entry := kind.entryOfBytes (← Acpi.readBytes mem place kind.entrySize)
      if entry = 0 then listEntries mem kind address length count (index + 1) found
      else
        let header ← Acpi.readHeader mem entry
        listEntries mem kind address length count (index + 1) (found.add header.signature entry)

/-- The tables listed by a root table. A length below that of the header counts as no entries. -/
def listing (mem : Memory) (kind : RootTable) (address : Address) : Survey Listing := do
  let header ← Acpi.readHeader mem address
  let length := header.length.toNat
  let count ← Logged.sum (div (length - TableHeader.size) kind.entrySize)
  Logged.note .boardInfo .debug
    s!"{RootTable.signatureText header.signature} at {hex address.toNat}: {count} entries"
  listEntries mem kind address length count 0 {}

/-- The tables listed by a root table, none if its address is null. -/
def listingIfPresent (mem : Memory) (kind : RootTable) (address : Address) : Survey Listing :=
  if address = 0 then pure {} else listing mem kind address

/-- The tables listed by both root tables. -/
def rootListing (mem : Memory) (rsdp : Rsdp) : Survey Listing := do
  let old ← listingIfPresent mem .rsdt rsdp.rsdt.toUInt64
  let new ← listingIfPresent mem .xsdt rsdp.xsdt
  pure (old.merge new)

section

variable (mem : Memory)

theorem entryOffset_eq {kind : RootTable} {index : Nat} (h : index < 2 ^ 32) :
    entryOffset kind index = some (TableHeader.size + index * kind.entrySize) := by
  have hpast : index * kind.entrySize < 2 ^ 35 := by
    cases kind with
    | rsdt => rw [RootTable.entrySize]; omega
    | xsdt => rw [RootTable.entrySize]; omega
  unfold entryOffset
  rw [step (mul_eq (by omega))]
  exact add_eq (by rw [TableHeader.size]; omega)

/-- There are fewer entries than a 32-bit length can count. -/
theorem listEntries_eq (kind : RootTable) (address : Address) (length count index : Nat)
    (found : Listing) (h : index + count ≤ 2 ^ 32) :
    listEntries mem kind address length count index found =
      RootTable.listEntries mem kind address length count index found := by
  induction count generalizing index found with
  | zero => rfl
  | succ count ih =>
    have hrest : ∀ found, listEntries mem kind address length count (index + 1) found =
        RootTable.listEntries mem kind address length count (index + 1) found :=
      fun found => ih (index + 1) found (by omega)
    unfold listEntries RootTable.listEntries
    rw [sum_bind (entryOffset_eq (by omega))]
    cases address.offset? (TableHeader.size + index * kind.entrySize) with
    | none => rfl
    | some place => simp only [hrest]

theorem listing_eq (kind : RootTable) (address : Address) :
    listing mem kind address = RootTable.listing mem kind address := by
  have hsize : kind.entrySize ≠ 0 := by cases kind <;> decide
  unfold listing RootTable.listing
  refine Logged.bind_congr_of_ok fun header _ => ?_
  have hlength := header.length.toNat_lt
  have hcount := Nat.div_le_self (header.length.toNat - TableHeader.size) kind.entrySize
  dsimp only
  rw [sum_bind (div_eq hsize), listEntries_eq mem kind address _ _ 0 {} (by omega)]

theorem rootListing_eq (rsdp : Rsdp) : rootListing mem rsdp = rsdp.listing mem := by
  unfold rootListing Rsdp.listing listingIfPresent RootTable.listingIfPresent
  simp only [listing_eq]

end

/-! ## The tables that are listed -/

/-- Reads the FADT into a buffer for the part that is used. -/
def readFadt (mem : Memory) (address : Address) : Survey Fadt := do
  let header ← Acpi.readHeader mem address
  let field ← Logged.sum
    (part (Bytes.zeros Fadt.usedSize) 0 (min header.length.toNat Fadt.usedSize))
  let bs ← Acpi.readBytes mem address field.length
  pure (Fadt.ofBytes bs)

/-- The size of a configuration window. An end bus below the start bus counts as no buses. -/
def windowSize (w : PcieWindow) : Option UInt64 := do
  let past ← add w.endBus.toNat 1
  let size ← mul (past - w.startBus.toNat) PcieWindow.bytesPerBus
  some (UInt64.ofNat size)

/-- The size of the configuration window, zero if there is none. -/
def windowSizeIfPresent : Option PcieWindow → Option UInt64
  | none => some 0
  | some w => windowSize w

/-- Gathers the board information. -/
def find (mem : Memory) (rsdp : Rsdp) : Survey (BoardInfo × Fadt) := do
  let found ← rootListing mem rsdp
  match found.fadt with
  | none => Logged.fail .fadtNotFound
  | some address =>
    Logged.note .boardInfo .debug s!"FADT at {hex address.toNat}"
    let fadt ← readFadt mem address
    fadt.warnMissing
    let window ← BoardInfo.findWindow mem found.mcfg
    let size ← Logged.sum (windowSizeIfPresent window)
    let info := { BoardInfo.ofTables found fadt window with pcieSize := size }
    info.lines.forM fun line => Logged.note .boardInfo .info line
    pure (info, fadt)

/-- No more is read than the buffer holds. -/
theorem readFadt_eq (mem : Memory) (address : Address) :
    readFadt mem address = Fadt.read mem address := by
  unfold readFadt Fadt.read
  refine Logged.bind_congr_of_ok fun header _ => ?_
  obtain ⟨field, hpart, hfield⟩ :=
    exists_part_zeros (Nat.min_le_right header.length.toNat Fadt.usedSize)
  rw [sum_bind hpart, hfield]

theorem windowSize_eq (w : PcieWindow) : windowSize w = some w.size := by
  have hend := w.endBus.toNat_lt
  have hbuses : w.endBus.toNat + 1 - w.startBus.toNat ≤ 256 := w.buses_le
  unfold windowSize
  rw [step (add_eq (by omega)), step (mul_eq (by unfold PcieWindow.bytesPerBus; omega))]
  rfl

theorem find_eq (mem : Memory) (rsdp : Rsdp) : find mem rsdp = BoardInfo.find mem rsdp := by
  have hsize : ∀ window : Option PcieWindow,
      windowSizeIfPresent window = some ((window.map (·.size)).getD 0) := by
    intro window
    cases window with
    | none => rfl
    | some w => exact windowSize_eq w
  have hrest : ∀ (window : Option PcieWindow) (f : UInt64 → Survey (BoardInfo × Fadt)),
      Logged.sum (windowSizeIfPresent window) >>= f = f ((window.map (·.size)).getD 0) :=
    fun window f => sum_bind (hsize window) f
  unfold find BoardInfo.find
  simp only [rootListing_eq, readFadt_eq, hrest]
  rfl

end BootHandoff.Guard
