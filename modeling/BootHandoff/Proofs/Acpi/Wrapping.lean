/-
  Tables at the end of the address space. A root table may declare entries past the last address,
  and an MCFG may declare an allocation there. The readers come to either with a sum that is
  tested or with a read that is refused, and in both cases the survey fails with the range that
  leaves the address space (`outcome_find_of_surveyWraps`), provided that what it reads before that
  can be read.

  Of the entries of a root table, the first that does not end inside of the address space is the
  one that fails, and its own address is still one: an entry whose address would wrap around is
  never come to. An RSDT, whose address has 32 bits, lies far below (`not_entryWraps_rsdt`).
-/
import BootHandoff.Proofs.Acpi.Selection

namespace BootHandoff.Acpi

/-- A range that leaves the address space is refused before memory is asked for it. -/
theorem outcome_readBytes_overflow (mem : Memory) {a : Address} {n : Nat} (hne : a ≠ 0)
    (h : 2 ^ 64 ≤ a.toNat + n) :
    (readBytes mem a n).outcome = .error (.cause (.badAddress (.overflow a n))) := by
  have hrange : requireRange a n = .error (.overflow a n) := by
    unfold requireRange
    rw [if_neg hne, if_pos h]
  rw [readBytes, Logged.outcome_ofExcept, Memory.read, hrange]
  rfl

theorem outcome_readHeader_bind {α : Type} {mem : Memory} {a : Address} {header : Bytes}
    (h : mem.read a 36 = .ok header) (f : TableHeader → Survey α) :
    (readHeader mem a >>= f).outcome = (f (TableHeader.ofBytes header)).outcome := by
  have hread : (readBytes mem a TableHeader.size).outcome = .ok header := by
    rw [readBytes, Logged.outcome_ofExcept, show TableHeader.size = 36 from rfl, h]
    rfl
  rw [readHeader, bind_assoc, Logged.outcome_bind_of_ok hread, pure_bind]

theorem read_eq_ok_of_toOption {mem : Memory} {a : Address} {n : Nat} {bs : Bytes}
    (h : (mem.read a n).toOption = some bs) : mem.read a n = .ok bs := by
  cases hread : mem.read a n with
  | error e =>
    rw [hread] at h
    cases h
  | ok cs =>
    rw [hread] at h
    cases h
    rfl

/-! ## Entries of a root table -/

/-- How many entries end inside of the address space in a root table at an address. -/
def entriesInside (width : Nat) (root : Address) : Nat :=
  (2 ^ 64 - 1 - (root.toNat + 36)) / width

/-- The root table at an address declares an entry that does not end inside of the address space,
    such as one whose address wraps around. The entries that do, and the headers of the tables that
    they lead to, can be read. -/
def EntryWraps (mem : Memory) (width : Nat) (root : Address) : Prop :=
  ∃ header, mem.read root 36 = .ok header ∧
    (∃ index < ((header.word32 4).toNat - 36) / width,
      2 ^ 64 ≤ root.toNat + 36 + (index + 1) * width) ∧
    (listedFrom? mem width root 0 (entriesInside width root)).isSome

variable {mem : Memory} {root : Address}

theorem not_entryWraps_rsdt (mem : Memory) (rsdt : UInt32) :
    ¬ EntryWraps mem 4 rsdt.toUInt64 := by
  rintro ⟨header, -, ⟨index, hindex, hwraps⟩, -⟩
  have hroot := rsdt.toNat_lt
  have hlength := (header.word32 4).toNat_lt
  rw [UInt32.toNat_toUInt64] at hwraps
  omega

namespace RootTable

/-- The walk goes on from the entries that it could read. -/
theorem outcome_listEntries_add {kind : RootTable} {steps index : Nat} {tables : List Listed}
    (h : listedFrom? mem kind.entrySize root index steps = some tables) (length rest : Nat)
    (found : Listing) :
    ∃ found', (listEntries mem kind root length (steps + rest) index found).outcome =
      (listEntries mem kind root length rest (index + steps) found').outcome := by
  induction steps generalizing index tables found with
  | zero => exact ⟨found, by rw [Nat.zero_add, Nat.add_zero]⟩
  | succ steps ih =>
    rw [listedFrom?_succ] at h
    obtain ⟨entry, hentry, h⟩ := Option.bind_eq_some_iff.mp h
    obtain ⟨place, hplace, hword⟩ := Option.bind_eq_some_iff.mp hentry
    obtain ⟨word, hread, hvalue⟩ := Option.bind_eq_some_iff.mp hword
    obtain rfl : UInt64.ofNat word.value = entry := Option.some.inj hvalue
    have hoffset : root.offset? (TableHeader.size + index * kind.entrySize) = some place := hplace
    have hreads := reads_readBytes mem place kind.entrySize
    rw [hread] at hreads
    have hindex : index + (steps + 1) = index + 1 + steps := by omega
    have hcount : steps + 1 + rest = steps + rest + 1 := by omega
    rw [hcount, hindex, listEntries, hoffset]
    dsimp only
    rw [Logged.outcome_bind_of_ok hreads, entryOfBytes_eq kind (length_of_read_toOption hread)]
    by_cases hzero : UInt64.ofNat word.value = 0
    · rw [if_pos hzero] at h
      rw [if_pos hzero]
      exact ih h found
    · rw [if_neg hzero] at h
      obtain ⟨table, htable, h⟩ := Option.bind_eq_some_iff.mp h
      obtain ⟨others, hothers, -⟩ := Option.bind_eq_some_iff.mp h
      obtain ⟨header, hheader, -⟩ := Option.bind_eq_some_iff.mp htable
      rw [if_neg hzero, outcome_readHeader_bind (read_eq_ok_of_toOption hheader)]
      exact ih hothers _

section

variable (kind : RootTable) (h : root.toNat + 36 < 2 ^ 64)

include h

theorem toNat_add_entriesInside_lt :
    root.toNat + (36 + entriesInside kind.entrySize root * kind.entrySize) < 2 ^ 64 := by
  unfold entriesInside
  cases kind with
  | rsdt => rw [entrySize]; omega
  | xsdt => rw [entrySize]; omega

theorem le_toNat_add_entriesInside :
    2 ^ 64 ≤ root.toNat + (36 + entriesInside kind.entrySize root * kind.entrySize) +
      kind.entrySize := by
  unfold entriesInside
  cases kind with
  | rsdt => rw [entrySize]; omega
  | xsdt => rw [entrySize]; omega

end

/-- There are more entries than end inside of the address space if one does not. -/
theorem entriesInside_lt (kind : RootTable) {count index : Nat} (hindex : index < count)
    (hwraps : 2 ^ 64 ≤ root.toNat + 36 + (index + 1) * kind.entrySize) :
    entriesInside kind.entrySize root < count := by
  unfold entriesInside
  cases kind with
  | rsdt => rw [entrySize] at *; omega
  | xsdt => rw [entrySize] at *; omega

/-- The first entry that does not end inside of the address space cannot be read. -/
theorem outcome_listing_of_entryWraps {kind : RootTable}
    (h : EntryWraps mem kind.entrySize root) :
    ∃ place, (listing mem kind root).outcome =
      .error (.cause (.badAddress (.overflow place kind.entrySize))) := by
  obtain ⟨header, hheader, ⟨index, hindex, hwraps⟩, hinside⟩ := h
  obtain ⟨tables, htables⟩ := Option.isSome_iff_exists.mp hinside
  have hroot := Memory.lt_of_read hheader
  have hfits := toNat_add_entriesInside_lt kind hroot
  have hpast := le_toNat_add_entriesInside kind hroot
  -- The entries inside of the address space are declared, and there is one more.
  obtain ⟨rest, hcount⟩ : ∃ rest, ((header.word32 4).toNat - 36) / kind.entrySize =
      entriesInside kind.entrySize root + (rest + 1) :=
    Nat.exists_eq_add_of_lt (entriesInside_lt kind hindex hwraps)
  obtain ⟨place, hplace, hplaceNat⟩ := Address.exists_offset? hfits
  obtain ⟨found, hwalk⟩ :=
    outcome_listEntries_add htables (header.word32 4).toNat (rest + 1) {}
  have hne : place ≠ 0 := by
    intro hzero
    rw [hzero, UInt64.toNat_zero] at hplaceNat
    omega
  refine ⟨place, ?_⟩
  have hoffset : root.offset? (TableHeader.size +
      (0 + entriesInside kind.entrySize root) * kind.entrySize) = some place := by
    rw [Nat.zero_add]
    exact hplace
  rw [listing, outcome_readHeader_bind hheader]
  show (Logged.note .boardInfo .debug _ >>= fun _ => listEntries mem kind root
    (header.word32 4).toNat (((header.word32 4).toNat - 36) / kind.entrySize) 0 {}).outcome = _
  rw [Logged.outcome_note_bind, hcount, hwalk, listEntries, hoffset]
  dsimp only
  rw [Logged.outcome_bind, outcome_readBytes_overflow mem hne (by rw [hplaceNat]; exact hpast)]
  rfl

end RootTable

/-- Where the XSDT wraps, the listing fails once the RSDT is gone through. -/
theorem outcome_listing_of_entryWraps {rsdp : Rsdp}
    (hold : (listed? mem 4 rsdp.rsdt.toUInt64).isSome) (h : EntryWraps mem 8 rsdp.xsdt) :
    ∃ place, (rsdp.listing mem).outcome = .error (.cause (.badAddress (.overflow place 8))) := by
  have hentry : EntryWraps mem RootTable.xsdt.entrySize rsdp.xsdt := h
  obtain ⟨place, hplace⟩ := RootTable.outcome_listing_of_entryWraps hentry
  obtain ⟨tables, htables⟩ := Option.isSome_iff_exists.mp hold
  have hreads := RootTable.reads_listingIfPresent mem .rsdt rsdp.rsdt.toUInt64
  have hlisted : listed? mem RootTable.rsdt.entrySize rsdp.rsdt.toUInt64 = some tables := htables
  rw [hlisted] at hreads
  have hne : rsdp.xsdt ≠ 0 := by
    obtain ⟨header, hheader, -⟩ := h
    exact (Memory.read_eq_ok_iff.mp hheader).1
  refine ⟨place, ?_⟩
  rw [Rsdp.listing, Logged.outcome_bind_of_ok hreads, RootTable.listingIfPresent, if_neg hne,
    Logged.outcome_bind, hplace]
  rfl

/-! ## The survey -/

/-- The MCFG that the survey goes by is long enough for an allocation, but the address of the
    allocation wraps around. The tables before it can be read. -/
def AllocationWraps (mem : Memory) (rsdp : Rsdp) : Prop :=
  ∃ tables fadt mcfg header, rsdp.listed? mem = some tables ∧
    firstWith? (Bytes.ofAscii "FACP") tables = some fadt ∧ (fadtBytes? mem fadt).isSome ∧
    firstWith? (Bytes.ofAscii "MCFG") tables = some mcfg ∧ mem.read mcfg 36 = .ok header ∧
    60 ≤ (header.word32 4).toNat ∧ 2 ^ 64 ≤ mcfg.toNat + 44

/-- The survey comes to an entry of the XSDT or an allocation at an address that wraps around. -/
inductive SurveyWraps (mem : Memory) (rsdp : Rsdp) : Prop
  | entry (hold : (listed? mem 4 rsdp.rsdt.toUInt64).isSome) (h : EntryWraps mem 8 rsdp.xsdt)
  | allocation (h : AllocationWraps mem rsdp)

theorem Fadt.reads_warnMissing (fadt : Fadt) : Reads fadt.warnMissing (some ()) := by
  have hloop := (Reads.pure ()).forM_note_bind (fadt.blocks.filter fun block => block.2 = 0)
    .fadt .warn fun block => s!"FADT: {block.1} block is zero"
  rwa [bind_pure] at hloop

theorem PcieWindow.outcome_read_of_wraps {mcfg : Address} {header : Bytes}
    (hheader : mem.read mcfg 36 = .ok header) (hlength : 60 ≤ (header.word32 4).toNat)
    (hwraps : 2 ^ 64 ≤ mcfg.toNat + 44) :
    (PcieWindow.read? mem mcfg).outcome =
      .error (.cause (.badAddress (.overflow mcfg (header.word32 4).toNat))) := by
  have hoffset : mcfg.offset? PcieWindow.allocationOffset = none :=
    Address.offset?_eq_none_iff.mpr hwraps
  rw [PcieWindow.read?, outcome_readHeader_bind hheader]
  show Logged.outcome (if (header.word32 4).toNat < 60 then _ else _) = _
  rw [if_neg (by omega), hoffset]
  rfl

/-- **Addresses that wrap around.** The survey fails with the range that leaves the address
    space. -/
theorem outcome_find_of_surveyWraps {rsdp : Rsdp} (h : SurveyWraps mem rsdp) :
    ∃ place length, (BoardInfo.find mem rsdp).outcome =
      .error (.cause (.badAddress (.overflow place length))) := by
  cases h with
  | entry hold h =>
    obtain ⟨place, hplace⟩ := outcome_listing_of_entryWraps hold h
    refine ⟨place, 8, ?_⟩
    rw [BoardInfo.find, Logged.outcome_bind, hplace]
    rfl
  | allocation h =>
    obtain ⟨tables, fadt, mcfg, header, hlisted, hfadt, hbytes, hmcfg, hheader, hlength,
      hwraps⟩ := h
    have hlisting := reads_rsdp_listing mem rsdp
    rw [hlisted] at hlisting
    have hfoundFadt : (Listing.ofTables tables).fadt = some fadt := hfadt
    have hfoundMcfg : (Listing.ofTables tables).mcfg = some mcfg := hmcfg
    obtain ⟨bs, hbytes⟩ := Option.isSome_iff_exists.mp hbytes
    have hread := reads_fadt_bind mem fadt fun bs => Reads.pure (Fadt.ofBytes bs)
    rw [hbytes, bind_pure] at hread
    refine ⟨mcfg, (header.word32 4).toNat, ?_⟩
    rw [BoardInfo.find, Logged.outcome_bind_of_ok hlisting, hfoundFadt]
    dsimp only
    rw [Logged.outcome_note_bind, Logged.outcome_bind_of_ok hread,
      Logged.outcome_bind_of_ok (Fadt.reads_warnMissing _), hfoundMcfg, BoardInfo.findWindow,
      Logged.outcome_bind, PcieWindow.outcome_read_of_wraps hheader hlength hwraps]
    rfl

end BootHandoff.Acpi
