/-
  Reading tables that lie in memory gives back the records they were written from. One record moves
  the reader on by its size (`outcome_addRecords_cons`); by induction a row of records is taken in
  to its end, the table's or that of a record too small to be one (`outcome_addRecords`). A table
  reached by a forward record is read the same way, with its own forward records left out, and
  `outcome_read` puts the two levels together.
-/
import BootHandoff.Proofs.Coreboot.Collecting

namespace BootHandoff.Coreboot

variable {mem : Memory}

/-! ## Records in a row -/

/-- The two fields that every record starts with. -/
theorem read_recordHeader {address : Address} {tag size : UInt32} {rest : Bytes}
    (h : mem.Holds address.toNat (Bytes.ofWord32 tag ++ (Bytes.ofWord32 size ++ rest))) :
    ∃ head, mem.read address recordHeaderSize = .ok head ∧ head.word32 0 = tag ∧
      head.word32 4 = size := by
  rw [← List.append_assoc] at h
  refine ⟨Bytes.ofWord32 tag ++ Bytes.ofWord32 size, h.left.read_all rfl, ?_, ?_⟩
  · show Bytes.word32 ([] ++ (Bytes.ofWord32 tag ++ Bytes.ofWord32 size)) 0 = tag
    exact Bytes.word32_append_ofWord32 rfl tag _
  · simpa using Bytes.word32_append_ofWord32 (Bytes.length_ofWord32 tag) size []

section

variable {onForward : Address → Info → Reading Info} {follow : Address → List TableRecord}
  {start : Address} {bytes fuel offset : Nat} {before : List TableRecord}

/-- A record is taken in and the reader moves on by its size. -/
theorem outcome_addRecords_cons {r : TableRecord}
    (h : mem.Holds (start.toNat + offset) r.encode) (hend : offset + r.size ≤ bytes)
    (hbytes : bytes < 2 ^ 32)
    (hforward : ∀ target rest, r = .forward target rest →
      (onForward target (Info.ofRecords before)).outcome =
        .ok (Info.ofRecords (before ++ follow target))) :
    (addRecords mem onForward start bytes (fuel + 1) offset (Info.ofRecords before)).outcome =
      (addRecords mem onForward start bytes fuel (offset + r.size)
        (Info.ofRecords (before ++ r.resolve follow))).outcome := by
  have hle := r.le_size
  have hroom : ¬ bytes ≤ offset := by
    simp only [recordHeaderSize] at hle
    omega
  obtain ⟨address, hoffset, haddress⟩ := h.exists_offset?
  obtain ⟨head, hread, htag, hsize⟩ := read_recordHeader haddress
  have hword : (UInt32.ofNat r.size).toNat = r.size := UInt32.toNat_ofNat_of_lt' (by
    rw [UInt32.size]; omega)
  have hrecord := outcome_addRecord haddress hforward
  rw [addRecords, if_neg hroom, Logged.outcome_sum_bind hoffset, outcome_readBytes_bind hread,
    htag, hsize, hword, if_neg (Nat.not_lt.mpr hle), Logged.outcome_bind_of_ok hrecord,
    if_pos (by omega)]

/-- A record too small to be one ends the table. -/
theorem outcome_addRecords_stop {s : StopRecord}
    (h : mem.Holds (start.toNat + offset) s.encode) (info : Info) :
    (addRecords mem onForward start bytes fuel offset info).outcome = .ok info := by
  cases fuel with
  | zero => rfl
  | succ fuel =>
    obtain ⟨address, hoffset, haddress⟩ := h.exists_offset?
    obtain ⟨head, hread, -, hsize⟩ := read_recordHeader haddress
    rw [addRecords]
    split
    · rfl
    · rw [Logged.outcome_sum_bind hoffset, outcome_readBytes_bind hread, hsize,
        if_pos s.size_lt]
      exact Logged.outcome_note_bind ..

theorem outcome_addRecords_of_le (h : bytes ≤ offset) (info : Info) :
    (addRecords mem onForward start bytes fuel offset info).outcome = .ok info := by
  cases fuel with
  | zero => rfl
  | succ fuel =>
    rw [addRecords, if_pos h]
    rfl

/-- Records in a row are taken in up to the end of the table. -/
theorem outcome_addRecords (records : List TableRecord) (stop : Option StopRecord)
    (h : mem.Holds (start.toNat + offset) (encodeRecords records ++ encodeStop stop))
    (hend : offset + (encodeRecords records).length ≤ bytes)
    (hstop : stop = none → offset + (encodeRecords records).length = bytes)
    (hbytes : bytes < 2 ^ 32) (hfuel : bytes - offset < recordHeaderSize * fuel)
    (hforward : ∀ before target rest, .forward target rest ∈ records →
      (onForward target (Info.ofRecords before)).outcome =
        .ok (Info.ofRecords (before ++ follow target))) :
    (addRecords mem onForward start bytes fuel offset (Info.ofRecords before)).outcome =
      .ok (Info.ofRecords (before ++ records.flatMap (TableRecord.resolve follow))) := by
  induction records generalizing fuel offset before with
  | nil =>
    rw [List.flatMap_nil, List.append_nil]
    cases stop with
    | none => exact outcome_addRecords_of_le (Nat.le_of_eq (hstop rfl).symm) _
    | some s => exact outcome_addRecords_stop h _
  | cons r records ih =>
    rw [encodeRecords_cons, List.length_append, TableRecord.length_encode,
      ← Nat.add_assoc] at hend hstop
    rw [encodeRecords_cons, List.append_assoc] at h
    have hle := r.le_size
    -- The size of a record pays for the step it takes.
    obtain _ | fuel := fuel
    · omega
    have hrest := h.right
    rw [TableRecord.length_encode, Nat.add_assoc] at hrest
    rw [outcome_addRecords_cons h.left (by omega) hbytes
      fun target rest hr => hforward before target rest (hr ▸ List.mem_cons_self ..)]
    rw [ih hrest hend hstop (by rw [Nat.mul_succ] at hfuel; omega)
      fun before target rest hmem => hforward before target rest (List.mem_cons_of_mem _ hmem)]
    rw [List.flatMap_cons, List.append_assoc]

/-! ## Tables -/

/-- A table in memory is taken in record by record. -/
theorem outcome_addTable {t : Table} {address : Address}
    (h : mem.Holds address.toNat t.encode)
    (hforward : ∀ before target rest, .forward target rest ∈ t.records →
      (onForward target (Info.ofRecords before)).outcome =
        .ok (Info.ofRecords (before ++ follow target))) :
    (addTable mem onForward address (Info.ofRecords before)).outcome =
      .ok (Info.ofRecords (before ++ t.records.flatMap (TableRecord.resolve follow))) := by
  have hheader := h.left.read_all rfl
  rw [t.length_header] at hheader
  have hrecords := h.right
  rw [t.length_header] at hrecords
  obtain ⟨start, hoffset, hstart⟩ := hrecords.exists_offset?
  unfold addTable
  rw [outcome_readBytes_bind hheader, t.headerOfBytes_header]
  refine (Logged.outcome_note_bind ..).trans ((Logged.outcome_sum_bind hoffset _).trans ?_)
  refine outcome_addRecords t.records t.stop hstart ?_ ?_ t.tableBytes.toNat_lt ?_ hforward
  · rw [Nat.zero_add]
    exact t.size_le
  · rw [Nat.zero_add]
    exact t.size_eq
  · simp only [recordHeaderSize]
    omega

end

/-- A table is found at its own address. -/
theorem carriesSignature_of_holds {t : Table} {address : Address}
    (h : mem.Holds address.toNat t.encode) : carriesSignature mem address = true := by
  have hread : mem.read address signature.length = .ok signature := by
    simp only [Table.encode, Table.header, List.append_assoc] at h
    exact h.left.read_all rfl
  rw [show signature.length = 4 from rfl] at hread
  simp [carriesSignature, hread]

theorem headerNear_of_holds {t : Table} {address : Address}
    (h : mem.Holds address.toNat t.encode) :
    headerNear mem address = pure (some address) := by
  rw [headerNear, if_pos (carriesSignature_of_holds h)]

/-- The records of a table that stand for themselves. -/
def Table.ownRecords (t : Table) : List TableRecord :=
  t.records.flatMap (TableRecord.resolve fun _ => [])

/-- The records that a table stands for, with those of the tables it leads to in the place of its
    forward records. -/
def Table.allRecords (t : Table) (tables : Address → Table) : List TableRecord :=
  t.records.flatMap (TableRecord.resolve fun target => (tables target).ownRecords)

theorem outcome_followForward {t : Table} {target : Address}
    (h : mem.Holds target.toNat t.encode) (before : List TableRecord) :
    (followForward mem target (Info.ofRecords before)).outcome =
      .ok (Info.ofRecords (before ++ t.ownRecords)) := by
  unfold followForward
  rw [Logged.outcome_note_bind, headerNear_of_holds h, pure_bind]
  refine outcome_addTable h fun before target rest _ => ?_
  rw [List.append_nil]
  exact Logged.outcome_note_bind ..

theorem isEmpty_memoryMap_ofRecords (records : List TableRecord) :
    (Info.ofRecords records).memoryMap.isEmpty = (records.flatMap TableRecord.regions).isEmpty := by
  simp only [Info.ofRecords]
  cases records.flatMap TableRecord.regions <;> rfl

/-- Reading a table that lies in memory, together with those it leads to, gives what its records
    amount to. -/
theorem outcome_read (hc : mem.Coherent) {t : Table} {address : Address}
    (h : mem.Bears address t.encode) (tables : Address → Table)
    (hforward : ∀ target rest, .forward target rest ∈ t.records →
      mem.Bears target (tables target).encode) :
    (Info.read mem address).outcome =
      if ((t.allRecords tables).flatMap TableRecord.regions).isEmpty then
        .error (.cause .noMemoryMap)
      else .ok (Info.ofRecords (t.allRecords tables)) := by
  have hholds := Memory.holds_of_bears hc h
  have hlocate : locate mem address = pure (some address) := by
    rw [locate, if_neg h.address_ne, headerNear_of_holds hholds]
  have htable : (addTable mem (followForward mem) address (Info.ofRecords [])).outcome =
      .ok (Info.ofRecords (t.allRecords tables)) :=
    outcome_addTable hholds fun before target rest hmem =>
      outcome_followForward (Memory.holds_of_bears hc (hforward target rest hmem)) before
  unfold Info.read
  rw [hlocate, pure_bind]
  refine (Logged.outcome_bind_of_ok htable _).trans ?_
  rw [isEmpty_memoryMap_ofRecords]
  split <;> rfl

/-- A byte that stands in no text. -/
theorem utf8_ne_of_highest (text : String) : Text.utf8 text ≠ [0xff] := by
  intro h
  have hinvalid : ¬ ByteArray.IsValidUTF8 [0xff].toByteArray := by decide
  rw [Text.utf8_eq_iff, String.toUTF8_eq_toByteArray] at h
  exact hinvalid (h ▸ text.isValidUTF8)

/-- A table with a console, a version that is no text, a range, an area, a forward record that leads
    on, and a record that ends it early. -/
def innerTable : Table where
  headerChecksum := 0
  tableBytes := 0x100
  tableChecksum := 0
  tableEntries := 5
  records := [.serial ⟨1, 0x3f8, 115200, 1, 0⟩ [], .brokenVersion [0xff] utf8_ne_of_highest,
    .memory [⟨0x100000, 0x7ff00000, 2⟩] [] TableRecord.short_nil, .cbmem ⟨0x41435049, 0x7fff0000, 64⟩ [],
    .forward 0x3000 []]
  stop := some ⟨0, 4, [0xff, 0xff], by decide⟩
  size_le := by decide +kernel
  size_eq := by simp

/-- A table with a forward record between a range, a version with zeros behind it and a console,
    which the table it leads to replaces, and a pointer. -/
def outerTable : Table where
  headerChecksum := 0
  tableBytes := 106
  tableChecksum := 0
  tableEntries := 5
  records := [.memory [⟨0, 0xa0000, 1⟩] [0xee, 0xee, 0xee] (by decide),
    .version ⟨"4.22", 3, [], by decide, by decide +kernel, by simp⟩,
    .serial ⟨1, 0x2f8, 9600, 1, 0⟩ [], .forward 0x2000 [], .acpiRsdp 0xf0000 []]
  stop := none
  size_le := by decide +kernel
  size_eq := by decide +kernel

/-- A memory with the two tables in it. -/
def linkedTables : Memory :=
  .sparse [.ofArray 0x1000 outerTable.encode.toArray, .ofArray 0x2000 innerTable.encode.toArray]

/-- The version of the first table stays, and the console of the second one counts. -/
theorem outcome_read_linkedTables :
    linkedTables.Coherent ∧ linkedTables.Bears 0x1000 outerTable.encode ∧
      linkedTables.Bears 0x2000 innerTable.encode ∧
      (Info.read linkedTables 0x1000).outcome =
        .ok { memoryMap := [⟨0, 0xa0000, .ram⟩, ⟨0x100000, 0x7ff00000, .reserved⟩]
              serial := some ⟨1, 0x3f8, 115200, 1, 0⟩
              acpiRsdp := some 0xf0000
              version := some "4.22"
              cbmem := [⟨0x41435049, 0x7fff0000, 64⟩] } := by
  have hapart : [Extent.ofArray 0x1000 outerTable.encode.toArray,
      Extent.ofArray 0x2000 innerTable.encode.toArray].Pairwise Extent.Apart := by decide +kernel
  have hcoherent : linkedTables.Coherent := Memory.coherent_sparse hapart
  have houter : linkedTables.Bears 0x1000 outerTable.encode :=
    Memory.bears_sparse hapart (List.mem_cons_self ..) (by decide) (by decide +kernel)
  have hinner : linkedTables.Bears 0x2000 innerTable.encode :=
    Memory.bears_sparse hapart (List.mem_cons_of_mem _ (List.mem_cons_self ..)) (by decide)
      (by decide +kernel)
  refine ⟨hcoherent, houter, hinner, ?_⟩
  rw [outcome_read hcoherent houter (fun _ => innerTable) ?_]
  · rfl
  · intro target rest hmem
    obtain ⟨rfl, -⟩ : target = 0x2000 ∧ rest = [] := by simpa [outerTable] using hmem
    exact hinner

end BootHandoff.Coreboot
