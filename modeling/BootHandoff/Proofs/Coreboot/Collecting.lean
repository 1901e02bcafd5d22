/-
  What a row of records amounts to. `Info.ofRecords` says it of the whole row at once: the first
  ranges and areas up to the limits, the last of everything else. `outcome_addRecord` is the step:
  reading one more record of those that lie in memory gives what the row with that record amounts
  to.
-/
import BootHandoff.Coreboot.Table
import BootHandoff.Proofs.Coreboot.Printing
import BootHandoff.Proofs.Memory.Holding

namespace BootHandoff.Coreboot

/-! ## Facts in records -/

namespace TableRecord

/-- The regions that a record announces. -/
@[simp] def regions : TableRecord → List Region
  | memory ranges .. => ranges.map RangeEntry.region
  | _ => []

/-- The console in a record. -/
@[simp] def console? : TableRecord → Option SerialRecord
  | serial console _ => some console
  | _ => none

/-- The framebuffer in a record. -/
@[simp] def framebuffer? : TableRecord → Option Framebuffer
  | framebuffer fb _ => some fb
  | _ => none

/-- The pointer to the ACPI root pointer in a record. -/
@[simp] def rsdp? : TableRecord → Option Address
  | acpiRsdp pointer _ => some pointer
  | _ => none

/-- The version text in a record. -/
@[simp] def version? : TableRecord → Option String
  | version v => some v.text
  | _ => none

/-- The CBMEM area in a record. -/
@[simp] def area? : TableRecord → Option CbmemArea
  | cbmem area _ => some area
  | _ => none

/-- The records that a record stands for, where `follow` gives those that a forward record leads
    to. -/
def resolve (follow : Address → List TableRecord) : TableRecord → List TableRecord
  | forward target _ => follow target
  | r => [r]

end TableRecord

/-- What records in a row amount to. -/
def Info.ofRecords (records : List TableRecord) : Info where
  memoryMap := (records.flatMap TableRecord.regions).take 128
  serial := (records.filterMap TableRecord.console?).getLast?
  framebuffer := (records.filterMap TableRecord.framebuffer?).getLast?
  acpiRsdp := (records.filterMap TableRecord.rsdp?).getLast?
  version := (records.filterMap TableRecord.version?).getLast?
  cbmem := (records.filterMap TableRecord.area?).take 32

namespace Info

/-- What is known once one more record is taken into account. -/
def add (info : Info) (r : TableRecord) : Info where
  memoryMap := (info.memoryMap ++ r.regions).take 128
  serial := r.console?.or info.serial
  framebuffer := r.framebuffer?.or info.framebuffer
  acpiRsdp := r.rsdp?.or info.acpiRsdp
  version := r.version?.or info.version
  cbmem := (info.cbmem ++ r.area?.toList).take 32

theorem take_append_take {α : Type} (n : Nat) (xs ys : List α) :
    (xs.take n ++ ys).take n = (xs ++ ys).take n := by
  rw [List.take_append, List.take_append, List.take_take, Nat.min_self, List.length_take]
  congr 2
  omega

theorem filterMap_singleton {α β : Type} (f : α → Option β) (x : α) :
    [x].filterMap f = (f x).toList := by
  cases h : f x <;> simp [h]

theorem getLast?_toList {α : Type} (x : Option α) : x.toList.getLast? = x := by
  cases x <;> rfl

theorem ofRecords_append_singleton (records : List TableRecord) (r : TableRecord) :
    ofRecords (records ++ [r]) = (ofRecords records).add r := by
  simp only [ofRecords, add, List.flatMap_append, List.flatMap_singleton, List.filterMap_append,
    filterMap_singleton, List.getLast?_append, getLast?_toList, take_append_take]

theorem length_memoryMap_ofRecords (records : List TableRecord) :
    (ofRecords records).memoryMap.length ≤ maxMemoryRegions := List.length_take_le ..

theorem length_cbmem_ofRecords (records : List TableRecord) :
    (ofRecords records).cbmem.length ≤ maxCbmemAreas := List.length_take_le ..

theorem take_memoryMap_ofRecords (records : List TableRecord) :
    (ofRecords records).memoryMap.take 128 = (ofRecords records).memoryMap :=
  List.take_of_length_le (length_memoryMap_ofRecords records)

theorem take_cbmem_ofRecords (records : List TableRecord) :
    (ofRecords records).cbmem.take 32 = (ofRecords records).cbmem :=
  List.take_of_length_le (length_cbmem_ofRecords records)

end Info

/-! ## Single records -/

variable {mem : Memory} {address : Address}

theorem read_layout {r : TableRecord} (h : mem.Holds address.toNat r.encode) :
    mem.read address (RecordKind.ofTag r.tag).layoutSize = .ok r.layout :=
  h.read_take rfl (by rw [TableRecord.length_encode]; exact r.layoutSize_le_size)

/-- What follows the header of a record. -/
theorem holds_body {r : TableRecord} (h : mem.Holds address.toNat r.encode) :
    mem.Holds (address.toNat + recordHeaderSize) r.body := by
  rw [TableRecord.encode, ← List.append_assoc] at h
  exact h.right

theorem outcome_addSerial {console : SerialRecord} {rest : Bytes}
    (h : mem.Holds address.toNat (TableRecord.serial console rest).encode) (info : Info) :
    (addSerial mem address info).outcome = .ok { info with serial := some console } := by
  have hread : mem.read address SerialRecord.size = .ok (TableRecord.serial console rest).layout :=
    read_layout h
  unfold addSerial
  rw [outcome_readBytes_bind hread, TableRecord.serialOfBytes_layout]
  exact Logged.outcome_note_bind ..

theorem outcome_addFramebuffer {fb : Framebuffer} {rest : Bytes}
    (h : mem.Holds address.toNat (TableRecord.framebuffer fb rest).encode) (info : Info) :
    (addFramebuffer mem address info).outcome = .ok { info with framebuffer := some fb } := by
  have hread : mem.read address Framebuffer.recordSize =
      .ok (TableRecord.framebuffer fb rest).layout := read_layout h
  unfold addFramebuffer
  rw [outcome_readBytes_bind hread, TableRecord.framebufferOfBytes_layout]
  exact Logged.outcome_note_bind ..

theorem outcome_addAcpiRsdp {pointer : Address} {rest : Bytes}
    (h : mem.Holds address.toNat (TableRecord.acpiRsdp pointer rest).encode) (info : Info) :
    (addAcpiRsdp mem address info).outcome = .ok { info with acpiRsdp := some pointer } := by
  have hread : mem.read address pointerRecordSize =
      .ok (TableRecord.acpiRsdp pointer rest).layout := read_layout h
  unfold addAcpiRsdp
  rw [outcome_readBytes_bind hread, TableRecord.pointerOfBytes_layout_acpiRsdp]
  exact Logged.outcome_note_bind ..

theorem outcome_addCbmem {area : CbmemArea} {rest : Bytes}
    (h : mem.Holds address.toNat (TableRecord.cbmem area rest).encode) {info : Info}
    (hlength : info.cbmem.length ≤ maxCbmemAreas) :
    (addCbmem mem address info).outcome =
      .ok { info with cbmem := (info.cbmem ++ [area]).take maxCbmemAreas } := by
  have hread : mem.read address CbmemArea.recordSize = .ok (TableRecord.cbmem area rest).layout :=
    read_layout h
  unfold addCbmem
  rw [outcome_readBytes_bind hread, TableRecord.areaOfBytes_layout,
    Logged.outcome_note_bind]
  split
  · rename_i hroom
    rw [List.take_of_length_le (by rw [List.length_append, List.length_singleton]; omega)]
    rfl
  · rename_i hfull
    rw [Logged.outcome_note_bind, List.take_append_of_le_length (by omega),
      List.take_of_length_le hlength]
    rfl

/-- A version record of which the first bytes are read, whatever they spell. -/
theorem outcome_addVersion {r : TableRecord} (h : mem.Holds address.toNat r.encode) (info : Info) :
    (addVersion mem address r.size info).outcome =
      .ok { info with
        version := (versionOfBytes? (r.body.take maxVersionBytes)).or info.version } := by
  obtain ⟨data, hdata, hbody⟩ := (holds_body h).exists_offset?
  have hlength : min (r.size - recordHeaderSize) maxVersionBytes =
      min maxVersionBytes r.body.length := by
    rw [TableRecord.size, Nat.add_sub_cancel_left, Nat.min_comm]
  have hread := hbody.read_take rfl (Nat.min_le_right maxVersionBytes r.body.length)
  rw [List.take_eq_take_min.symm] at hread
  unfold addVersion
  rw [Logged.outcome_sum_bind hdata, hlength, outcome_readBytes_bind hread]
  cases versionOfBytes? (r.body.take maxVersionBytes) with
  | none => rfl
  | some version => exact Logged.outcome_note_bind ..

/-- A memory record adds its ranges, up to the limit of the map. -/
theorem outcome_addRanges {data : Address} (ranges : List RangeEntry) (index : Nat) {info : Info}
    (h : mem.Holds (data.toNat + index * rangeSize) (ranges.flatMap RangeEntry.encode))
    (hlength : info.memoryMap.length ≤ maxMemoryRegions) :
    (addRanges mem data ranges.length index info).outcome =
      .ok { info with
        memoryMap :=
          (info.memoryMap ++ ranges.map RangeEntry.region).take maxMemoryRegions } := by
  induction ranges generalizing index info with
  | nil =>
    rw [List.map_nil, List.append_nil, List.take_of_length_le hlength]
    rfl
  | cons range ranges ih =>
    rw [List.flatMap_cons] at h
    obtain ⟨place, hoffset, hplace⟩ := h.exists_offset?
    have hread := hplace.left.read_all rfl
    rw [RangeEntry.length_encode] at hread
    rw [List.length_cons, addRanges, Logged.outcome_sum_bind hoffset,
      outcome_readBytes_bind hread, RangeEntry.regionOfBytes_encode]
    refine (Logged.outcome_note_bind ..).trans ?_
    split
    · rename_i hroom
      have hrest := h.right
      rw [RangeEntry.length_encode, Nat.add_assoc, ← Nat.succ_mul] at hrest
      rw [ih (index + 1) hrest (by simp; omega), List.append_assoc]
      rfl
    · rename_i hfull
      rw [Logged.outcome_note_bind, List.take_append_of_le_length (by omega),
        List.take_of_length_le hlength]
      rfl

theorem outcome_addMemory {ranges : List RangeEntry} {rest : Bytes}
    {short : rest.length < rangeSize}
    (h : mem.Holds address.toNat (TableRecord.memory ranges rest short).encode) {info : Info}
    (hlength : info.memoryMap.length ≤ maxMemoryRegions) :
    (addMemory mem address (TableRecord.memory ranges rest short).size info).outcome =
      .ok { info with
        memoryMap :=
          (info.memoryMap ++ ranges.map RangeEntry.region).take maxMemoryRegions } := by
  obtain ⟨data, hdata, hbody⟩ := (holds_body h).exists_offset?
  rw [TableRecord.body] at hbody
  unfold addMemory
  rw [TableRecord.count_memory, Logged.outcome_sum_bind hdata,
    Logged.outcome_note_bind]
  refine outcome_addRanges ranges 0 ?_ hlength
  rw [Nat.zero_mul, Nat.add_zero]
  exact hbody.left

/-! ## A row of records -/

/-- Reading one more record of a row, of which those before it are known. -/
theorem outcome_addRecord {r : TableRecord} {before : List TableRecord}
    {follow : Address → List TableRecord} {onForward : Address → Info → Reading Info}
    (h : mem.Holds address.toNat r.encode)
    (hforward : ∀ target rest, r = .forward target rest →
      (onForward target (Info.ofRecords before)).outcome =
        .ok (Info.ofRecords (before ++ follow target))) :
    (addRecord mem onForward address r.tag r.size (Info.ofRecords before)).outcome =
      .ok (Info.ofRecords (before ++ r.resolve follow)) := by
  -- A record adds what it holds of each fact and leaves the others, full or not, as they are.
  have hadd : ∀ {info : Info}, info = (Info.ofRecords before).add r → r.resolve follow = [r] →
      (Except.ok info : Except (Fault TableError) Info) =
        .ok (Info.ofRecords (before ++ r.resolve follow)) := by
    intro info hinfo hresolve
    rw [hresolve, Info.ofRecords_append_singleton, hinfo]
  have hmap := Info.take_memoryMap_ofRecords before
  have hcbmem := Info.take_cbmem_ofRecords before
  cases r with
  | memory ranges rest short =>
    refine (outcome_addMemory h (Info.length_memoryMap_ofRecords before)).trans (hadd ?_ rfl)
    simp [Info.add, hcbmem, maxMemoryRegions]
  | version v =>
    have hspelt : versionOfBytes? ((TableRecord.version v).body.take maxVersionBytes) =
        some v.text := v.versionOfBytes?_take_encode
    refine (outcome_addVersion h _).trans (hadd ?_ rfl)
    rw [hspelt]
    simp [Info.add, hmap, hcbmem]
  | brokenVersion content broken =>
    have hspelt : versionOfBytes?
        ((TableRecord.brokenVersion content broken).body.take maxVersionBytes) = none :=
      versionOfBytes?_eq_none_iff.mpr broken
    refine (outcome_addVersion h _).trans (hadd ?_ rfl)
    rw [hspelt]
    simp [Info.add, hmap, hcbmem]
  | serial console rest =>
    refine (outcome_addSerial h _).trans (hadd ?_ rfl)
    simp [Info.add, hmap, hcbmem]
  | forward target rest =>
    have hread : mem.read address pointerRecordSize =
        .ok (TableRecord.forward target rest).layout := read_layout h
    show (readBytes mem address pointerRecordSize >>= _).outcome = _
    rw [outcome_readBytes_bind hread, TableRecord.pointerOfBytes_layout_forward]
    exact hforward target rest rfl
  | framebuffer fb rest =>
    refine (outcome_addFramebuffer h _).trans (hadd ?_ rfl)
    simp [Info.add, hmap, hcbmem]
  | cbmem area rest =>
    refine (outcome_addCbmem h (Info.length_cbmem_ofRecords before)).trans (hadd ?_ rfl)
    simp [Info.add, hmap, maxCbmemAreas]
  | acpiRsdp pointer rest =>
    refine (outcome_addAcpiRsdp h _).trans (hadd ?_ rfl)
    simp [Info.add, hmap, hcbmem]
  | other tag unused content =>
    have hother : (addRecord mem onForward address tag
        (TableRecord.other tag unused content).size (Info.ofRecords before)).outcome =
          .ok (Info.ofRecords before) := by
      rw [addRecord, unused]
      exact Logged.outcome_note_bind ..
    refine hother.trans (hadd ?_ rfl)
    simp [Info.add, hmap, hcbmem]

end BootHandoff.Coreboot
