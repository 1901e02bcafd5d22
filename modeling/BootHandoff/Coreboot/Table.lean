/-
  Reading the coreboot tables. The records of a table are taken in order, each one added to what
  is known so far; a later record of a kind replaces an earlier one, while memory ranges and CBMEM
  areas are collected up to a limit. A forward record of the first table leads to another table,
  whose own forward records lead nowhere. `Info.read` starts from the pointer that coreboot hands
  over.
-/
import BootHandoff.Coreboot.Header

namespace BootHandoff.Coreboot

open Text

/-! ## Single records -/

/-- Adds the ranges of a memory record, of which `count` are left, the next `index` ranges past
    the start of its data. Once the map is full the rest of the record is left out. -/
def addRanges (mem : Memory) (data : Address) :
    (count index : Nat) → Info → Reading Info
  | 0, _, info => pure info
  | count + 1, index, info => do
    let address ← Logged.sum (data.offset? (index * rangeSize))
    let bs ← readBytes mem address rangeSize
    let region := regionOfBytes bs
    let first := hexPadded 14 region.start.toNat
    let limit := hexPadded 14 region.limit.toNat
    Logged.note .coreboot .trace s!"  {first}-{limit} {region.type.name}"
    if info.memoryMap.length < maxMemoryRegions then
      addRanges mem data count (index + 1) { info with memoryMap := info.memoryMap ++ [region] }
    else
      Logged.note .coreboot .warn "Memory map full, ignoring remaining regions"
      pure info

/-- Adds a memory record of `size` bytes. -/
def addMemory (mem : Memory) (address : Address) (size : Nat) (info : Info) : Reading Info := do
  let count := (size - recordHeaderSize) / rangeSize
  let data ← Logged.sum (address.offset? recordHeaderSize)
  Logged.note .coreboot .debug s!"Parsing {count} memory regions"
  addRanges mem data count 0 info

/-- Adds a serial record. -/
def addSerial (mem : Memory) (address : Address) (info : Info) : Reading Info := do
  let serial := SerialRecord.ofBytes (← readBytes mem address SerialRecord.size)
  Logged.note .coreboot .debug
    s!"Serial port: type={serial.type}, base={hex serial.base.toNat}, baud={serial.baud}"
  pure { info with serial := some serial }

/-- Adds a framebuffer record. -/
def addFramebuffer (mem : Memory) (address : Address) (info : Info) : Reading Info := do
  let fb := Framebuffer.ofBytes (← readBytes mem address Framebuffer.recordSize)
  let place := hex fb.address.toNat
  Logged.note .coreboot .debug
    s!"Framebuffer: {fb.xResolution}x{fb.yResolution} @ {place}, {fb.bitsPerPixel} bpp"
  pure { info with framebuffer := some fb }

/-- Adds a record that points to the ACPI root pointer. -/
def addAcpiRsdp (mem : Memory) (address : Address) (info : Info) : Reading Info := do
  let pointer := pointerOfBytes (← readBytes mem address pointerRecordSize)
  Logged.note .coreboot .debug s!"ACPI RSDP: {hex pointer.toNat}"
  pure { info with acpiRsdp := some pointer }

/-- Adds a CBMEM record, unless the list of areas is full. -/
def addCbmem (mem : Memory) (address : Address) (info : Info) : Reading Info := do
  let area := CbmemArea.ofBytes (← readBytes mem address CbmemArea.recordSize)
  let id := hexPadded 10 area.id.toNat
  Logged.note .coreboot .trace
    s!"CBMEM entry {id}: {hex area.address.toNat} ({area.size} bytes)"
  if info.cbmem.length < maxCbmemAreas then
    pure { info with cbmem := info.cbmem ++ [area] }
  else
    Logged.note .coreboot .warn s!"CBMEM entry list full, ignoring {id}"
    pure info

/-- Adds a version record of `size` bytes. A text that is not UTF-8 is left out. -/
def addVersion (mem : Memory) (address : Address) (size : Nat) (info : Info) : Reading Info := do
  let data ← Logged.sum (address.offset? recordHeaderSize)
  let bs ← readBytes mem data (min (size - recordHeaderSize) maxVersionBytes)
  match versionOfBytes? bs with
  | some version =>
    Logged.note .coreboot .debug s!"Coreboot version: {version}"
    pure { info with version := some version }
  | none => pure info

/-! ## Tables -/

/-- Adds one record. What a forward record does is given: it gets the pointer of the record. -/
def addRecord (mem : Memory) (onForward : Address → Info → Reading Info) (address : Address)
    (tag : UInt32) (size : Nat) (info : Info) : Reading Info :=
  match RecordKind.ofTag tag with
  | .memory => addMemory mem address size info
  | .version => addVersion mem address size info
  | .serial => addSerial mem address info
  | .forward => do
    let target := pointerOfBytes (← readBytes mem address pointerRecordSize)
    onForward target info
  | .framebuffer => addFramebuffer mem address info
  | .cbmem => addCbmem mem address info
  | .acpiRsdp => addAcpiRsdp mem address info
  | .other => do
    Logged.note .coreboot .trace s!"Ignoring coreboot tag: {hex tag.toNat}"
    pure info

/-- Adds the records from `offset` on, of a table whose records start at `start` and take `bytes`
    bytes. A record too small for its own header ends the table. Each record moves the offset on
    by 8 bytes or more, so a `fuel` above an eighth of what is left never runs out. -/
def addRecords (mem : Memory) (onForward : Address → Info → Reading Info) (start : Address)
    (bytes : Nat) : (fuel offset : Nat) → Info → Reading Info
  | 0, _, info => pure info
  | fuel + 1, offset, info =>
    if bytes ≤ offset then pure info
    else do
      let address ← Logged.sum (start.offset? offset)
      let head ← readBytes mem address recordHeaderSize
      let size := (head.word32 4).toNat
      if size < recordHeaderSize then
        Logged.note .coreboot .warn s!"Invalid record size: {size}"
        pure info
      else
        let info ← addRecord mem onForward address (head.word32 0) size info
        if offset + size < 2 ^ 32 then
          addRecords mem onForward start bytes fuel (offset + size) info
        else pure info

/-- Adds the table whose header is at an address. -/
def addTable (mem : Memory) (onForward : Address → Info → Reading Info) (address : Address)
    (info : Info) : Reading Info := do
  let header := Header.ofBytes (← readBytes mem address Header.size)
  let extent := s!"{header.tableEntries} table entries, {header.tableBytes} bytes"
  Logged.note .coreboot .debug s!"Found coreboot header at {hex address.toNat}: {extent}"
  let start ← Logged.sum (address.offset? header.headerBytes.toNat)
  let bytes := header.tableBytes.toNat
  addRecords mem onForward start bytes (bytes / recordHeaderSize + 1) 0 info

/-- What a forward record does in a table that was itself reached by one: nothing. -/
def ignoreForward (target : Address) (info : Info) : Reading Info := do
  Logged.note .coreboot .warn s!"Ignoring nested forward pointer to {hex target.toNat}"
  pure info

/-- What a forward record does in the first table: it adds the table it points to. -/
def followForward (mem : Memory) (target : Address) (info : Info) : Reading Info := do
  Logged.note .coreboot .debug s!"Following forward pointer to {hex target.toNat}"
  match ← headerNear mem target with
  | some header => addTable mem ignoreForward header info
  | none =>
    Logged.note .coreboot .warn "Could not find coreboot header at forwarded location"
    pure info

/-- The header of the first table, searched for in low memory if the pointer is null. -/
def locate (mem : Memory) (pointer : Address) : Reading (Option Address) :=
  if pointer = 0 then do
    Logged.note .coreboot .warn "Coreboot table pointer is null, scanning memory..."
    headerInLowMemory mem
  else headerNear mem pointer

/-- Reads the tables that a pointer leads to. -/
def Info.read (mem : Memory) (pointer : Address) : Reading Info := do
  match ← locate mem pointer with
  | none => Logged.fail .headerNotFound
  | some header =>
    let info ← addTable mem (followForward mem) header {}
    if info.memoryMap.isEmpty then Logged.fail .noMemoryMap else pure info

end BootHandoff.Coreboot
