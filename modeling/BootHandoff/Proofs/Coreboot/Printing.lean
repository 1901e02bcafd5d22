/-
  The written form of coreboot tables. A `TableRecord` is the content of a record together with the
  bytes that its layout leaves free, and `encode` writes it; every record whose size is right is
  written by one of them (`TableRecord.exists_of_layoutSize_le`). A version record is written from
  its text, in UTF-8 and filled up with zeros (`VersionText`), or holds bytes that are no text. A
  `Table` is a header, records in a row and, if the table does not end with the last of them, a
  record too small to be one.
-/
import BootHandoff.Coreboot.Header

namespace BootHandoff.Coreboot

/-! ## Ranges -/

/-- A range of a memory record as it stands in the table. -/
structure RangeEntry where
  start : Address
  size : UInt64
  tag : UInt32
deriving DecidableEq

namespace RangeEntry

/-- The region that a range announces. -/
def region (r : RangeEntry) : Region := ⟨r.start, r.size, MemoryType.ofTag r.tag⟩

/-- The bytes of a range. -/
def encode (r : RangeEntry) : Bytes :=
  Bytes.ofWord64 r.start ++ Bytes.ofWord64 r.size ++ Bytes.ofWord32 r.tag

@[simp] theorem length_encode (r : RangeEntry) : r.encode.length = rangeSize := by
  simp [encode, rangeSize]

theorem length_flatMap_encode (ranges : List RangeEntry) :
    (ranges.flatMap encode).length = rangeSize * ranges.length := by
  induction ranges with
  | nil => rfl
  | cons r ranges ih =>
    rw [List.flatMap_cons, List.length_append, ih, length_encode, List.length_cons, Nat.mul_succ,
      Nat.add_comm]

theorem regionOfBytes_encode (r : RangeEntry) : regionOfBytes r.encode = r.region := by
  show (⟨UInt64.ofNat (Bytes.value (Bytes.ofWord64 r.start)),
    UInt64.ofNat (Bytes.value (Bytes.ofWord64 r.size)),
    MemoryType.ofTag (UInt32.ofNat (Bytes.value (Bytes.ofWord32 r.tag)))⟩ : Region) = _
  rw [Bytes.value_ofWord64, Bytes.value_ofWord64, Bytes.value_ofWord32, region]

end RangeEntry

/-! ## Versions -/

/-- What a version record holds if it holds a text: the text, which does not end in a zero
    character, zeros behind it, and bytes past those that are looked at. -/
structure VersionText where
  text : String
  zeros : Nat
  rest : Bytes
  trimmed : text.toList.getLast? ≠ some '\x00'
  fits : (Text.utf8 text).length + zeros ≤ 64
  full : rest ≠ [] → (Text.utf8 text).length + zeros = 64

namespace VersionText

/-- The bytes of a version text. -/
def encode (v : VersionText) : Bytes := Text.utf8 v.text ++ Bytes.zeros v.zeros ++ v.rest

theorem take_encode (v : VersionText) :
    v.encode.take 64 = Text.utf8 v.text ++ Bytes.zeros v.zeros := by
  have hlength : (Text.utf8 v.text ++ Bytes.zeros v.zeros).length =
      (Text.utf8 v.text).length + v.zeros := by
    rw [List.length_append, Bytes.length_zeros]
  by_cases hrest : v.rest = []
  · rw [encode, hrest, List.append_nil, List.take_of_length_le (hlength ▸ v.fits)]
  · rw [encode, List.take_left' (hlength.trans (v.full hrest))]

theorem versionOfBytes?_take_encode (v : VersionText) :
    versionOfBytes? (v.encode.take maxVersionBytes) = some v.text :=
  versionOfBytes?_eq_some_iff.mpr ⟨v.trimmed, v.zeros, v.take_encode⟩

end VersionText

/-- All bytes hold a version text, or are no text as far as they are looked at. -/
theorem exists_versionText (bs : Bytes) :
    (∃ v : VersionText, v.encode = bs) ∨ ∀ text, Text.utf8 text ≠ bs.take 64 := by
  cases hversion : versionOfBytes? (bs.take 64) with
  | none => exact .inr (versionOfBytes?_eq_none_iff.mp hversion)
  | some text =>
    obtain ⟨htrimmed, n, hbytes⟩ := versionOfBytes?_eq_some_iff.mp hversion
    have hlength := congrArg List.length hbytes
    rw [List.length_take, List.length_append, Bytes.length_zeros] at hlength
    refine .inl ⟨⟨text, n, bs.drop 64, htrimmed, by omega, fun hrest => ?_⟩, ?_⟩
    · rw [ne_eq, List.drop_eq_nil_iff] at hrest
      omega
    · rw [VersionText.encode, ← hbytes, List.take_append_drop]

/-! ## Records -/

/-- A tag in use is the only one of its kind. -/
theorem RecordKind.ofTag_inj {a b : UInt32} (h : ofTag a = ofTag b) (hb : ofTag b ≠ other) :
    a = b := by
  rw [← UInt32.toNat_inj]
  unfold ofTag at h hb
  split at h <;> split at h <;> simp_all

/-- The smallest size of a record of a kind, that of the fields which are read of it. -/
def RecordKind.layoutSize : RecordKind → Nat
  | memory | version | other => recordHeaderSize
  | serial => SerialRecord.size
  | forward | acpiRsdp => pointerRecordSize
  | framebuffer => Framebuffer.recordSize
  | cbmem => CbmemArea.recordSize

/-- A record: its content, and the bytes past it that its layout does not name. A memory record
    has fewer of them than another range would take, and a version record is broken if its first
    bytes are no text. -/
inductive TableRecord
  | memory (ranges : List RangeEntry) (rest : Bytes) (short : rest.length < rangeSize)
  | version (version : VersionText)
  | brokenVersion (content : Bytes)
      (broken : ∀ text, Text.utf8 text ≠ content.take 64)
  | serial (console : SerialRecord) (rest : Bytes)
  | forward (target : Address) (rest : Bytes)
  | framebuffer (fb : Framebuffer) (rest : Bytes)
  | cbmem (area : CbmemArea) (rest : Bytes)
  | acpiRsdp (pointer : Address) (rest : Bytes)
  | other (tag : UInt32) (unused : RecordKind.ofTag tag = .other) (content : Bytes)

/-- The fields of a console past the header of its record. -/
def SerialRecord.encode (s : SerialRecord) : Bytes :=
  Bytes.ofWord32 s.type ++ Bytes.ofWord32 s.base ++ Bytes.ofWord32 s.baud
    ++ Bytes.ofWord32 s.registerWidth ++ Bytes.ofWord32 s.inputHertz

/-- The fields of a framebuffer past the header of its record. -/
def Framebuffer.encode (fb : Framebuffer) : Bytes :=
  Bytes.ofWord64 fb.address ++ Bytes.ofWord32 fb.xResolution ++ Bytes.ofWord32 fb.yResolution
    ++ Bytes.ofWord32 fb.bytesPerLine
    ++ [fb.bitsPerPixel, fb.red.position, fb.red.size, fb.green.position, fb.green.size,
      fb.blue.position, fb.blue.size, fb.unused.position, fb.unused.size]

/-- The fields of a CBMEM area past the header of its record. -/
def CbmemArea.encode (area : CbmemArea) : Bytes :=
  Bytes.ofWord64 area.address ++ Bytes.ofWord32 area.size ++ Bytes.ofWord32 area.id

namespace TableRecord

theorem short_nil : ([] : Bytes).length < rangeSize := by decide

/-- The tag of a record. -/
def tag : TableRecord → UInt32
  | memory .. => 0x01
  | version .. | brokenVersion .. => 0x04
  | serial .. => 0x0f
  | forward .. => 0x11
  | framebuffer .. => 0x12
  | cbmem .. => 0x31
  | acpiRsdp .. => 0x43
  | other tag .. => tag

/-- What follows the header of a record. -/
def body : TableRecord → Bytes
  | memory ranges rest _ => ranges.flatMap RangeEntry.encode ++ rest
  | version v => v.encode
  | brokenVersion content _ => content
  | serial console rest => console.encode ++ rest
  | forward target rest => Bytes.ofWord64 target ++ rest
  | framebuffer fb rest => fb.encode ++ rest
  | cbmem area rest => area.encode ++ rest
  | acpiRsdp pointer rest => Bytes.ofWord64 pointer ++ rest
  | other _ _ content => content

/-- The size of a record, its header included. -/
def size (r : TableRecord) : Nat := recordHeaderSize + r.body.length

/-- The bytes of a record. -/
def encode (r : TableRecord) : Bytes :=
  Bytes.ofWord32 r.tag ++ (Bytes.ofWord32 (UInt32.ofNat r.size) ++ r.body)

@[simp] theorem length_encode (r : TableRecord) : r.encode.length = r.size := by
  simp only [encode, size, recordHeaderSize, List.length_append, Bytes.length_ofWord32]
  omega

theorem le_size (r : TableRecord) : recordHeaderSize ≤ r.size := Nat.le_add_right ..

theorem layoutSize_le_size (r : TableRecord) : (RecordKind.ofTag r.tag).layoutSize ≤ r.size := by
  cases r with
  | memory ranges rest short => exact le_size _
  | version v => exact le_size _
  | brokenVersion content broken => exact le_size _
  | serial console rest =>
    show SerialRecord.size ≤ recordHeaderSize + (console.encode ++ rest).length
    simp [SerialRecord.encode, SerialRecord.size, recordHeaderSize]
    omega
  | forward target rest =>
    show pointerRecordSize ≤ recordHeaderSize + (Bytes.ofWord64 target ++ rest).length
    simp [pointerRecordSize, recordHeaderSize]
    omega
  | framebuffer fb rest =>
    show Framebuffer.recordSize ≤ recordHeaderSize + (fb.encode ++ rest).length
    simp [Framebuffer.encode, Framebuffer.recordSize, recordHeaderSize]
    omega
  | cbmem area rest =>
    show CbmemArea.recordSize ≤ recordHeaderSize + (area.encode ++ rest).length
    simp [CbmemArea.encode, CbmemArea.recordSize, recordHeaderSize]
    omega
  | acpiRsdp pointer rest =>
    show pointerRecordSize ≤ recordHeaderSize + (Bytes.ofWord64 pointer ++ rest).length
    simp [pointerRecordSize, recordHeaderSize]
    omega
  | other tag unused content =>
    show (RecordKind.ofTag tag).layoutSize ≤ _
    rw [unused]
    exact le_size _

/-- The number of ranges in a memory record follows from its size. -/
theorem count_memory (ranges : List RangeEntry) (rest : Bytes) (short : rest.length < rangeSize) :
    ((memory ranges rest short).size - recordHeaderSize) / rangeSize = ranges.length := by
  rw [size, Nat.add_sub_cancel_left, body, List.length_append, RangeEntry.length_flatMap_encode,
    Nat.mul_add_div (by decide), Nat.div_eq_of_lt short, Nat.add_zero]

/-- The bytes of a record that its layout names. -/
def layout (r : TableRecord) : Bytes := r.encode.take (RecordKind.ofTag r.tag).layoutSize

theorem serialOfBytes_layout (console : SerialRecord) (rest : Bytes) :
    SerialRecord.ofBytes (serial console rest).layout = console := by
  show (⟨UInt32.ofNat (Bytes.value (Bytes.ofWord32 console.type)),
    UInt32.ofNat (Bytes.value (Bytes.ofWord32 console.base)),
    UInt32.ofNat (Bytes.value (Bytes.ofWord32 console.baud)),
    UInt32.ofNat (Bytes.value (Bytes.ofWord32 console.registerWidth)),
    UInt32.ofNat (Bytes.value (Bytes.ofWord32 console.inputHertz))⟩ : SerialRecord) = _
  simp only [Bytes.value_ofWord32]

theorem framebufferOfBytes_layout (fb : Framebuffer) (rest : Bytes) :
    Framebuffer.ofBytes (framebuffer fb rest).layout = fb := by
  show (⟨UInt64.ofNat (Bytes.value (Bytes.ofWord64 fb.address)),
    UInt32.ofNat (Bytes.value (Bytes.ofWord32 fb.xResolution)),
    UInt32.ofNat (Bytes.value (Bytes.ofWord32 fb.yResolution)),
    UInt32.ofNat (Bytes.value (Bytes.ofWord32 fb.bytesPerLine)),
    fb.bitsPerPixel, fb.red, fb.green, fb.blue, fb.unused⟩ : Framebuffer) = _
  simp only [Bytes.value_ofWord32, Bytes.value_ofWord64]

theorem areaOfBytes_layout (area : CbmemArea) (rest : Bytes) :
    CbmemArea.ofBytes (cbmem area rest).layout = area := by
  show (⟨UInt32.ofNat (Bytes.value (Bytes.ofWord32 area.id)),
    UInt64.ofNat (Bytes.value (Bytes.ofWord64 area.address)),
    UInt32.ofNat (Bytes.value (Bytes.ofWord32 area.size))⟩ : CbmemArea) = _
  simp only [Bytes.value_ofWord32, Bytes.value_ofWord64]

theorem pointerOfBytes_layout_forward (target : Address) (rest : Bytes) :
    pointerOfBytes (forward target rest).layout = target :=
  Bytes.value_ofWord64 target

theorem pointerOfBytes_layout_acpiRsdp (pointer : Address) (rest : Bytes) :
    pointerOfBytes (acpiRsdp pointer rest).layout = pointer :=
  Bytes.value_ofWord64 pointer

/-! Every record whose bytes cover its layout is the written form of one of these. -/

theorem exists_memory (bs : Bytes) : ∃ ranges rest short, (memory ranges rest short).body = bs := by
  by_cases hbs : bs.length < rangeSize
  · exact ⟨[], bs, hbs, rfl⟩
  · simp only [rangeSize] at hbs
    obtain ⟨start, bs, rfl, hstart⟩ := Bytes.exists_ofWord64_append bs (by omega)
    obtain ⟨size, bs, rfl, hsize⟩ := Bytes.exists_ofWord64_append bs (by omega)
    obtain ⟨tag, bs, rfl, htag⟩ := Bytes.exists_ofWord32_append bs (by omega)
    obtain ⟨ranges, rest, short, rfl⟩ := exists_memory bs
    exact ⟨⟨start, size, tag⟩ :: ranges, rest, short, by simp [body, RangeEntry.encode]⟩
termination_by bs.length

theorem exists_serial {bs : Bytes} (h : 20 ≤ bs.length) :
    ∃ console rest, (serial console rest).body = bs := by
  obtain ⟨type, bs, rfl, htype⟩ := Bytes.exists_ofWord32_append bs (by omega)
  obtain ⟨base, bs, rfl, hbase⟩ := Bytes.exists_ofWord32_append bs (by omega)
  obtain ⟨baud, bs, rfl, hbaud⟩ := Bytes.exists_ofWord32_append bs (by omega)
  obtain ⟨width, bs, rfl, hwidth⟩ := Bytes.exists_ofWord32_append bs (by omega)
  obtain ⟨hertz, rest, rfl, hhertz⟩ := Bytes.exists_ofWord32_append bs (by omega)
  exact ⟨⟨type, base, baud, width, hertz⟩, rest, by simp [body, SerialRecord.encode]⟩

theorem exists_framebuffer {bs : Bytes} (h : 29 ≤ bs.length) :
    ∃ fb rest, (framebuffer fb rest).body = bs := by
  obtain ⟨address, bs, rfl, haddress⟩ := Bytes.exists_ofWord64_append bs (by omega)
  obtain ⟨x, bs, rfl, hx⟩ := Bytes.exists_ofWord32_append bs (by omega)
  obtain ⟨y, bs, rfl, hy⟩ := Bytes.exists_ofWord32_append bs (by omega)
  obtain ⟨line, bs, rfl, hline⟩ := Bytes.exists_ofWord32_append bs (by omega)
  obtain ⟨bpp, bs, rfl, hbpp⟩ := Bytes.exists_cons bs (by omega)
  obtain ⟨redPos, bs, rfl, hredPos⟩ := Bytes.exists_cons bs (by omega)
  obtain ⟨redSize, bs, rfl, hredSize⟩ := Bytes.exists_cons bs (by omega)
  obtain ⟨greenPos, bs, rfl, hgreenPos⟩ := Bytes.exists_cons bs (by omega)
  obtain ⟨greenSize, bs, rfl, hgreenSize⟩ := Bytes.exists_cons bs (by omega)
  obtain ⟨bluePos, bs, rfl, hbluePos⟩ := Bytes.exists_cons bs (by omega)
  obtain ⟨blueSize, bs, rfl, hblueSize⟩ := Bytes.exists_cons bs (by omega)
  obtain ⟨unusedPos, bs, rfl, hunusedPos⟩ := Bytes.exists_cons bs (by omega)
  obtain ⟨unusedSize, rest, rfl, -⟩ := Bytes.exists_cons bs (by omega)
  exact ⟨⟨address, x, y, line, bpp, ⟨redPos, redSize⟩, ⟨greenPos, greenSize⟩,
    ⟨bluePos, blueSize⟩, ⟨unusedPos, unusedSize⟩⟩, rest, by simp [body, Framebuffer.encode]⟩

theorem exists_cbmem {bs : Bytes} (h : 16 ≤ bs.length) :
    ∃ area rest, (cbmem area rest).body = bs := by
  obtain ⟨address, bs, rfl, haddress⟩ := Bytes.exists_ofWord64_append bs (by omega)
  obtain ⟨size, bs, rfl, hsize⟩ := Bytes.exists_ofWord32_append bs (by omega)
  obtain ⟨id, rest, rfl, hid⟩ := Bytes.exists_ofWord32_append bs (by omega)
  exact ⟨⟨id, address, size⟩, rest, by simp [body, CbmemArea.encode]⟩

theorem exists_of_layoutSize_le {tag : UInt32} {bs : Bytes}
    (h : (RecordKind.ofTag tag).layoutSize ≤ recordHeaderSize + bs.length) :
    ∃ r : TableRecord, r.tag = tag ∧ r.body = bs := by
  by_cases hused : RecordKind.ofTag tag = .other
  · exact ⟨other tag hused bs, rfl, rfl⟩
  cases hkind : RecordKind.ofTag tag with
  | memory =>
    obtain ⟨ranges, rest, short, hbody⟩ := exists_memory bs
    exact ⟨memory ranges rest short, RecordKind.ofTag_inj hkind.symm hused, hbody⟩
  | version =>
    obtain ⟨v, hbody⟩ | hbroken := exists_versionText bs
    · exact ⟨version v, RecordKind.ofTag_inj hkind.symm hused, hbody⟩
    · exact ⟨brokenVersion bs hbroken, RecordKind.ofTag_inj hkind.symm hused, rfl⟩
  | serial =>
    rw [hkind] at h
    obtain ⟨console, rest, hbody⟩ := exists_serial (Nat.le_of_add_le_add_left h)
    exact ⟨serial console rest, RecordKind.ofTag_inj hkind.symm hused, hbody⟩
  | forward =>
    rw [hkind] at h
    obtain ⟨target, rest, hbody, _⟩ := Bytes.exists_ofWord64_append bs (Nat.le_of_add_le_add_left h)
    exact ⟨forward target rest, RecordKind.ofTag_inj hkind.symm hused, hbody.symm⟩
  | framebuffer =>
    rw [hkind] at h
    obtain ⟨fb, rest, hbody⟩ := exists_framebuffer (Nat.le_of_add_le_add_left h)
    exact ⟨framebuffer fb rest, RecordKind.ofTag_inj hkind.symm hused, hbody⟩
  | cbmem =>
    rw [hkind] at h
    obtain ⟨area, rest, hbody⟩ := exists_cbmem (Nat.le_of_add_le_add_left h)
    exact ⟨cbmem area rest, RecordKind.ofTag_inj hkind.symm hused, hbody⟩
  | acpiRsdp =>
    rw [hkind] at h
    obtain ⟨pointer, rest, hbody, _⟩ := Bytes.exists_ofWord64_append bs (Nat.le_of_add_le_add_left h)
    exact ⟨acpiRsdp pointer rest, RecordKind.ofTag_inj hkind.symm hused, hbody.symm⟩
  | other => exact absurd hkind hused

end TableRecord

/-- The bytes of records in a row. -/
def encodeRecords (records : List TableRecord) : Bytes := records.flatMap TableRecord.encode

@[simp] theorem encodeRecords_nil : encodeRecords [] = [] := rfl

@[simp] theorem encodeRecords_cons (r : TableRecord) (records : List TableRecord) :
    encodeRecords (r :: records) = r.encode ++ encodeRecords records := rfl

/-! ## Tables -/

/-- A record too small for its own header, with whatever follows it. -/
structure StopRecord where
  tag : UInt32
  size : UInt32
  rest : Bytes
  size_lt : size.toNat < recordHeaderSize

/-- The bytes of a record that ends a table, and those after it. -/
def StopRecord.encode (s : StopRecord) : Bytes :=
  Bytes.ofWord32 s.tag ++ (Bytes.ofWord32 s.size ++ s.rest)

/-- The bytes after the records of a table. -/
def encodeStop : Option StopRecord → Bytes
  | none => []
  | some s => s.encode

/-- A table. The size in its header covers the records; without a record that ends the table it is
    the size of the records. -/
structure Table where
  headerChecksum : UInt32
  tableBytes : UInt32
  tableChecksum : UInt32
  tableEntries : UInt32
  records : List TableRecord
  stop : Option StopRecord
  size_le : (encodeRecords records).length ≤ tableBytes.toNat
  size_eq : stop = none → (encodeRecords records).length = tableBytes.toNat

namespace Table

/-- The header of a table. -/
def header (t : Table) : Bytes :=
  Bytes.ofAscii "LBIO" ++ Bytes.ofWord32 (UInt32.ofNat Header.size) ++ Bytes.ofWord32 t.headerChecksum
    ++ Bytes.ofWord32 t.tableBytes ++ Bytes.ofWord32 t.tableChecksum
    ++ Bytes.ofWord32 t.tableEntries

/-- The bytes of a table. -/
def encode (t : Table) : Bytes := t.header ++ (encodeRecords t.records ++ encodeStop t.stop)

@[simp] theorem length_header (t : Table) : t.header.length = Header.size := by
  simp only [header, List.length_append, Bytes.length_ofWord32]
  rfl

theorem headerOfBytes_header (t : Table) :
    Header.ofBytes t.header = ⟨UInt32.ofNat Header.size, t.tableBytes, t.tableEntries⟩ := by
  show (⟨UInt32.ofNat (Bytes.value (Bytes.ofWord32 (UInt32.ofNat Header.size))),
    UInt32.ofNat (Bytes.value (Bytes.ofWord32 t.tableBytes)),
    UInt32.ofNat (Bytes.value (Bytes.ofWord32 t.tableEntries))⟩ : Header) = _
  rw [Bytes.value_ofWord32, Bytes.value_ofWord32, Bytes.value_ofWord32]

end Table

end BootHandoff.Coreboot
