/-
  The records of a coreboot table: which tag announces what, and where the fields of each record
  lie. Offsets count from the start of the record, whose first eight bytes are its tag and its
  size.
-/
import BootHandoff.Coreboot.Info
import BootHandoff.Text.Utf8

namespace BootHandoff.Coreboot

/-- What a record is about. -/
inductive RecordKind
  | memory
  | version
  | serial
  /-- A pointer to another table. -/
  | forward
  | framebuffer
  | cbmem
  | acpiRsdp
  /-- A tag that is not used. -/
  | other
deriving DecidableEq, Repr

/-- The kind that a tag announces. -/
def RecordKind.ofTag (tag : UInt32) : RecordKind :=
  match tag.toNat with
  | 0x01 => memory
  | 0x04 => version
  | 0x0f => serial
  | 0x11 => forward
  | 0x12 => framebuffer
  | 0x31 => cbmem
  | 0x43 => acpiRsdp
  | _ => other

/-- The size of a record's tag and size fields. -/
def recordHeaderSize : Nat := 8

/-! ## Layouts -/

/-- The header of a table. -/
structure Header where
  headerBytes : UInt32
  tableBytes : UInt32
  tableEntries : UInt32
deriving DecidableEq, Repr

/-- The size of a table header. -/
def Header.size : Nat := 24

/-- The header in its first 24 bytes, of which the signature and the checksums are not looked
    at. -/
def Header.ofBytes (bs : Bytes) : Header := ⟨bs.word32 4, bs.word32 12, bs.word32 20⟩

/-- The size of a serial record without the fields that older tables lack. -/
def SerialRecord.size : Nat := 28

/-- The serial record in its bytes. -/
def SerialRecord.ofBytes (bs : Bytes) : SerialRecord :=
  ⟨bs.word32 8, bs.word32 12, bs.word32 16, bs.word32 20, bs.word32 24⟩

/-- The size of a framebuffer record. -/
def Framebuffer.recordSize : Nat := 37

/-- The framebuffer in the bytes of its record. -/
def Framebuffer.ofBytes (bs : Bytes) : Framebuffer where
  address := bs.word64 8
  xResolution := bs.word32 16
  yResolution := bs.word32 20
  bytesPerLine := bs.word32 24
  bitsPerPixel := bs.byte 28
  red := ⟨bs.byte 29, bs.byte 30⟩
  green := ⟨bs.byte 31, bs.byte 32⟩
  blue := ⟨bs.byte 33, bs.byte 34⟩
  unused := ⟨bs.byte 35, bs.byte 36⟩

/-- The size of a record that holds one pointer. -/
def pointerRecordSize : Nat := 16

/-- The pointer in the bytes of a pointer record. -/
def pointerOfBytes (bs : Bytes) : Address := bs.word64 8

/-- The size of a CBMEM record. -/
def CbmemArea.recordSize : Nat := 24

/-- The CBMEM area in the bytes of its record. -/
def CbmemArea.ofBytes (bs : Bytes) : CbmemArea := ⟨bs.word32 20, bs.word64 8, bs.word32 16⟩

/-- The size of one range of a memory record. -/
def rangeSize : Nat := 20

/-- The region in the bytes of one range of a memory record. -/
def regionOfBytes (bs : Bytes) : Region :=
  ⟨bs.word64 0, bs.word64 8, MemoryType.ofTag (bs.word32 16)⟩

/-- The most bytes of a version text that are looked at. -/
def maxVersionBytes : Nat := 64

/-- The version text in its bytes, without the zero characters at its end, if it is UTF-8. -/
def versionOfBytes? (bs : Bytes) : Option String :=
  (String.fromUTF8? bs.toByteArray).map fun text =>
    String.ofList (text.toList.reverse.dropWhile (· = '\x00')).reverse

/-- What is left of a text without the zero characters at its end. -/
theorem reverse_dropWhile_reverse_eq_iff {cs ds : List Char} :
    (cs.reverse.dropWhile (· = '\x00')).reverse = ds ↔
      ds.getLast? ≠ some '\x00' ∧ ∃ n, cs = ds ++ List.replicate n '\x00' := by
  constructor
  · rintro rfl
    constructor
    · intro hlast
      have hkept := List.head?_dropWhile_not (fun c => decide (c = '\x00')) cs.reverse
      rw [List.getLast?_reverse] at hlast
      rw [hlast] at hkept
      cases hkept
    · obtain ⟨n, hzeros⟩ : ∃ n, cs.reverse.takeWhile (· = '\x00') = List.replicate n '\x00' :=
        ⟨_, List.eq_replicate_of_mem fun c hc =>
          of_decide_eq_true (List.all_eq_true.mp List.all_takeWhile c hc)⟩
      refine ⟨n, ?_⟩
      calc cs
        _ = (cs.reverse.takeWhile (· = '\x00') ++ cs.reverse.dropWhile (· = '\x00')).reverse := by
          rw [List.takeWhile_append_dropWhile, List.reverse_reverse]
        _ = (cs.reverse.dropWhile (· = '\x00')).reverse ++
            (cs.reverse.takeWhile (· = '\x00')).reverse := List.reverse_append
        _ = _ := by rw [hzeros, List.reverse_replicate]
  · rintro ⟨hlast, n, rfl⟩
    have hzeros : ∀ c ∈ List.replicate n '\x00', decide (c = '\x00') = true := fun c hc =>
      decide_eq_true (List.eq_of_mem_replicate hc)
    rw [List.reverse_append, List.reverse_replicate, List.dropWhile_append_of_pos hzeros,
      List.reverse_eq_iff]
    -- The last character that is left is no zero, so that nothing more is taken off.
    rw [← List.head?_reverse] at hlast
    cases hrest : ds.reverse with
    | nil => rfl
    | cons c rest =>
      rw [hrest] at hlast
      exact List.dropWhile_cons_of_neg fun hc => hlast (congrArg some (of_decide_eq_true hc))

/-- A zero character is a zero byte. -/
theorem utf8_ofList_append_replicate (cs : List Char) (n : Nat) :
    Text.utf8 (String.ofList (cs ++ List.replicate n '\x00')) =
      Text.utf8 (String.ofList cs) ++ Bytes.zeros n := by
  have hzero : String.utf8EncodeChar '\x00' = [0] := by decide
  rw [Text.utf8_eq, Text.utf8_eq, String.toList_ofList, String.toList_ofList, List.flatMap_append,
    List.flatMap_replicate, hzero, List.flatten_replicate_singleton]
  rfl

/-- **The version that bytes spell.** It is the text whose bytes they are once zeros at the end are
    left out, and it does not end in a zero itself. -/
theorem versionOfBytes?_eq_some_iff {bs : Bytes} {text : String} :
    versionOfBytes? bs = some text ↔
      text.toList.getLast? ≠ some '\x00' ∧ ∃ n, bs = Text.utf8 text ++ Bytes.zeros n := by
  rw [versionOfBytes?, Option.map_eq_some_iff]
  constructor
  · rintro ⟨whole, hwhole, rfl⟩
    obtain ⟨htrimmed, n, hzeros⟩ := reverse_dropWhile_reverse_eq_iff.mp
      (rfl : (whole.toList.reverse.dropWhile (· = '\x00')).reverse = _)
    rw [String.toList_ofList]
    refine ⟨htrimmed, n, ?_⟩
    rw [← Text.fromUTF8?_eq_some_iff.mp hwhole, ← utf8_ofList_append_replicate, ← hzeros,
      String.ofList_toList]
  · rintro ⟨htrimmed, n, rfl⟩
    refine ⟨String.ofList (text.toList ++ List.replicate n '\x00'), ?_, ?_⟩
    · rw [Text.fromUTF8?_eq_some_iff, utf8_ofList_append_replicate, String.ofList_toList]
    · rw [String.toList_ofList, reverse_dropWhile_reverse_eq_iff.mpr ⟨htrimmed, n, rfl⟩,
        String.ofList_toList]

/-- Bytes that are no text spell no version. -/
theorem versionOfBytes?_eq_none_iff {bs : Bytes} :
    versionOfBytes? bs = none ↔ ∀ text, Text.utf8 text ≠ bs := by
  rw [versionOfBytes?, Option.map_eq_none_iff, Option.eq_none_iff_forall_ne_some]
  exact forall_congr' fun text => not_congr Text.fromUTF8?_eq_some_iff

end BootHandoff.Coreboot
