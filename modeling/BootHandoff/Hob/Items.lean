/-
  Reading an encoded list. `items` takes one block after another by the length in its header. It
  stops where no header is left, at the block that closes a list, and at a header whose length
  cannot be right: below that of the header itself or past the end of the bytes. `ofItem?` reads a
  block from its fields; what is read of an encoded block is the block itself, but for the zero
  bytes that fill up the data under a GUID (`ofItem?_encode`).
-/
import BootHandoff.Hob.Basic

namespace BootHandoff.Hob

/-- The first block of a byte string and the bytes after it. -/
def nextItem? (bs : Bytes) : Option ((UInt16 × Bytes) × Bytes) :=
  if bs.length < hobHeaderSize then none
  else
    let type := bs.word16 0
    let length := (bs.word16 2).toNat
    if type = HobType.endOfList ∨ length < hobHeaderSize ∨ bs.length < length then none
    else some ((type, bs.take length), bs.drop length)

theorem length_lt_of_nextItem? {bs rest : Bytes} {item : UInt16 × Bytes}
    (h : nextItem? bs = some (item, rest)) : rest.length < bs.length := by
  unfold nextItem? at h
  split at h
  · cases h
  · dsimp only at h
    split at h
    · cases h
    · rename_i hn hs
      simp only [Option.some.injEq, Prod.mk.injEq] at h
      rw [← h.2, List.length_drop]
      unfold hobHeaderSize at *
      omega

/-- The blocks of an encoded list, each with its type. -/
def items (bs : Bytes) : List (UInt16 × Bytes) :=
  match _h : nextItem? bs with
  | none => []
  | some (item, rest) => item :: items rest
termination_by bs.length
decreasing_by exact length_lt_of_nextItem? _h

/-! ## Fields -/

/-- The block in an item, if its type is one of those that describe the platform. -/
def ofItem? (item : UInt16 × Bytes) : Option Hob :=
  let bs := item.2
  if item.1 = HobType.resource then
    (ResourceKind.ofCode? (bs.word32 24)).map fun kind =>
      resource kind (bs.word32 28) (bs.word64 32) (bs.word64 40)
  else if item.1 = HobType.allocation then
    some (allocation (bs.word64 24) (bs.word64 32) (bs.word32 40))
  else if item.1 = HobType.guid then
    (Guid.ofBytes? (bs.slice 8 16)).map fun name => guid name (bs.drop 24)
  else if item.1 = HobType.cpu then some (cpu (bs.byte 8) (bs.byte 9))
  else none

/-- A block whose data takes up all the room that its encoding has for it. -/
def filled : Hob → Hob
  | guid name data =>
    let bare := 24 + data.length
    guid name (data ++ Bytes.zeros (alignLength bare - bare))
  | h => h

theorem encode_guid (name : Guid) (data : Bytes) :
    (guid name data).encode = hobHeader HobType.guid (guid name data).size ++
      (name.bytes ++ (data ++ Bytes.zeros (alignLength (24 + data.length) - (24 + data.length)))) := by
  simp only [encode, type, content, size, bareSize_guid, List.append_assoc]

theorem slice_encode_guid (name : Guid) (data : Bytes) :
    (guid name data).encode.slice 8 16 = name.bytes := by
  rw [encode_guid]
  exact Bytes.slice_append_middle (length_hobHeader ..) name.length_bytes _

theorem drop_encode_guid (name : Guid) (data : Bytes) :
    (guid name data).encode.drop 24 =
      data ++ Bytes.zeros (alignLength (24 + data.length) - (24 + data.length)) := by
  rw [encode_guid, ← List.append_assoc, List.drop_left']
  rw [List.length_append, length_hobHeader, name.length_bytes]
  rfl

theorem ofItem?_encode (h : Hob) : ofItem? (h.type, h.encode) = some h.filled := by
  cases h with
  | resource kind attributes base length =>
    show (ResourceKind.ofCode? (UInt32.ofNat (Bytes.value (Bytes.ofWord32 kind.code)))).map
      (fun kind => resource kind (UInt32.ofNat (Bytes.value (Bytes.ofWord32 attributes)))
        (UInt64.ofNat (Bytes.value (Bytes.ofWord64 base)))
        (UInt64.ofNat (Bytes.value (Bytes.ofWord64 length)))) = _
    simp only [Bytes.value_ofWord32, Bytes.value_ofWord64, ResourceKind.ofCode?_code]
    rfl
  | allocation base length memoryType =>
    show some (allocation (UInt64.ofNat (Bytes.value (Bytes.ofWord64 base)))
      (UInt64.ofNat (Bytes.value (Bytes.ofWord64 length)))
      (UInt32.ofNat (Bytes.value (Bytes.ofWord32 memoryType)))) = _
    simp only [Bytes.value_ofWord32, Bytes.value_ofWord64]
    rfl
  | guid name data =>
    show (Guid.ofBytes? ((guid name data).encode.slice 8 16)).map
      (fun n => guid n ((guid name data).encode.drop 24)) = _
    rw [slice_encode_guid, drop_encode_guid, Guid.ofBytes?_bytes, Option.map_some, filled]
  | cpu memoryBits ioBits => rfl

end BootHandoff.Hob
