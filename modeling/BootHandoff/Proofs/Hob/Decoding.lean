/-
  What can be read back of a list. `Hob.Shows` relates an item of a list to a block field by
  field, at the offsets of the Platform Initialization layout; the encoding of a block shows it
  (`Hob.shows_encode`). `items_offerAll`: the items after the table show exactly the accepted
  blocks, in order, and stay as they are whatever is offered later.
-/
import BootHandoff.Proofs.Hob.Offering
import Mathlib.Data.List.Forall2

namespace BootHandoff.Hob

/-- An item shows a block: it has the type of the block and, at their offsets, its fields. What a
    block has no field for is zero. -/
def Shows (item : UInt16 × Bytes) : Hob → Prop
  | resource kind attributes base length =>
    item.1 = 3 ∧ item.2.length = 48 ∧ item.2.slice 8 16 = Bytes.zeros 16 ∧
      item.2.word32 24 = kind.code ∧ item.2.word32 28 = attributes ∧
      item.2.word64 32 = base ∧ item.2.word64 40 = length
  | allocation base length memoryType =>
    item.1 = 2 ∧ item.2.length = 48 ∧ item.2.slice 8 16 = Bytes.zeros 16 ∧
      item.2.word64 24 = base ∧ item.2.word64 32 = length ∧
      item.2.word32 40 = memoryType ∧ item.2.slice 44 4 = Bytes.zeros 4
  | guid name data =>
    item.1 = 4 ∧ item.2.length = alignLength (24 + data.length) ∧
      item.2.slice 8 16 = name.bytes ∧
      item.2.drop 24 = data ++ Bytes.zeros (alignLength (24 + data.length) - (24 + data.length))
  | cpu memoryBits ioBits =>
    item.1 = 0x0b ∧ item.2.length = 16 ∧ item.2.byte 8 = memoryBits ∧ item.2.byte 9 = ioBits ∧
      item.2.slice 10 6 = Bytes.zeros 6

theorem shows_encode (h : Hob) : Shows (h.type, h.encode) h := by
  cases h with
  | resource kind attributes base length =>
    have hlength : (resource kind attributes base length).encode.length = 48 := by
      rw [length_encode, size, bareSize_resource]
      rfl
    exact ⟨rfl, hlength, rfl, Bytes.value_ofWord32 kind.code, Bytes.value_ofWord32 attributes,
      Bytes.value_ofWord64 base, Bytes.value_ofWord64 length⟩
  | allocation base length memoryType =>
    have hlength : (allocation base length memoryType).encode.length = 48 := by
      rw [length_encode, size, bareSize_allocation]
      rfl
    exact ⟨rfl, hlength, rfl, Bytes.value_ofWord64 base, Bytes.value_ofWord64 length,
      Bytes.value_ofWord32 memoryType, rfl⟩
  | guid name data =>
    have hlength : (guid name data).encode.length = alignLength (24 + data.length) := by
      rw [length_encode, size, bareSize_guid]
    exact ⟨rfl, hlength, slice_encode_guid name data, drop_encode_guid name data⟩
  | cpu memoryBits ioBits =>
    have hlength : (cpu memoryBits ioBits).encode.length = 16 := by
      rw [length_encode, size, bareSize_cpu]
      rfl
    exact ⟨rfl, hlength, rfl, rfl, rfl⟩

end BootHandoff.Hob

namespace BootHandoff.HobList

variable {l : HobList} {hobs : List Hob}

theorem Holds.items_eq (h : Holds l hobs) : l.items = l.itemsOf hobs := by
  have hitems := Hob.items_row h.described []
  rwa [List.append_nil, ← h.blocks, Hob.items_nil, List.append_nil] at hitems

/-- The closing block ends the items, whatever comes after it. -/
theorem Holds.items_bytes_append (h : Holds l hobs) (more : Bytes) :
    Hob.items (l.bytes ++ more) = l.itemsOf hobs := by
  have hclosing : Hob.items (closingHob ++ more) = [] := Hob.items_of_none rfl
  rw [h.bytes_eq, List.append_assoc, Hob.items_row h.described, hclosing, List.append_nil]

theorem forall₂_shows (hobs : List Hob) :
    List.Forall₂ Hob.Shows (hobs.map fun hob => (hob.type, hob.encode)) hobs := by
  rw [List.forall₂_map_left_iff]
  exact List.forall₂_same.mpr fun hob _ => Hob.shows_encode hob

/-- **What was accepted can be read back.** After the table come the accepted blocks and nothing
    else. -/
theorem items_offerAll {window : Window} {base memoryBottom memoryTop : Address}
    {start : HobList} (hstart : create window base memoryBottom memoryTop = .ok start)
    (offered : List Hob) :
    let list := start.offerAll offered
    list.items.head? = some (HobType.handoff, list.phit.encode) ∧
    List.Forall₂ Hob.Shows list.items.tail (start.accepted offered) ∧
    list.items.tail.map Hob.ofItem? = (start.accepted offered).map (some ∘ Hob.filled) ∧
    ∀ more, (list.offerAll more).items.tail =
      list.items.tail ++ (list.accepted more).map fun hob => (hob.type, hob.encode) := by
  intro list
  have hitems : list.items = list.itemsOf (start.accepted offered) :=
    (holds_offerAll hstart offered).items_eq
  have htail : list.items.tail = (start.accepted offered).map fun hob => (hob.type, hob.encode) := by
    rw [hitems, itemsOf, List.tail_cons]
  refine ⟨?_, ?_, ?_, fun more => ?_⟩
  · rw [hitems, itemsOf, List.head?_cons]
  · rw [htail]
    exact forall₂_shows _
  · rw [htail, List.map_map]
    exact List.map_congr_left fun hob _ => Hob.ofItem?_encode hob
  · have hlater := ((holds_offerAll hstart offered).offerAll more).items_eq
    rw [hlater, itemsOf, List.tail_cons, List.map_append, htail]

/-- Thirteen bytes under a GUID come back with three zero bytes behind them; the allocation that
    did not fit leaves no trace. -/
theorem items_offerAll_filled :
    ∃ start, create (.fill 120 0xaa) 0xd00000 0x800000 0x4d00000 = .ok start ∧
      (start.offerAll [.guid Guid.acpiBoardInfo (List.replicate 13 0xbb), .allocation 0 0x1000 4,
        .cpu 36 16]).items.tail.map Hob.ofItem? =
        [some (.guid Guid.acpiBoardInfo (List.replicate 13 0xbb ++ [0, 0, 0])),
          some (.cpu 36 16)] := by
  refine ⟨_, rfl, ?_⟩
  have h := items_offerAll
    (show create (.fill 120 0xaa) 0xd00000 0x800000 0x4d00000 = .ok _ from rfl)
    [.guid Guid.acpiBoardInfo (List.replicate 13 0xbb), .allocation 0 0x1000 4, .cpu 36 16]
  exact h.2.2.1.trans (by decide +kernel)

end BootHandoff.HobList
