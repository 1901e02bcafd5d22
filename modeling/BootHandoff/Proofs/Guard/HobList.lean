/-
  The builder of a HOB list with its guards. A `RawList` is the list as the builder keeps it: a
  window, an address, a table and an offset, and nothing that ties them together. So every sum of
  offsets and addresses is guarded here, every field of the window, and every length of what is
  copied into one.

  Where the raw list is a list indeed, the guards are quiet and the builder does what
  `HobList.append` says (`append_ofList`). The builder writes in another order: first the closing
  block and the table, then zeros over the room of the block, then the block, or first the head and
  then the data of one. None of these writes overlaps one that it is swapped with.
-/
import BootHandoff.Proofs.Guard.Words
import BootHandoff.Proofs.Hob.Filling

namespace BootHandoff.Guard

/-- A list under construction, as the builder keeps it. -/
structure RawList where
  window : Window
  /-- The address of the window. -/
  base : Address
  table : Phit
  /-- The offset of the closing block. -/
  closing : Nat

/-- A length rounded up to the alignment of blocks. -/
def align (n : Nat) : Option Nat := do
  let past ← add n 7
  some (past / 8 * 8)

namespace RawList

/-! ## The builder -/

/-- Writes the closing block, and the table with the two addresses that follow from it. -/
def close (l : RawList) : Option RawList := do
  let past ← add l.closing hobHeaderSize
  let field ← (Field.whole l.window).part l.closing past
  let window ← fill l.window field closingHob
  let place ← add l.base.toNat l.closing
  let bottom ← add place hobHeaderSize
  let table := { l.table with
    freeMemoryBottom := UInt64.ofNat bottom
    endOfList := UInt64.ofNat place }
  let field ← (Field.whole window).part 0 Phit.size
  let window ← fill window field table.encode
  some { l with window, table }

/-- The room left for blocks. -/
def available (l : RawList) : Option Nat := do
  let rest ← sub l.window.size l.closing
  sub rest hobHeaderSize

/-- Makes room for a block, and gives the field that the block goes to, full of zeros. -/
def allocate (l : RawList) (length : Nat) : Option (Except HobError (RawList × Field)) := do
  let length ← align length
  let available ← l.available
  if available < length ∨ maxHobSize < length then
    some (.error (.outOfResources length available))
  else
    let closing ← add l.closing length
    let closed ← close { l with closing }
    let past ← add l.closing length
    let field ← (Field.whole closed.window).part l.closing past
    let window ← fill closed.window field (Bytes.zeros length)
    some (.ok ({ closed with window }, field))

/-- Appends a block whose kind alone settles its size. -/
def appendFixed (l : RawList) (hob : Hob) (size : Nat) : Option (Except HobError RawList) := do
  match ← l.allocate size with
  | .error e => some (.error e)
  | .ok (m, field) =>
    let window ← fill m.window field (hobHeader hob.type size ++ hob.content)
    some (.ok { m with window })

/-- Fills a field with the head of a block, and what the head leaves of it with data from its start
    on. -/
def fillAfterHead (w : Window) (field : Field) (head data : Bytes) : Option Window := do
  let front ← field.part 0 head.length
  let rest ← field.part head.length field.size
  let window ← fill w front head
  let room ← rest.part 0 data.length
  fill window room data

/-- Appends data named by a GUID. -/
def appendGuid (l : RawList) (name : Guid) (data : Bytes) :
    Option (Except HobError RawList) := do
  let length ← add 24 data.length
  let size ← align length
  match ← l.allocate length with
  | .error e => some (.error e)
  | .ok (m, field) =>
    let head := hobHeader HobType.guid size ++ name.bytes
    let window ← fillAfterHead m.window field head data
    some (.ok { m with window })

/-- Appends a block. -/
def append (l : RawList) (hob : Hob) : Option (Except HobError RawList) :=
  match hob with
  | .resource .. => l.appendFixed hob 48
  | .allocation .. => l.appendFixed hob 48
  | .guid name data => l.appendGuid name data
  | .cpu .. => l.appendFixed hob 16

/-- What the builder keeps of a list. -/
def ofList (l : HobList) : RawList := ⟨l.window, l.base, l.phit, l.closing⟩

end RawList

/-- The sink that builds a list with guards. It is at `none` from the first guard on that stops
    it. -/
def rawList : Sink (Option RawList) where
  append
    | none, _ => .ok none
    | some l, hob =>
      match l.append hob with
      | none => .ok none
      | some result => result.map some
  complaints := Sink.hobList.complaints

/-! ## The parts of the builder -/

theorem align_eq {n : Nat} (h : n + 7 < 2 ^ 64) : align n = some (alignLength n) := by
  unfold align
  rw [step (add_eq h)]
  rfl

/-- A list with its closing block moved on, which is not closed there yet. -/
def moved (l : HobList) (n : Nat) (h : n ≤ l.available) : HobList :=
  { l with
    closing := l.closing + n
    closing_fits := by
      have := l.closing_fits
      unfold HobList.available at h
      omega }

namespace RawList

variable {l : HobList}

/-- Two fields of the table may be out of date before it is closed. -/
theorem close_eq (hwindow : Phit.size ≤ l.window.size) {table : Phit}
    (htable : { table with
      freeMemoryBottom := l.phit.freeMemoryBottom
      endOfList := l.phit.endOfList } = l.phit) :
    close ⟨l.window, l.base, table, l.closing⟩ = some (ofList l.close) := by
  have hfits := l.closing_fits
  have hbase := l.base_fits
  have hend : UInt64.ofNat (l.base.toNat + l.closing) = l.phit.endOfList := by
    rw [← UInt64.toNat_inj, Address.toNat_ofNat (by omega)]
    exact l.toNat_endAddress.symm
  have hbottom : UInt64.ofNat (l.base.toNat + l.closing + hobHeaderSize) =
      l.phit.freeMemoryBottom := by
    rw [← UInt64.toNat_inj, Address.toNat_ofNat (by omega), l.toNat_freeMemoryBottom]
  have hclosing : (Field.whole l.window).part l.closing (l.closing + hobHeaderSize) =
      some ⟨0 + l.closing, l.closing + hobHeaderSize - l.closing⟩ :=
    Field.part_eq ⟨by omega, hfits⟩
  have hhead (w : Window) (h : w.size = l.window.size) :
      (Field.whole w).part 0 Phit.size = some ⟨0, Phit.size⟩ :=
    Field.part_eq ⟨Nat.zero_le _, Nat.le_trans hwindow (Nat.le_of_eq h.symm)⟩
  unfold close
  dsimp only
  rw [step (add_eq (by omega)), step hclosing, step (fill_eq (by rw [Nat.add_sub_cancel_left]; rfl)),
    step (add_eq (by omega)), step (add_eq (by omega)), step (hhead _ (Window.size_write ..)),
    hend, hbottom, htable, step (fill_eq (Phit.length_encode _)), Nat.zero_add]
  rfl

theorem available_ofList (l : HobList) : (ofList l).available = some l.available := by
  have hfits := l.closing_fits
  have hrest : sub (ofList l).window.size (ofList l).closing = some (l.window.size - l.closing) :=
    sub_eq (by show l.closing ≤ l.window.size; omega)
  unfold available
  rw [step hrest, sub_eq (by omega)]
  rfl

/-- Room is made where there is room, and the list is closed behind it. -/
theorem allocate_ofList_of_le (hstart : Phit.size ≤ l.closing) {length n : Nat}
    (hlength : length + 7 < 2 ^ 64) (hn : alignLength length = n) (hroom : n ≤ l.available)
    (hmax : n ≤ maxHobSize) :
    let closed := (moved l n hroom).close
    (ofList l).allocate length =
      some (.ok (⟨closed.window.write l.closing (Bytes.zeros n), l.base, closed.phit,
        l.closing + n⟩, ⟨l.closing, n⟩)) := by
  intro closed
  have hfits := (moved l n hroom).closing_fits
  have hbase := l.base_fits
  have hmoved : l.closing + n + hobHeaderSize ≤ l.window.size := hfits
  have hclose : close { ofList l with closing := l.closing + n } = some (ofList closed) :=
    close_eq (l := moved l n hroom) (by show Phit.size ≤ l.window.size; omega) rfl
  have hfield : (Field.whole closed.window).part l.closing (l.closing + n) =
      some ⟨0 + l.closing, l.closing + n - l.closing⟩ :=
    Field.part_eq ⟨by omega, by show l.closing + n ≤ l.window.size; omega⟩
  have hzeros : (Bytes.zeros n).length = l.closing + n - l.closing := by
    rw [Bytes.length_zeros]
    omega
  have hcond : ¬ (l.available < n ∨ maxHobSize < n) := by omega
  have hsum : add (ofList l).closing n = some (l.closing + n) :=
    add_eq (by show l.closing + n < 2 ^ 64; omega)
  unfold allocate
  rw [step (align_eq hlength), hn, step (available_ofList l), if_neg hcond, step hsum,
    step hclose, step hsum]
  show (Field.whole closed.window).part l.closing (l.closing + n) >>= _ = _
  rw [step hfield]
  show fill closed.window _ _ >>= _ = _
  rw [step (fill_eq hzeros), Nat.zero_add, Nat.add_sub_cancel_left]
  rfl

theorem allocate_ofList_of_lt {length n : Nat} (hlength : length + 7 < 2 ^ 64)
    (hn : alignLength length = n) (h : l.available < n ∨ maxHobSize < n) :
    (ofList l).allocate length = some (.error (.outOfResources n l.available)) := by
  unfold allocate
  rw [step (align_eq hlength), hn, step (available_ofList l), if_pos h]

theorem fillAfterHead_eq (w : Window) {field : Field} {head data : Bytes}
    (h : head.length + data.length ≤ field.size) :
    fillAfterHead w field head data = some (w.write field.start (head ++ data)) := by
  have hfront : field.part 0 head.length = some ⟨field.start + 0, head.length - 0⟩ :=
    Field.part_eq ⟨Nat.zero_le _, by omega⟩
  have hrest : field.part head.length field.size =
      some ⟨field.start + head.length, field.size - head.length⟩ :=
    Field.part_eq ⟨by omega, Nat.le_refl _⟩
  have hroom : Field.part ⟨field.start + head.length, field.size - head.length⟩ 0 data.length =
      some ⟨field.start + head.length + 0, data.length - 0⟩ :=
    Field.part_eq ⟨Nat.zero_le _, by show data.length ≤ field.size - head.length; omega⟩
  unfold fillAfterHead
  rw [step hfront, step hrest, step (fill_eq rfl), step hroom, fill_eq rfl, Window.write_append]
  rfl

/-! ## The builder on a list -/

/-- A block is what is written over zeros. -/
theorem write_zeros_write (w : Window) (o : Nat) (hob : Hob) :
    (w.write o (Bytes.zeros hob.size)).write o (hobHeader hob.type hob.size ++ hob.content) =
      w.write o hob.encode := by
  rw [Window.write_write, Hob.encode, Bytes.zeros, List.drop_replicate, List.length_append,
    length_hobHeader]
  rfl

/-- An append writes the block first and closes the list behind it; it might as well close the list
    first. -/
theorem ofList_append {m : HobList} {hob : Hob} (hstart : Phit.size ≤ l.closing)
    (hroom : hob.size ≤ l.available) (h : l.append hob = .ok m) :
    let closed := (moved l hob.size hroom).close
    ofList m = ⟨closed.window.write l.closing hob.encode, l.base, closed.phit,
      l.closing + hob.size⟩ := by
  intro closed
  have htable : 0 + closed.phit.encode.length ≤ l.closing := by
    rw [Phit.length_encode]
    omega
  have hblock : l.closing + hob.encode.length ≤ l.closing + hob.size :=
    Nat.le_of_eq (by rw [Hob.length_encode])
  have hwindow :
      ((l.window.write l.closing hob.encode).write (l.closing + hob.size) closingHob).write 0
        closed.phit.encode = closed.window.write l.closing hob.encode :=
    calc ((l.window.write l.closing hob.encode).write (l.closing + hob.size) closingHob).write 0
          closed.phit.encode
        = ((l.window.write (l.closing + hob.size) closingHob).write l.closing hob.encode).write 0
            closed.phit.encode := by rw [Window.write_comm hblock]
      _ = ((l.window.write (l.closing + hob.size) closingHob).write 0 closed.phit.encode).write
            l.closing hob.encode := (Window.write_comm htable).symm
      _ = closed.window.write l.closing hob.encode := rfl
  unfold HobList.append at h
  split at h
  · cases h
    rw [← hwindow]
    rfl
  · cases h

theorem appendFixed_ofList {hob : Hob} {size : Nat} (hstart : Phit.size ≤ l.closing)
    (hbare : hob.bareSize = size) (hsize : hob.size = size) (hlt : size + 7 < 2 ^ 64) :
    (ofList l).appendFixed hob size = some ((l.append hob).map ofList) := by
  have haligned : alignLength size = hob.size := by rw [← hbare]; rfl
  have hlength : (hobHeader hob.type size ++ hob.content).length = hob.size := by
    rw [List.length_append, length_hobHeader, hsize]
    exact hbare
  unfold appendFixed
  by_cases hfits : hob.size ≤ l.available ∧ hob.size ≤ maxHobSize
  · obtain ⟨hroom, hmax⟩ := hfits
    obtain ⟨m, hm⟩ := HobList.append_of_le hroom hmax
    rw [step (allocate_ofList_of_le hstart hlt haligned hroom hmax)]
    dsimp only
    rw [step (fill_eq hlength), ← hsize, write_zeros_write, hm, Except.map,
      ofList_append hstart hroom hm]
  · rw [step (allocate_ofList_of_lt hlt haligned (by omega)),
      HobList.append_of_not_le hfits]
    rfl

theorem appendGuid_ofList {name : Guid} {data : Bytes} (hstart : Phit.size ≤ l.closing)
    (hlt : 24 + data.length + 7 < 2 ^ 64) :
    (ofList l).appendGuid name data = some ((l.append (.guid name data)).map ofList) := by
  have haligned : alignLength (24 + data.length) = (Hob.guid name data).size :=
    (Hob.size_guid name data).symm
  have hle : 24 + data.length ≤ (Hob.guid name data).size := haligned ▸ le_alignLength _
  have hhead : (hobHeader HobType.guid (Hob.guid name data).size ++ name.bytes).length = 24 := by
    rw [List.length_append, length_hobHeader, name.length_bytes]
    rfl
  have hblock : hobHeader HobType.guid (Hob.guid name data).size ++ name.bytes ++ data =
      hobHeader (Hob.guid name data).type (Hob.guid name data).size ++
        (Hob.guid name data).content :=
    List.append_assoc ..
  unfold appendGuid
  rw [step (add_eq (by omega)), step (align_eq hlt), haligned]
  by_cases hfits : (Hob.guid name data).size ≤ l.available ∧ (Hob.guid name data).size ≤ maxHobSize
  · obtain ⟨hroom, hmax⟩ := hfits
    obtain ⟨m, hm⟩ := HobList.append_of_le hroom hmax
    rw [step (allocate_ofList_of_le hstart hlt haligned hroom hmax)]
    dsimp only
    rw [step (fillAfterHead_eq _ (by rw [hhead]; exact hle)), hblock]
    dsimp only
    rw [write_zeros_write, hm, Except.map, ofList_append hstart hroom hm]
  · rw [step (allocate_ofList_of_lt hlt haligned (by omega)),
      HobList.append_of_not_le hfits]
    rfl

/-- **The builder.** No guard stops it where the list has its table at the start and a block has a
    length at all, and what it builds or refuses is what the append gives. -/
theorem append_ofList {hob : Hob} (hstart : Phit.size ≤ l.closing)
    (hlt : hob.bareSize + 7 < 2 ^ 64) :
    (ofList l).append hob = some ((l.append hob).map ofList) := by
  cases hob with
  | resource kind attributes base length =>
    exact appendFixed_ofList hstart (Hob.bareSize_resource ..) (Hob.size_resource ..) (by decide)
  | allocation base length memoryType =>
    exact appendFixed_ofList hstart (Hob.bareSize_allocation ..) (Hob.size_allocation ..)
      (by decide)
  | guid name data =>
    rw [Hob.bareSize_guid] at hlt
    exact appendGuid_ofList hstart hlt
  | cpu memoryBits ioBits =>
    exact appendFixed_ofList hstart (Hob.bareSize_cpu ..) (Hob.size_cpu ..) (by decide)

end RawList

end BootHandoff.Guard
