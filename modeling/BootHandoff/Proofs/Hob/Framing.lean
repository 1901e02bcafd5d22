/-
  Blocks in a row. A framed block opens with a header that holds its own length, so that a reader
  who stands at its start finds the block after it (`nextItem?_described_append`, `walk_framed`).
  Two readers are compared here: `items` cuts block after block off a byte string, `walk` is the
  consumer that keeps the whole string and skips from header to header. Over framed blocks in a
  row both meet each block once and then what follows the row (`items_row`, `walk_row`).
-/
import BootHandoff.Hob.Items

namespace BootHandoff.Hob

/-- A block that opens with a header of its own length, and that does not close a list. -/
structure Framed (item : UInt16 × Bytes) : Prop where
  type_ne : item.1 ≠ HobType.endOfList
  take_header : item.2.take hobHeaderSize = hobHeader item.1 item.2.length
  length_lt : item.2.length < 2 ^ 16

/-- The bytes of blocks in a row. -/
def row (blocks : List (UInt16 × Bytes)) : Bytes := blocks.flatMap (·.2)

@[simp] theorem row_nil : row [] = [] := rfl

@[simp] theorem row_cons (block : UInt16 × Bytes) (blocks : List (UInt16 × Bytes)) :
    row (block :: blocks) = block.2 ++ row blocks := rfl

/-! ## Headers -/

theorem word16_hobHeader (as bs : Bytes) (type : UInt16) (n : Nat) :
    (as ++ (hobHeader type n ++ bs)).word16 as.length = type := by
  unfold hobHeader
  rw [List.append_assoc, List.append_assoc]
  exact Bytes.word16_append_ofWord16 rfl type _

theorem word16_hobHeader_length (as bs : Bytes) (type : UInt16) {n : Nat} (hn : n < 2 ^ 16) :
    ((as ++ (hobHeader type n ++ bs)).word16 (as.length + 2)).toNat = n := by
  have hsplit : as ++ (hobHeader type n ++ bs) =
      (as ++ Bytes.ofWord16 type) ++ (Bytes.ofWord16 (UInt16.ofNat n) ++ (Bytes.zeros 4 ++ bs)) := by
    simp only [hobHeader, List.append_assoc]
  rw [hsplit, Bytes.word16_append_ofWord16 (by simp)]
  exact UInt16.toNat_ofNat_of_lt' hn

namespace Framed

variable {item : UInt16 × Bytes}

theorem le_length (h : Framed item) : hobHeaderSize ≤ item.2.length := by
  have := congrArg List.length h.take_header
  rw [List.length_take, length_hobHeader] at this
  omega

theorem length_pos (h : Framed item) : 0 < item.2.length :=
  Nat.lt_of_lt_of_le (by decide) h.le_length

/-- A framed block is its header and what follows it. -/
theorem eq_header_append (h : Framed item) :
    item.2 = hobHeader item.1 item.2.length ++ item.2.drop hobHeaderSize := by
  rw [← h.take_header, List.take_append_drop]

/-- The type in the header of a framed block, wherever the block lies. -/
theorem word16_type (h : Framed item) (as bs : Bytes) :
    (as ++ (item.2 ++ bs)).word16 as.length = item.1 := by
  rw [h.eq_header_append, List.append_assoc]
  exact word16_hobHeader ..

/-- The length in the header of a framed block, wherever the block lies. -/
theorem word16_length (h : Framed item) (as bs : Bytes) :
    ((as ++ (item.2 ++ bs)).word16 (as.length + 2)).toNat = item.2.length := by
  rw [h.eq_header_append, List.append_assoc, ← h.eq_header_append]
  exact word16_hobHeader_length as _ item.1 h.length_lt

end Framed

theorem type_ne_endOfList (h : Hob) : h.type ≠ HobType.endOfList := by
  cases h <;> simp only [type] <;> decide

/-- The encoding of a block that fits its header is framed. -/
theorem framed_encode {h : Hob} (hfit : h.size < 2 ^ 16) : Framed (h.type, h.encode) where
  type_ne := type_ne_endOfList h
  take_header := by
    show h.encode.take hobHeaderSize = hobHeader h.type h.encode.length
    rw [length_encode, encode, List.append_assoc, List.take_left' (length_hobHeader ..)]
  length_lt := by rw [length_encode]; exact hfit

/-! ## Cutting off block after block -/

/-- A block that is described by its own header, whatever else is in it: the type is that of the
    item, which closes no list, and the length is that of the block. -/
structure Described (item : UInt16 × Bytes) : Prop where
  type_eq : item.2.word16 0 = item.1
  type_ne : item.1 ≠ HobType.endOfList
  length_eq : (item.2.word16 2).toNat = item.2.length
  le_length : hobHeaderSize ≤ item.2.length

theorem Framed.described {item : UInt16 × Bytes} (h : Framed item) : Described item where
  type_eq := by simpa using h.word16_type [] []
  type_ne := h.type_ne
  length_eq := by simpa using h.word16_length [] []
  le_length := h.le_length

theorem nextItem?_described_append {item : UInt16 × Bytes} (h : Described item) (bs : Bytes) :
    nextItem? (item.2 ++ bs) = some (item, bs) := by
  have hle := h.le_length
  have htype : (item.2 ++ bs).word16 0 = item.1 := by
    rw [Bytes.word16, Bytes.slice_append_left (by unfold hobHeaderSize at hle; omega)]
    exact h.type_eq
  have hlength : ((item.2 ++ bs).word16 2).toNat = item.2.length := by
    rw [Bytes.word16, Bytes.slice_append_left (by unfold hobHeaderSize at hle; omega)]
    exact h.length_eq
  have hlong : ¬ (item.2 ++ bs).length < hobHeaderSize := by rw [List.length_append]; omega
  have hwhole : ¬ (item.1 = HobType.endOfList ∨ item.2.length < hobHeaderSize ∨
      (item.2 ++ bs).length < item.2.length) := by
    rw [List.length_append]
    rintro (he | he | he)
    · exact h.type_ne he
    · omega
    · omega
  unfold nextItem?
  rw [if_neg hlong]
  simp only [htype, hlength]
  rw [if_neg hwhole, List.take_left, List.drop_left]

theorem items_of_none {bs : Bytes} (h : nextItem? bs = none) : items bs = [] := by
  rw [items]
  split
  · rfl
  · rename_i hsome
    rw [h] at hsome
    cases hsome

theorem items_of_some {bs rest : Bytes} {item : UInt16 × Bytes}
    (h : nextItem? bs = some (item, rest)) : items bs = item :: items rest := by
  rw [items]
  split
  · rename_i hnone
    rw [h] at hnone
    cases hnone
  · rename_i hsome
    rw [h] at hsome
    cases hsome
    rfl

theorem items_row {blocks : List (UInt16 × Bytes)} (h : ∀ block ∈ blocks, Described block)
    (bs : Bytes) : items (row blocks ++ bs) = blocks ++ items bs := by
  induction blocks with
  | nil => rfl
  | cons block blocks ih =>
    rw [row_cons, List.append_assoc,
      items_of_some (nextItem?_described_append (h _ List.mem_cons_self) _),
      ih fun b hb => h b (List.mem_cons_of_mem _ hb), List.cons_append]

theorem items_nil : items [] = [] := items_of_none rfl

/-! ## Skipping from header to header -/

/-- The walk of a consumer over an encoded list: from an offset it notes the type and the length
    in the header there and skips as many bytes, until it stands on a closing block, on a header
    without a length or past the end. The second component is where it stops. -/
def walk (bs : Bytes) (offset : Nat) : List (UInt16 × Nat) × Nat :=
  let type := bs.word16 offset
  let length := (bs.word16 (offset + 2)).toNat
  if type = HobType.endOfList ∨ length = 0 ∨ bs.length ≤ offset then ([], offset)
  else
    let next := walk bs (offset + length)
    ((type, length) :: next.1, next.2)
termination_by bs.length - offset

theorem walk_closing {bs : Bytes} {offset : Nat} (h : bs.word16 offset = HobType.endOfList) :
    walk bs offset = ([], offset) := by
  unfold walk
  rw [if_pos (Or.inl h)]

theorem walk_framed {item : UInt16 × Bytes} (h : Framed item) (as bs : Bytes) :
    walk (as ++ (item.2 ++ bs)) as.length =
      let next := walk (as ++ (item.2 ++ bs)) (as.length + item.2.length)
      ((item.1, item.2.length) :: next.1, next.2) := by
  have hpos := h.length_pos
  have hgo : ¬ (item.1 = HobType.endOfList ∨ item.2.length = 0 ∨
      (as ++ (item.2 ++ bs)).length ≤ as.length) := by
    simp only [List.length_append]
    rintro (he | he | he)
    · exact h.type_ne he
    · omega
    · omega
  rw [walk]
  simp only [h.word16_type, h.word16_length]
  rw [if_neg hgo]

/-- Over framed blocks in a row the consumer notes each of them and stops at the closing block
    after them. -/
theorem walk_row {blocks : List (UInt16 × Bytes)} (h : ∀ block ∈ blocks, Framed block)
    (as : Bytes) {bs : Bytes} (hclosing : bs.word16 0 = HobType.endOfList) :
    walk (as ++ (row blocks ++ bs)) as.length =
      (blocks.map fun block => (block.1, block.2.length), as.length + (row blocks).length) := by
  induction blocks generalizing as with
  | nil =>
    refine walk_closing ?_
    rw [← hclosing, Bytes.word16, Bytes.word16, row_nil, List.nil_append,
      ← Nat.add_zero as.length, Bytes.slice_append_right]
  | cons block blocks ih =>
    have hrest := ih (fun b hb => h b (List.mem_cons_of_mem _ hb)) (as ++ block.2)
    rw [List.append_assoc, List.length_append] at hrest
    rw [row_cons, List.append_assoc, walk_framed (h _ List.mem_cons_self), hrest, List.map_cons,
      List.length_append, Nat.add_assoc]

end BootHandoff.Hob
