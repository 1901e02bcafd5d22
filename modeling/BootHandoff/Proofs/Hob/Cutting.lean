/-
  Cutting up bytes that may be anything. Whatever a byte string holds, its items are the only
  blocks in a row at its start that each describe themselves and after which no block can be cut
  off (`Hob.items_eq_iff`). So a reader that takes one block after another stays inside the string,
  loses no block before it stops, and stops at the first header that cannot be right
  (`Hob.items_cut`); of a list it reads the same blocks whatever lies behind the list.
-/
import BootHandoff.Proofs.Hob.Decoding

namespace BootHandoff.Hob

/-! ## One block -/

/-- No block can be cut off: what is left is too short for a header, or its header closes a list, or
    the length in it is below that of a header or past the end. -/
def Exhausted (bs : Bytes) : Prop :=
  bs.length < 8 ∨ bs.word16 0 = 0xffff ∨ (bs.word16 2).toNat < 8 ∨
    bs.length < (bs.word16 2).toNat

theorem nextItem?_eq_none_iff (bs : Bytes) : nextItem? bs = none ↔ Exhausted bs := by
  unfold nextItem?
  split
  · rename_i hshort
    exact iff_of_true rfl (.inl hshort)
  · rename_i hlong
    dsimp only
    split
    · rename_i hstop
      exact iff_of_true rfl (.inr hstop)
    · rename_i hgo
      exact iff_of_false (Option.some_ne_none _) (not_or.mpr ⟨hlong, hgo⟩)

/-- A block that is cut off describes itself, and it was what the bytes began with. -/
theorem described_of_nextItem? {bs rest : Bytes} {item : UInt16 × Bytes}
    (h : nextItem? bs = some (item, rest)) : bs = item.2 ++ rest ∧ Described item := by
  unfold nextItem? at h
  split at h
  · cases h
  · dsimp only at h
    split at h
    · cases h
    · rename_i hgo
      obtain ⟨htype, hheader, hinside⟩ : _ ∧ ¬ _ ∧ ¬ _ := by simpa only [not_or] using hgo
      cases h
      have hlength : (bs.take (bs.word16 2).toNat).length = (bs.word16 2).toNat :=
        List.length_take_of_le (by omega)
      have hfield (i : Nat) (hi : i + 2 ≤ 8) :
          Bytes.word16 (bs.take (bs.word16 2).toNat) i = bs.word16 i := by
        unfold hobHeaderSize at hheader
        rw [Bytes.word16, Bytes.slice_take (by omega)]
        rfl
      refine ⟨(List.take_append_drop ..).symm, hfield 0 (by decide), htype, ?_, ?_⟩
      · rw [hfield 2 (by decide), hlength]
      · rw [hlength]
        omega

/-! ## All blocks -/

theorem row_append (blocks more : List (UInt16 × Bytes)) :
    row (blocks ++ more) = row blocks ++ row more := List.flatMap_append

/-- The items and what is left after them. -/
theorem exists_rest_of_items (bs : Bytes) :
    (∀ item ∈ items bs, Described item) ∧ ∃ rest, bs = row (items bs) ++ rest ∧ Exhausted rest := by
  fun_induction items bs with
  | case1 bs hnone => exact ⟨by simp, bs, rfl, (nextItem?_eq_none_iff bs).mp hnone⟩
  | case2 bs item rest hsome ih =>
    obtain ⟨hsplit, hitem⟩ := described_of_nextItem? hsome
    obtain ⟨hitems, last, hrest, hlast⟩ := ih
    refine ⟨List.forall_mem_cons.mpr ⟨hitem, hitems⟩, last, ?_, hlast⟩
    rw [row_cons, List.append_assoc, ← hrest, hsplit]

/-- There is one way to cut up a byte string. -/
theorem items_eq_iff (bs : Bytes) (blocks : List (UInt16 × Bytes)) :
    items bs = blocks ↔ (∀ block ∈ blocks, Described block) ∧
      ∃ rest, bs = row blocks ++ rest ∧ Exhausted rest := by
  constructor
  · rintro rfl
    exact exists_rest_of_items bs
  · rintro ⟨hblocks, rest, rfl, hrest⟩
    rw [items_row hblocks, items_of_none ((nextItem?_eq_none_iff rest).mpr hrest),
      List.append_nil]

/-- What is left of bytes once the first of their items are cut off. -/
def leftAfter (bs : Bytes) (n : Nat) : Bytes := bs.drop (row ((items bs).take n)).length

theorem leftAfter_eq {bs rest : Bytes} (h : bs = row (items bs) ++ rest) (n : Nat) :
    leftAfter bs n = row ((items bs).drop n) ++ rest := by
  unfold leftAfter
  generalize items bs = cut at h ⊢
  rw [← List.take_append_drop n cut, row_append, List.append_assoc] at h
  rw [h, List.drop_left]

/-- Each call of a reader gives the next item, and after the last one nothing. -/
theorem nextItem?_leftAfter (bs : Bytes) (n : Nat) :
    nextItem? (leftAfter bs n) = (items bs)[n]?.map fun item => (item, leftAfter bs (n + 1)) := by
  obtain ⟨hitems, rest, hsplit, hrest⟩ := exists_rest_of_items bs
  rw [leftAfter_eq hsplit, leftAfter_eq hsplit]
  rcases Nat.lt_or_ge n (items bs).length with hn | hn
  · rw [List.drop_eq_getElem_cons hn, row_cons, List.append_assoc,
      nextItem?_described_append (hitems _ (List.getElem_mem hn)), List.getElem?_eq_getElem hn,
      Option.map_some]
  · rw [List.drop_of_length_le hn, List.getElem?_eq_none hn, row_nil, List.nil_append,
      (nextItem?_eq_none_iff rest).mpr hrest, Option.map_none]

theorem exhausted_leftAfter_iff (bs : Bytes) (n : Nat) :
    Exhausted (leftAfter bs n) ↔ (items bs).length ≤ n := by
  rw [← nextItem?_eq_none_iff, nextItem?_leftAfter, Option.map_eq_none_iff,
    List.getElem?_eq_none_iff]

/-- A block takes eight bytes or more. -/
theorem le_length_row {blocks : List (UInt16 × Bytes)} (h : ∀ block ∈ blocks, Described block) :
    8 * blocks.length ≤ (row blocks).length := by
  induction blocks with
  | nil => exact Nat.zero_le _
  | cons block blocks ih =>
    obtain ⟨hblock, hblocks⟩ := List.forall_mem_cons.mp h
    have hle : 8 ≤ block.2.length := hblock.le_length
    have hrest := ih hblocks
    rw [row_cons, List.length_append, List.length_cons]
    omega

/-- **Any bytes can be cut up.** The items follow one another from the first byte on and stay inside
    the bytes. Each takes eight bytes or more and is described by its own header. A reader is given
    one after the other, and it stops when, and only when, nothing can be cut off what is left.
    Hence a list gives the same items whether the bytes before its closing block are read, or the
    whole list with any bytes behind it. -/
theorem items_cut (bs : Bytes) :
    row (items bs) <+: bs ∧ 8 * (items bs).length ≤ bs.length ∧
    (∀ item ∈ items bs, Described item) ∧
    (∀ n, nextItem? (leftAfter bs n) =
        (items bs)[n]?.map (fun item => (item, leftAfter bs (n + 1))) ∧
      (Exhausted (leftAfter bs n) ↔ (items bs).length ≤ n)) ∧
    ∀ {window : Window} {base memoryBottom memoryTop : Address} {start : HobList},
      HobList.create window base memoryBottom memoryTop = .ok start →
      ∀ (offered : List Hob) (behind : Bytes),
        let list := start.offerAll offered
        let blocks := list.window.slice 0 list.closing
        list.bytes = blocks ++ [0xff, 0xff, 8, 0, 0, 0, 0, 0] ∧
        items (list.bytes ++ behind) = items blocks ∧ list.items = items blocks := by
  obtain ⟨hitems, rest, hsplit, -⟩ := exists_rest_of_items bs
  have hinside : row (items bs) <+: bs := ⟨rest, hsplit.symm⟩
  refine ⟨hinside, Nat.le_trans (le_length_row hitems) hinside.length_le, hitems,
    fun n => ⟨nextItem?_leftAfter bs n, exhausted_leftAfter_iff bs n⟩, ?_⟩
  intro window base memoryBottom memoryTop start hstart offered behind list blocks
  have hholds : HobList.Holds list (start.accepted offered) :=
    HobList.holds_offerAll hstart offered
  have hlist : list.items = items blocks := rfl
  refine ⟨?_, ?_, hlist⟩
  · have hclosing : closingHob = [0xff, 0xff, 8, 0, 0, 0, 0, 0] := by decide
    rw [hholds.bytes_eq, ← hholds.blocks, hclosing]
  · rw [hholds.items_bytes_append, ← hlist, hholds.items_eq]

/-- A block of twelve bytes, and after it one that says it is shorter than its header. -/
def cutShort : Bytes := [5, 0, 12, 0, 0, 0, 0, 0, 1, 2, 3, 4] ++ [6, 0, 7, 0, 0, 0, 0, 0, 9]

/-- Only the first block of `cutShort` is read. Behind a list in which one of two offers is refused,
    the same bytes change nothing. -/
theorem items_cut_short :
    ∃ start, HobList.create (.fill 88 0xaa) 0xd00000 0x800000 0x4d00000 = .ok start ∧
      items cutShort = [(5, [5, 0, 12, 0, 0, 0, 0, 0, 1, 2, 3, 4])] ∧
      Exhausted (leftAfter cutShort 1) ∧
      items ((start.offerAll [.allocation 0 0x1000 4, .cpu 36 16]).bytes ++ cutShort) =
        (start.offerAll [.allocation 0 0x1000 4, .cpu 36 16]).items := by
  have hitems : items cutShort = [(5, [5, 0, 12, 0, 0, 0, 0, 0, 1, 2, 3, 4])] := by decide +kernel
  obtain ⟨-, -, -, hcalls, hlists⟩ := items_cut cutShort
  have hcreate : HobList.create (.fill 88 0xaa) 0xd00000 0x800000 0x4d00000 = .ok _ := rfl
  obtain ⟨-, hbehind, hlist⟩ := hlists hcreate [.allocation 0 0x1000 4, .cpu 36 16] cutShort
  refine ⟨_, hcreate, hitems, (hcalls 1).2.mpr ?_, hbehind.trans hlist.symm⟩
  rw [hitems]
  exact Nat.le_refl 1

end BootHandoff.Hob
