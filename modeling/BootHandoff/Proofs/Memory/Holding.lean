/-
  Byte strings in memory. A memory bears a byte string at an address if every range of it can be
  read and the whole of it is there. In a coherent memory each of its ranges then reads as it
  stands in the string (`holds_of_bears`), which is the form that proofs about readers use:
  `Holds` passes to every part of the string (`Holds.middle`). A sparse memory whose extents are
  apart is coherent and bears the bytes of each of them (`bears_sparse`).
-/
import Mathlib.Data.List.Pairwise
import BootHandoff.Memory.Extent

namespace BootHandoff.Memory

/-- The bytes lie in the memory from an address on, which is not null; each range of them can be
    read, and all of them end before the address space does. -/
structure Bears (mem : Memory) (address : Address) (bs : Bytes) : Prop where
  address_ne : address ≠ 0
  end_lt : address.toNat + bs.length < 2 ^ 64
  readable : ∀ ⦃i n⦄, i + n ≤ bs.length → (mem.fetch (address + UInt64.ofNat i) n).isSome
  content : mem.fetch address bs.length = some bs

/-- Whatever is read of the bytes from a place on is what stands there. -/
structure Holds (mem : Memory) (place : Nat) (bs : Bytes) : Prop where
  end_lt : place + bs.length < 2 ^ 64
  read_slice : ∀ ⦃a : Address⦄ ⦃i n : Nat⦄, i + n ≤ bs.length → a.toNat = place + i →
    mem.read a n = .ok (bs.slice i n)

variable {mem : Memory}

theorem holds_of_bears (hc : mem.Coherent) {address : Address} {bs : Bytes}
    (h : mem.Bears address bs) : mem.Holds address.toNat bs := by
  refine ⟨h.end_lt, fun a i n hn ha => ?_⟩
  have hend := h.end_lt
  have hsum : a = address + UInt64.ofNat i := by
    rw [← UInt64.toNat_inj, Address.toNat_add_ofNat (by omega), ha]
  have hne : a ≠ 0 := by
    intro ha0
    apply h.address_ne
    rw [← UInt64.toNat_inj]
    have : a.toNat = 0 := by rw [ha0]; rfl
    show address.toNat = 0
    omega
  obtain ⟨cs, hcs⟩ := Option.isSome_iff_exists.mp (h.readable hn)
  rw [← hsum] at hcs
  -- Both fetches cover the range, so that coherence makes them agree byte by byte.
  have heq : cs = bs.slice i n := by
    refine List.ext_getElem? fun j => ?_
    have hlength := mem.length_fetch hcs
    by_cases hj : j < n
    · rw [hc hcs h.content hj (j := i + j) (by omega) (by omega), Bytes.slice,
        List.getElem?_take_of_lt hj, List.getElem?_drop]
    · rw [List.getElem?_eq_none (by omega),
        List.getElem?_eq_none (by rw [Bytes.length_slice hn]; omega)]
  exact read_eq_ok_iff.mpr ⟨hne, by omega, heq ▸ hcs⟩

namespace Holds

variable {place : Nat} {bs as cs : Bytes} {a : Address}

/-- All of the bytes. -/
theorem read_all (h : mem.Holds place bs) (ha : a.toNat = place) :
    mem.read a bs.length = .ok bs := by
  rw [h.read_slice (i := 0) (by omega) (by omega), Bytes.slice_self]

/-- The first bytes. -/
theorem read_take (h : mem.Holds place bs) (ha : a.toNat = place) {n : Nat}
    (hn : n ≤ bs.length) : mem.read a n = .ok (bs.take n) := by
  rw [h.read_slice (i := 0) (by omega) (by omega), Bytes.slice, List.drop_zero]

/-- A part of what a memory holds. -/
theorem middle (h : mem.Holds place (as ++ (bs ++ cs))) : mem.Holds (place + as.length) bs := by
  have hend := h.end_lt
  simp only [List.length_append] at hend
  refine ⟨by omega, fun a i n hn ha => ?_⟩
  rw [h.read_slice (i := as.length + i) (by simp only [List.length_append]; omega) (by omega),
    Bytes.slice_append_right, Bytes.slice_append_left hn]

theorem left (h : mem.Holds place (bs ++ cs)) : mem.Holds place bs := by
  have hmiddle : mem.Holds place ([] ++ (bs ++ cs)) := h
  simpa using hmiddle.middle

theorem right (h : mem.Holds place (as ++ bs)) : mem.Holds (place + as.length) bs := by
  rw [← List.append_nil bs] at h
  exact h.middle

/-- Bytes some way past an address lie at an address themselves. -/
theorem exists_offset? {n : Nat} (h : mem.Holds (a.toNat + n) bs) :
    ∃ b, a.offset? n = some b ∧ mem.Holds b.toNat bs := by
  have hend := h.end_lt
  obtain ⟨b, hoffset, hplace⟩ := Address.exists_offset? (show a.toNat + n < 2 ^ 64 by omega)
  rw [← hplace] at h
  exact ⟨b, hoffset, h⟩

end Holds

end BootHandoff.Memory

/-! ## Extents that are apart -/

namespace BootHandoff

/-- No byte lies in both of the extents. -/
def Extent.Apart (e f : Extent) : Prop :=
  e.start.toNat + e.size ≤ f.start.toNat ∨ f.start.toNat + f.size ≤ e.start.toNat

instance : DecidableRel Extent.Apart := fun _ _ => inferInstanceAs (Decidable (_ ∨ _))

instance : Std.Symm Extent.Apart := ⟨fun _ _ h => Or.symm h⟩

theorem Extent.covers_iff {e : Extent} {a : Address} {n : Nat} :
    e.covers a n = true ↔
      e.start.toNat ≤ a.toNat ∧ a.toNat + n ≤ e.start.toNat + e.size := by
  simp only [covers, Bool.and_eq_true, decide_eq_true_eq]

theorem Extent.getElem?_slice {e : Extent} {a : Address} {n i : Nat} (hi : i < n) :
    (e.slice a n)[i]? = some (e.byte (a.toNat - e.start.toNat + i)) := by
  rw [slice, List.getElem?_map, List.getElem?_range hi]
  rfl

namespace Memory

variable {extents : List Extent}

theorem eq_of_covers (hapart : extents.Pairwise Extent.Apart) {e f : Extent} {a b : Address}
    {n k i j : Nat} (he : e ∈ extents) (hf : f ∈ extents) (ha : e.covers a n = true)
    (hb : f.covers b k = true) (hi : i < n) (hj : j < k) (hij : a.toNat + i = b.toNat + j) :
    e = f := by
  by_contra hne
  have h := hapart.forall he hf hne
  rw [Extent.covers_iff] at ha hb
  unfold Extent.Apart at h
  omega

/-- A sparse memory reads from one of its extents. -/
theorem exists_of_fetch_sparse {a : Address} {n : Nat} {bs : Bytes}
    (h : (sparse extents).fetch a n = some bs) :
    ∃ e ∈ extents, e.covers a n = true ∧ bs = e.slice a n := by
  obtain ⟨e, hfind, rfl⟩ := Option.map_eq_some_iff.mp h
  have ha : e.covers a n = true := by simpa using List.find?_some hfind
  exact ⟨e, List.mem_reverse.mp (List.mem_of_find?_eq_some hfind), ha, rfl⟩

theorem isSome_fetch_sparse {e : Extent} {a : Address} {n : Nat} (he : e ∈ extents)
    (ha : e.covers a n = true) : ((sparse extents).fetch a n).isSome := by
  unfold sparse
  rw [Option.isSome_map, List.find?_isSome]
  exact ⟨e, List.mem_reverse.mpr he, ha⟩

theorem coherent_sparse (hapart : extents.Pairwise Extent.Apart) : (sparse extents).Coherent := by
  intro a n bs b k cs hbs hcs i j hi hj hij
  obtain ⟨e, he, ha, rfl⟩ := exists_of_fetch_sparse hbs
  obtain ⟨f, hf, hb, rfl⟩ := exists_of_fetch_sparse hcs
  obtain rfl := eq_of_covers hapart he hf ha hb hi hj hij
  rw [Extent.covers_iff] at ha hb
  rw [Extent.getElem?_slice hi, Extent.getElem?_slice hj]
  congr 2
  omega

theorem bears_sparse (hapart : extents.Pairwise Extent.Apart) {start : Address} {bs : Bytes}
    (hmem : Extent.ofArray start bs.toArray ∈ extents) (hne : start ≠ 0)
    (hend : start.toNat + bs.length < 2 ^ 64) : (sparse extents).Bears start bs := by
  have hcovers : ∀ {i n : Nat}, i + n ≤ bs.length →
      (Extent.ofArray start bs.toArray).covers (start + UInt64.ofNat i) n = true := by
    intro i n hin
    rw [Extent.covers_iff, Address.toNat_add_ofNat (by omega)]
    refine ⟨Nat.le_add_right .., ?_⟩
    show start.toNat + i + n ≤ start.toNat + bs.length
    omega
  have hstart : (Extent.ofArray start bs.toArray).covers start bs.length = true := by
    simpa using hcovers (i := 0) (n := bs.length) (by omega)
  refine ⟨hne, hend, fun i n hin => isSome_fetch_sparse hmem (hcovers hin), ?_⟩
  obtain ⟨cs, hcs⟩ := Option.isSome_iff_exists.mp (isSome_fetch_sparse hmem hstart)
  obtain ⟨e, he, ha, rfl⟩ := exists_of_fetch_sparse hcs
  rw [hcs]
  congr 1
  refine List.ext_getElem? fun i => ?_
  by_cases hi : i < bs.length
  · obtain rfl := eq_of_covers hapart he hmem ha hstart hi hi rfl
    rw [Extent.getElem?_slice hi]
    simp [Extent.ofArray, hi]
  · rw [List.getElem?_eq_none (by rw [Extent.length_slice]; omega),
      List.getElem?_eq_none (by omega)]

end Memory

end BootHandoff
