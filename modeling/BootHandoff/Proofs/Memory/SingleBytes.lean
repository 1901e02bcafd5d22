/-
  Single bytes of physical memory. A memory shows a byte at a place if some range that it gives has
  the byte there; a coherent memory shows one byte at most (`Shows.unique`). `withByte` is a memory
  with another byte at one place, and reads of it are the reads of the old one with that byte
  replaced (`read_withByte`).
-/
import BootHandoff.Proofs.Memory.Agreement

namespace BootHandoff.Memory

variable {mem : Memory} {a : Address} {n i : Nat} {bs : Bytes}

/-! ## The byte at a place -/

/-- Some range has the byte at the place. -/
def Shows (mem : Memory) (place : Nat) (b : UInt8) : Prop :=
  ∃ a n bs i, mem.fetch a n = some bs ∧ i < n ∧ a.toNat + i = place ∧ bs[i]? = some b

theorem Shows.unique (hc : mem.Coherent) {place : Nat} {b c : UInt8} (hb : mem.Shows place b)
    (h : mem.Shows place c) : b = c := by
  obtain ⟨a, n, bs, i, hbs, hi, hplace, hbyte⟩ := hb
  obtain ⟨a', k, cs, j, hcs, hj, hplace', hbyte'⟩ := h
  have heq : bs[i]? = cs[j]? := hc hbs hcs hi hj (hplace.trans hplace'.symm)
  exact Option.some.inj (hbyte.symm.trans (heq.trans hbyte'))

/-- What is read from an address on stands there. -/
theorem shows_of_read (h : mem.read a n = .ok bs) (hi : i < n) :
    mem.Shows (a.toNat + i) (bs.byte i) := by
  have hlength := length_of_read h
  exact ⟨a, n, bs, i, (read_eq_ok_iff.mp h).2.2, hi, rfl, Bytes.getElem?_eq_byte (by omega)⟩

/-! ## Replacing it -/

/-- The memory with another byte at one place. -/
def withByte (mem : Memory) (place : Nat) (value : UInt8) : Memory where
  fetch a n := (mem.fetch a n).map fun bs =>
    if a.toNat ≤ place then bs.set (place - a.toNat) value else bs
  length_fetch h := by
    obtain ⟨bs, hbs, rfl⟩ := Option.map_eq_some_iff.mp h
    split
    · rw [List.length_set, mem.length_fetch hbs]
    · exact mem.length_fetch hbs

/-- What starts `i` bytes before the place and is not longer than that is read as before. -/
theorem read_withByte (h : mem.read a n = .ok bs) (i : Nat) (value : UInt8) :
    (mem.withByte (a.toNat + i) value).read a n = .ok (bs.set i value) := by
  obtain ⟨hne, hend, hfetch⟩ := read_eq_ok_iff.mp h
  refine read_eq_ok_iff.mpr ⟨hne, hend, ?_⟩
  show (mem.fetch a n).map _ = _
  rw [hfetch, Option.map_some, if_pos (Nat.le_add_right ..), Nat.add_sub_cancel_left]

/-- At all other places it is the same memory. -/
theorem agree_withByte (mem : Memory) (place : Nat) (value : UInt8) :
    mem.Agree (mem.withByte place value) (· ≠ place) := by
  refine ⟨fun a n => (Option.isSome_map ..).symm, ?_⟩
  intro a n bs cs hbs hcs i hi hplace
  obtain ⟨old, hold, rfl⟩ := Option.map_eq_some_iff.mp hcs
  obtain rfl : bs = old := Option.some.inj (hbs.symm.trans hold)
  split
  · rw [List.getElem?_set_ne (by omega)]
  · rfl

end BootHandoff.Memory
