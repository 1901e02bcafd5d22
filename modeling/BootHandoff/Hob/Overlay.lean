/-
  A window in its place in memory. Whoever reads memory while a list is written sees the bytes of
  the window where the window lies, and the memory behind it everywhere else. The ranges that can be
  read are those of the memory.
-/
import BootHandoff.Hob.List
import BootHandoff.Memory

namespace BootHandoff

namespace Window

/-- The window over the `size` bytes of memory from `base` on, zero where they cannot be read. -/
def ofMemory (mem : Memory) (base : Address) (size : Nat) : Window :=
  ⟨size, fun i => ((mem.fetch (base + UInt64.ofNat i) 1).bind (·[0]?)).getD 0⟩

/-- The byte at an address, with the window at `base` and `behind` in the memory there. -/
def look (w : Window) (base : Address) (address : Nat) (behind : UInt8) : UInt8 :=
  if base.toNat ≤ address ∧ address < base.toNat + w.size then w.byteAt (address - base.toNat)
  else behind

/-- The memory with the window lying over it from `base` on. -/
def overlay (w : Window) (base : Address) (mem : Memory) : Memory where
  fetch a n := (mem.fetch a n).map fun bs => bs.mapIdx fun i => w.look base (a.toNat + i)
  length_fetch h := by
    obtain ⟨bs, hf, rfl⟩ := Option.map_eq_some_iff.1 h
    rw [List.length_mapIdx, mem.length_fetch hf]

end Window

/-- The memory that a list lies in, where `behind` is the memory around the window of the list. -/
def HobList.memory (behind : Memory) (l : HobList) : Memory := l.window.overlay l.base behind

end BootHandoff
