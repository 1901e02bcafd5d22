/-
  The top of lower usable DRAM (TOLUD), estimated from the memory map. Regions are taken in map
  order. A DRAM region raises the top to its end; a reserved region moves it only when it starts
  exactly at the top, since firmware carves what it keeps out of the end of DRAM. Regions that
  reach past 4 GiB, or say nothing of DRAM, are passed over.
-/
import BootHandoff.Log
import BootHandoff.MemoryMap.Region
import BootHandoff.Text.Hex

namespace BootHandoff

/-- The top of lower usable DRAM. It is a 64-bit address, so that 4 GiB itself is one. -/
structure Tolud where
  address : Address
deriving DecidableEq, Repr

namespace Tolud

/-- The top of DRAM once a region is taken into account. -/
def raise (top : Address) (r : Region) : Address :=
  if r.type.saysNothingOfDram || !r.isLow then top
  else if r.type.isDram then (if top < r.limit then r.limit else top)
  else if r.start = top then r.limit
  else top

/-- The estimate for a memory map. -/
def estimate (map : List Region) : Tolud := ⟨map.foldl raise 0⟩

/-- What is logged about an estimate: a warning when no DRAM was found. -/
def warnings (t : Tolud) : List Record :=
  if t.address = 0 then
    [.of .tolud .warn "No usable DRAM below 4 GiB; MMIO classification uses base addresses only"]
  else []

/-- The written form, a hexadecimal address. -/
def text (t : Tolud) : String := Text.hex t.address.toNat

theorem estimate_nil : estimate [] = ⟨0⟩ := rfl

/-- A map taken in two parts. -/
theorem estimate_append (m n : List Region) :
    estimate (m ++ n) = ⟨n.foldl raise (estimate m).address⟩ := by
  simp [estimate]

end Tolud

end BootHandoff
