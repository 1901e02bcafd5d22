/-
  A HOB list under construction. The list lies in a window of memory: the handoff table (PHIT) at
  its start, then the blocks in the order they were appended, then the block that closes the list.
  After every append the list is closed anew, so that what lies in the window is always a whole
  list. A block that does not fit is refused and changes nothing.
-/
import BootHandoff.Hob.Items
import BootHandoff.Hob.Window
import BootHandoff.Logged

namespace BootHandoff

/-! ## The handoff table -/

/-- The phase handoff information table, the block that opens a list. -/
structure Phit where
  memoryTop : Address
  memoryBottom : Address
  freeMemoryTop : Address
  /-- The address after the closing block. -/
  freeMemoryBottom : Address
  /-- The address of the closing block. -/
  endOfList : Address
deriving DecidableEq, Repr

namespace Phit

/-- The size of the table. -/
def size : Nat := 56

/-- The version of the table's layout. -/
def version : UInt32 := 9

/-- The boot mode in which the platform is set up completely. -/
def bootMode : UInt32 := 0

/-- The bytes of the table. -/
def encode (p : Phit) : Bytes :=
  hobHeader HobType.handoff size ++ Bytes.ofWord32 version ++ Bytes.ofWord32 bootMode
    ++ Bytes.ofWord64 p.memoryTop ++ Bytes.ofWord64 p.memoryBottom
    ++ Bytes.ofWord64 p.freeMemoryTop ++ Bytes.ofWord64 p.freeMemoryBottom
    ++ Bytes.ofWord64 p.endOfList

@[simp] theorem length_encode (p : Phit) : p.encode.length = size := by
  simp [encode, size, hobHeaderSize]

end Phit

/-- The block that closes a list. -/
def closingHob : Bytes := hobHeader HobType.endOfList hobHeaderSize

/-- The longest block whose length fits its header. -/
def maxHobSize : Nat := 2 ^ 16 - 1

/-! ## The list -/

/-- A HOB list in a window of memory. -/
structure HobList where
  window : Window
  /-- The address of the window. -/
  base : Address
  memoryBottom : Address
  memoryTop : Address
  /-- The offset of the closing block. -/
  closing : Nat
  closing_fits : closing + hobHeaderSize ≤ window.size
  base_fits : base.toNat + window.size < 2 ^ 64

namespace HobList

/-- The address of the closing block. -/
def endAddress (l : HobList) : Address := l.base + UInt64.ofNat l.closing

/-- The table that opens the list. -/
def phit (l : HobList) : Phit where
  memoryTop := l.memoryTop
  memoryBottom := l.memoryBottom
  freeMemoryTop := l.base + UInt64.ofNat l.window.size
  freeMemoryBottom := l.endAddress + UInt64.ofNat hobHeaderSize
  endOfList := l.endAddress

/-- The bytes of the list, with the closing block. -/
def bytes (l : HobList) : Bytes := l.window.slice 0 (l.closing + hobHeaderSize)

/-- The blocks of the list, the table first and without the closing block. -/
def items (l : HobList) : List (UInt16 × Bytes) := Hob.items (l.window.slice 0 l.closing)

/-- The room left for blocks. -/
def available (l : HobList) : Nat := l.window.size - l.closing - hobHeaderSize

/-- Writes the closing block and the table. -/
def close (l : HobList) : HobList :=
  { l with window := (l.window.write l.closing closingHob).write 0 l.phit.encode }

/-- The smallest window that holds a list. -/
def minWindow : Nat := Phit.size + hobHeaderSize

/-- Starts a list in a window at an address, for the memory between two bounds. -/
def create (window : Window) (base memoryBottom memoryTop : Address) :
    Except (Fault HobError) HobList :=
  if hs : window.size < minWindow then
    .error (.cause (.outOfResources minWindow window.size))
  else if hb : base.toNat + window.size < 2 ^ 64 then
    .ok (close ⟨window, base, memoryBottom, memoryTop, Phit.size, Nat.le_of_not_lt hs, hb⟩)
  else .error .overflow

/-- Appends a block. -/
def append (l : HobList) (hob : Hob) : Except HobError HobList :=
  if h : hob.size ≤ l.available ∧ hob.size ≤ maxHobSize then
    .ok <| close
      { l with
        window := l.window.write l.closing hob.encode
        closing := l.closing + hob.size
        closing_fits := by
          have := l.closing_fits
          have := h.1
          unfold available at this
          simp only [Window.size_write]
          omega
        base_fits := l.base_fits }
  else .error (.outOfResources hob.size l.available)

/-! ## Addresses and sizes -/

theorem toNat_endAddress (l : HobList) : l.endAddress.toNat = l.base.toNat + l.closing := by
  have := l.closing_fits
  have := l.base_fits
  rw [endAddress, UInt64.toNat_add, Address.toNat_ofNat (by omega)]
  exact Nat.mod_eq_of_lt (by omega)

theorem toNat_freeMemoryTop (l : HobList) :
    l.phit.freeMemoryTop.toNat = l.base.toNat + l.window.size := by
  have := l.base_fits
  rw [phit, UInt64.toNat_add, Address.toNat_ofNat (by omega)]
  exact Nat.mod_eq_of_lt this

theorem toNat_freeMemoryBottom (l : HobList) :
    l.phit.freeMemoryBottom.toNat = l.base.toNat + l.closing + hobHeaderSize := by
  have := l.closing_fits
  have := l.base_fits
  rw [phit, UInt64.toNat_add, toNat_endAddress]
  exact Nat.mod_eq_of_lt (by unfold hobHeaderSize at *; simp; omega)

theorem size_of_append {l m : HobList} {hob : Hob} (h : l.append hob = .ok m) :
    m.window.size = l.window.size := by
  unfold append at h
  split at h
  · cases h; rfl
  · cases h

theorem closing_of_append {l m : HobList} {hob : Hob} (h : l.append hob = .ok m) :
    m.closing = l.closing + hob.size := by
  unfold append at h
  split at h
  · cases h; rfl
  · cases h

end HobList

end BootHandoff
