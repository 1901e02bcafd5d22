/-
  Classification of a memory map in two passes. The first describes the DRAM entries as system
  memory. The second needs the top of lower usable DRAM and the base of the PCI Express
  configuration window, and tells reserved DRAM from device windows among the other entries. Each
  entry is described by exactly one of the passes (`length_usable_add_length_reserved`).
-/
import BootHandoff.MemoryMap.Resource
import BootHandoff.MemoryMap.Tolud

namespace BootHandoff.MemoryMap

/-! ## DRAM -/

/-- Why a DRAM entry must stay allocated: ACPI data is kept out of free memory. -/
def dramAllocation : MemoryType → Option Allocation
  | .acpi => some .acpiReclaim
  | .nvs => some .acpiNvs
  | _ => none

/-- The description of a DRAM entry. -/
def describeDram (r : Region) : Descriptor :=
  ⟨r.start, r.size, .systemMemory, Attributes.memoryMap, dramAllocation r.type⟩

/-- The descriptions of the DRAM entries, in map order. -/
def usable (map : List Region) : List Descriptor :=
  (map.filter (·.type.isDram)).map describeDram

theorem usable_cons (r : Region) (map : List Region) :
    usable (r :: map) = if r.type.isDram then describeDram r :: usable map else usable map := by
  cases h : r.type.isDram <;> simp [usable, h]

/-! ## Everything else -/

/-- What an entry that is not DRAM is taken for: a device window if it starts at the configuration
    window or between the top of DRAM and 4 GiB, else reserved memory. Without a configuration
    window `pcieBase` is zero, which an entry at address zero matches. -/
def reservedKind (tolud : Tolud) (pcieBase start : Address) : ResourceKind :=
  if start = pcieBase then .memoryMappedIo
  else if start < tolud.address then .reserved
  else if start < fourGiB then .memoryMappedIo
  else .reserved

/-- The rules in one condition: a device window starts at the configuration window, or from the top
    of DRAM on below 4 GiB. -/
theorem reservedKind_eq (tolud : Tolud) (pcieBase start : Address) :
    reservedKind tolud pcieBase start =
      if start = pcieBase ∨ (tolud.address ≤ start ∧ start < fourGiB) then .memoryMappedIo
      else .reserved := by
  unfold reservedKind
  by_cases hbase : start = pcieBase
  · rw [if_pos hbase, if_pos (Or.inl hbase)]
  rw [if_neg hbase]
  by_cases hbelow : start < tolud.address
  · rw [if_pos hbelow, if_neg]
    intro h
    rcases h with h | ⟨hle, -⟩
    · exact hbase h
    · exact UInt64.not_le.2 hbelow hle
  rw [if_neg hbelow]
  by_cases hlow : start < fourGiB
  · rw [if_pos hlow, if_pos (Or.inr ⟨UInt64.not_lt.1 hbelow, hlow⟩)]
  · rw [if_neg hlow, if_neg]
    intro h
    rcases h with h | ⟨-, hlt⟩
    · exact hbase h
    · exact hlow hlt

section

variable {tolud : Tolud} {pcieBase start : Address}

theorem reservedKind_eq_memoryMappedIo_iff :
    reservedKind tolud pcieBase start = .memoryMappedIo ↔
      start = pcieBase ∨ (tolud.address ≤ start ∧ start < fourGiB) := by
  rw [reservedKind_eq]
  split <;> simp [*]

theorem reservedKind_eq_reserved_iff :
    reservedKind tolud pcieBase start = .reserved ↔
      ¬ (start = pcieBase ∨ (tolud.address ≤ start ∧ start < fourGiB)) := by
  rw [reservedKind_eq]
  split <;> simp [*]

theorem reservedKind_ne_systemMemory : reservedKind tolud pcieBase start ≠ .systemMemory := by
  rw [reservedKind_eq]
  split <;> simp

end

/-- Why an entry that is not DRAM must stay allocated. -/
def reservedAllocation : MemoryType → Option Allocation
  | .unusable | .disabled => some .unusable
  | .persistent => some .persistent
  | _ => none

/-- The description of an entry that is not DRAM. -/
def describeReserved (tolud : Tolud) (pcieBase : Address) (r : Region) : Descriptor :=
  ⟨r.start, r.size, reservedKind tolud pcieBase r.start, Attributes.memoryMap,
    reservedAllocation r.type⟩

/-- The descriptions of the entries that are not DRAM, in map order. -/
def reserved (map : List Region) (tolud : Tolud) (pcieBase : Address) : List Descriptor :=
  (map.filter fun r => !r.type.isDram).map (describeReserved tolud pcieBase)

theorem reserved_cons (r : Region) (map : List Region) (tolud : Tolud) (pcieBase : Address) :
    reserved (r :: map) tolud pcieBase =
      if r.type.isDram then reserved map tolud pcieBase
      else describeReserved tolud pcieBase r :: reserved map tolud pcieBase := by
  cases h : r.type.isDram <;> simp [reserved, h]

theorem reserved_append (m n : List Region) (tolud : Tolud) (pcieBase : Address) :
    reserved (m ++ n) tolud pcieBase = reserved m tolud pcieBase ++ reserved n tolud pcieBase := by
  simp [reserved]

theorem length_usable_add_length_reserved (map : List Region) (tolud : Tolud)
    (pcieBase : Address) :
    (usable map).length + (reserved map tolud pcieBase).length = map.length := by
  induction map with
  | nil => rfl
  | cons r map ih =>
    rw [usable_cons, reserved_cons, List.length_cons]
    split <;> rw [List.length_cons] <;> omega

end BootHandoff.MemoryMap
