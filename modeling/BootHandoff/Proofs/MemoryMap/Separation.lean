/-
  The estimate of the top of DRAM and the kinds that follow from it. In the end the top is above
  every DRAM region below 4 GiB (`Tolud.limit_le_estimate`) and above every reserved region that it
  was raised over (`Tolud.Absorbs.start_lt`), in whatever order the map lists them. An entry is
  taken for a device window only from the top on. `kind_reserved_estimate`: device windows and DRAM
  are apart, and what the estimate has counted as DRAM is never a device window.
-/
import BootHandoff.MemoryMap.Classification
import BootHandoff.Proofs.MemoryMap.Raising

namespace BootHandoff

/-! ## Ranges -/

/-- The address `a` lies in the region. -/
def Region.Covers (r : Region) (a : Nat) : Prop :=
  r.start.toNat ≤ a ∧ a < r.start.toNat + r.size.toNat

/-- The address `a` lies in the described range. -/
def Descriptor.Covers (d : Descriptor) (a : Nat) : Prop :=
  d.base.toNat ≤ a ∧ a < d.base.toNat + d.size.toNat

/-- The described range and the region have an address in common. -/
def Descriptor.Meets (d : Descriptor) (r : Region) : Prop := ∃ a, d.Covers a ∧ r.Covers a

/-! ## The estimate -/

namespace Tolud

variable {before : List Region} {r : Region}

/-- The estimate counts a reserved region as DRAM: after the regions before it, it starts exactly
    at the top, and it raises it. -/
structure Absorbs (before : List Region) (r : Region) : Prop where
  type_eq : r.type = .reserved
  start_eq : r.start = (estimate before).address
  raised : (estimate before).address < (estimate (before ++ [r])).address

/-- Whatever follows, the top stays above a region that was counted as DRAM. -/
theorem Absorbs.start_lt (h : Absorbs before r) (after : List Region) :
    r.start < (estimate (before ++ r :: after)).address := by
  have hlater := estimate_le_estimate_append (before ++ [r]) after
  rw [List.append_assoc, List.singleton_append] at hlater
  rw [h.start_eq]
  exact UInt64.lt_of_lt_of_le h.raised hlater

end Tolud

/-! ## The kinds -/

namespace MemoryMap

variable {tolud : Tolud} {pcieBase : Address}

/-- A device window that is not the configuration window starts at the top of DRAM or above. -/
theorem le_of_reservedKind {start : Address}
    (hkind : reservedKind tolud pcieBase start = .memoryMappedIo) (hne : start ≠ pcieBase) :
    tolud.address ≤ start :=
  ((reservedKind_eq_memoryMappedIo_iff.1 hkind).resolve_left hne).1

theorem reservedKind_of_lt {start : Address} (hlt : start < tolud.address) :
    reservedKind tolud pcieBase start =
      if start = pcieBase then .memoryMappedIo else .reserved := by
  rw [reservedKind, if_pos hlt]

theorem reserved_append_cons {r : Region} (hdram : r.type.isDram = false)
    (before after : List Region) (tolud : Tolud) (pcieBase : Address) :
    reserved (before ++ r :: after) tolud pcieBase =
      reserved before tolud pcieBase ++
        describeReserved tolud pcieBase r :: reserved after tolud pcieBase := by
  rw [reserved_append, reserved_cons, hdram, if_neg Bool.false_ne_true]

/-- **Device windows and DRAM are apart.** With the estimate for the map itself, an entry that is
    taken for a device window away from the configuration window has no address in common with
    DRAM below 4 GiB, and an entry that the estimate counted as DRAM is reserved memory unless it
    starts at the configuration window. -/
theorem kind_reserved_estimate (map : List Region) (pcieBase : Address) :
    let tolud := Tolud.estimate map
    (∀ d ∈ reserved map tolud pcieBase, d.kind = .memoryMappedIo → d.base ≠ pcieBase →
      ∀ r ∈ map, r.type = .ram ∨ r.type = .acpi ∨ r.type = .nvs →
        r.start.toNat + r.size.toNat ≤ 2 ^ 32 → ¬ d.Meets r) ∧
    ∀ before r after, map = before ++ r :: after → Tolud.Absorbs before r →
      ∃ d, reserved map tolud pcieBase =
          reserved before tolud pcieBase ++ d :: reserved after tolud pcieBase ∧
        d.base = r.start ∧ d.size = r.size ∧
        d.kind = if r.start = pcieBase then .memoryMappedIo else .reserved := by
  intro tolud
  constructor
  · intro d hd hkind hne r hr htype hfits
    obtain ⟨window, -, rfl⟩ := List.mem_map.mp hd
    have hdram : r.type.isDram = true := by
      rcases htype with h | h | h <;> rw [h] <;> rfl
    -- The top of DRAM lies between the end of the region and the start of the window.
    have hwindow : tolud.address ≤ window.start := le_of_reservedKind hkind hne
    have hregion : r.limit ≤ tolud.address :=
      Tolud.limit_le_estimate hr hdram (Region.isLow_of_le hfits)
    have hend := Region.toNat_limit_of_le hfits
    have happart := UInt64.le_iff_toNat_le.mp (UInt64.le_trans hregion hwindow)
    rintro ⟨a, hd, hr⟩
    have hlo : window.start.toNat ≤ a := hd.1
    have hhi := hr.2
    omega
  · intro before r after hmap habsorbs
    have hdram : r.type.isDram = false := by rw [habsorbs.type_eq]; rfl
    have hlt : r.start < tolud.address := by
      show r.start < (Tolud.estimate map).address
      rw [hmap]
      exact habsorbs.start_lt after
    refine ⟨describeReserved tolud pcieBase r, ?_, rfl, rfl, reservedKind_of_lt hlt⟩
    rw [hmap]
    exact reserved_append_cons hdram before after tolud pcieBase

/-- Firmware keeps two pages at the end of DRAM, which are listed before a device window: the pages
    are reserved memory, and the window is apart from the DRAM. -/
theorem kind_reserved_estimate_carved :
    let ram : Region := ⟨0, 0x1000, .ram⟩
    let carved : Region := ⟨0x1000, 0x2000, .reserved⟩
    let window : Region := ⟨0xfec00000, 0x1000, .reserved⟩
    let described := reserved [ram, carved, window]
      (Tolud.estimate [ram, carved, window]) 0xe0000000
    Tolud.Absorbs [ram] carved ∧
      (∃ d ∈ described, d.base = 0x1000 ∧ d.size = 0x2000 ∧ d.kind = .reserved) ∧
      ∃ d ∈ described, d.base = 0xfec00000 ∧ d.kind = .memoryMappedIo ∧ ¬ d.Meets ram := by
  intro ram carved window described
  have habsorbs : Tolud.Absorbs [ram] carved := ⟨rfl, by decide, by decide⟩
  obtain ⟨happart, hcarved⟩ := kind_reserved_estimate [ram, carved, window] 0xe0000000
  obtain ⟨d, hlist, hbase, hsize, hkind⟩ := hcarved [ram] carved [window] rfl habsorbs
  have hd : d ∈ described := by
    show d ∈ reserved _ _ _
    rw [hlist]
    exact List.mem_append_right _ (List.mem_cons_self ..)
  have hwindow : (⟨0xfec00000, 0x1000, .memoryMappedIo, Attributes.memoryMap, none⟩ : Descriptor) ∈
      described := by decide
  exact ⟨habsorbs, ⟨d, hd, hbase, hsize, hkind⟩, _, hwindow, rfl, rfl,
    happart _ hwindow rfl (by decide) ram (List.mem_cons_self ..) (Or.inl rfl) (by decide)⟩

end MemoryMap

end BootHandoff
