/-
  Where a boot places its list. The window starts at the first boundary past the image of the
  payload (`Settings.isLeast_hobBase`), so that nothing written into it is written over the image,
  and it ends where the settings say. Whatever blocks are offered, the addresses in the table stay
  in order: image, table, closing block, free memory, end of the window (`Boot.exists_newList_placed`).
-/
import BootHandoff.Boot
import BootHandoff.Memory.Extent
import BootHandoff.Proofs.Hob.Offering
import Mathlib.Order.Bounds.Basic

namespace BootHandoff

/-! ## The window -/

namespace Settings

variable {settings : Settings} {base top : Address}

/-- The end of the image, as a number that may leave the address space. -/
def imageEnd (settings : Settings) : Nat := settings.imageBase.toNat + settings.imageSize.toNat

/-- The start of the window as a number: the end of the image, rounded up. -/
theorem toNat_hobBase (h : settings.hobBase? = some base) :
    base.toNat = (settings.imageEnd + 0xfffff) / 0x100000 * 0x100000 := by
  unfold hobBase? at h
  simp only [Option.bind_eq_bind, Option.bind_eq_some_iff, Address.offset?_eq_some_iff,
    Option.pure_def, Option.some.injEq] at h
  obtain ⟨imageEnd, himage, past, hpast, rfl⟩ := h
  have hsum : past.toNat - 1 = settings.imageEnd + 0xfffff := by
    rw [hpast, himage, windowAlignment, Settings.imageEnd]
    omega
  have hle : (past.toNat - 1) / windowAlignment * windowAlignment ≤ past.toNat - 1 :=
    Nat.div_mul_le_self ..
  rw [Address.toNat_ofNat (Nat.lt_of_le_of_lt hle (Nat.sub_lt_of_lt past.toNat_lt)), hsum]
  rfl

/-- The window starts at the first boundary that is not below the end of the image. -/
theorem isLeast_hobBase (h : settings.hobBase? = some base) :
    IsLeast {m | 0x100000 ∣ m ∧ settings.imageEnd ≤ m} base.toNat := by
  have hbase := toNat_hobBase h
  refine ⟨⟨⟨_, hbase.trans (Nat.mul_comm ..)⟩, ?_⟩, ?_⟩
  · rw [hbase]
    omega
  · rintro m ⟨⟨n, rfl⟩, hn⟩
    rw [hbase]
    omega

theorem toNat_hobTop (hbase : settings.hobBase? = some base) (htop : settings.hobTop? = some top) :
    top.toNat = base.toNat + settings.hobWindowSize.toNat := by
  unfold hobTop? at htop
  rw [hbase] at htop
  exact Address.offset?_eq_some_iff.mp htop

end Settings

/-! ## The list -/

namespace HobList

variable {l : HobList} {hobs : List Hob}

/-- The addresses in the table of a list are in order. -/
theorem Holds.table_ordered (h : Holds l hobs) :
    l.base < l.phit.endOfList ∧ l.phit.endOfList < l.phit.freeMemoryBottom ∧
      l.phit.freeMemoryBottom ≤ l.phit.freeMemoryTop := by
  have hclosing := h.closing_eq
  have hfits := l.closing_fits
  have hend : l.phit.endOfList.toNat = _ := l.toNat_endAddress
  have hbottom := l.toNat_freeMemoryBottom
  have htop := l.toNat_freeMemoryTop
  rw [Phit.size] at hclosing
  rw [hobHeaderSize] at hbottom hfits
  simp only [UInt64.lt_iff_toNat_lt, UInt64.le_iff_toNat_le]
  omega

end HobList

namespace Boot

variable {settings : Settings} {base top : Address}

/-- A window of the settings that holds a list at all gets one. -/
theorem exists_newList (hsize : HobList.minWindow ≤ settings.hobWindowSize.toNat)
    (hbase : settings.hobBase? = some base) (htop : settings.hobTop? = some top) (mem : Memory) :
    ∃ start, newList settings mem = .ok start ∧
      HobList.create (.ofMemory mem base settings.hobWindowSize.toNat) base settings.imageBase top =
        .ok start := by
  have hfit := top.toNat_lt
  rw [Settings.toNat_hobTop hbase htop] at hfit
  let window := Window.ofMemory mem base settings.hobWindowSize.toNat
  have hholds : HobList.minWindow ≤ window.size := hsize
  obtain ⟨start, hstart⟩ := HobList.exists_create hholds hfit settings.imageBase top
  refine ⟨start, ?_, hstart⟩
  rw [newList, hbase, htop]
  exact hstart

/-- **Where the list lies.** If the window is large enough for a list and its ends are addresses,
    the boot starts a list there. Its table is at the first multiple of 1 MiB that is not below the
    end of the image, so no byte of the window is one of the image. Whatever blocks are offered, the
    table in the window has its addresses in order, from the start of the image to the end of the
    window. -/
theorem exists_newList_placed (hsize : 64 ≤ settings.hobWindowSize.toNat)
    (hbase : settings.hobBase? = some base) (htop : settings.hobTop? = some top) (mem : Memory) :
    ∃ start, newList settings mem = .ok start ∧ ∀ offered : List Hob,
      let list := start.offerAll offered
      list.base = base ∧
      IsLeast {m | 0x100000 ∣ m ∧ settings.imageEnd ≤ m} list.base.toNat ∧
      list.window.size = settings.hobWindowSize.toNat ∧
      (∀ i < list.window.size, ¬ (settings.imageBase.toNat ≤ list.base.toNat + i ∧
        list.base.toNat + i < settings.imageEnd)) ∧
      list.window.slice 0 56 = list.phit.encode ∧
      list.phit.memoryBottom = settings.imageBase ∧
      list.phit.memoryBottom ≤ list.base ∧
      list.base < list.phit.endOfList ∧
      list.phit.endOfList = list.endAddress ∧
      list.phit.endOfList < list.phit.freeMemoryBottom ∧
      list.phit.freeMemoryBottom ≤ list.phit.freeMemoryTop ∧
      list.phit.freeMemoryTop = list.phit.memoryTop ∧
      list.phit.memoryTop = top := by
  obtain ⟨start, hnew, hstart⟩ := exists_newList hsize hbase htop mem
  refine ⟨start, hnew, fun offered => ?_⟩
  intro list
  obtain ⟨hstartBase, hstartSize, hstartBottom, hstartTop⟩ := HobList.place_of_create hstart
  have hplace := HobList.samePlace_offerAll start offered
  have hlistBase : list.base = base := hplace.base_eq.trans hstartBase
  have hlistSize : list.window.size = settings.hobWindowSize.toNat :=
    hplace.size_eq.trans hstartSize
  have hlistBottom : list.phit.memoryBottom = settings.imageBase :=
    hplace.memoryBottom_eq.trans hstartBottom
  have hlistTop : list.phit.memoryTop = top := hplace.memoryTop_eq.trans hstartTop
  have hleast := Settings.isLeast_hobBase hbase
  have hpast : settings.imageEnd ≤ base.toNat := hleast.1.2
  have hholds : HobList.Holds list (start.accepted offered) :=
    HobList.holds_offerAll hstart offered
  obtain ⟨hend, hbottom, hfree⟩ := hholds.table_ordered
  refine ⟨hlistBase, hlistBase ▸ hleast, hlistSize, fun i _ => ?_, hholds.slice_phit, hlistBottom,
    ?_, hend, rfl, hbottom, hfree, ?_, hlistTop⟩
  · rw [hlistBase]
    omega
  · rw [hlistBottom, hlistBase, UInt64.le_iff_toNat_le]
    exact Nat.le_trans (Nat.le_add_right ..) hpast
  · rw [hlistTop, ← UInt64.toNat_inj, list.toNat_freeMemoryTop, hlistBase, hlistSize,
      Settings.toNat_hobTop hbase htop]

/-- An image that ends off a boundary, and a window that holds the table and the closing block and
    not a byte more: an offer is refused, and the order is kept. -/
theorem exists_newList_placed_tight :
    let settings : Settings := { imageSize := 0x481000, hobWindowSize := 64 }
    settings.hobBase? = some 0xd00000 ∧ settings.hobTop? = some 0xd00040 ∧
      ∃ start, newList settings (.sparse []) = .ok start ∧
        let list := start.offerAll [.cpu 39 16]
        list.base = 0xd00000 ∧ list.base < list.phit.endOfList ∧
        list.phit.endOfList < list.phit.freeMemoryBottom ∧
        list.phit.freeMemoryBottom ≤ list.phit.freeMemoryTop ∧
        list.phit.freeMemoryTop = 0xd00040 := by
  have hbase : ({ imageSize := 0x481000, hobWindowSize := 64 } : Settings).hobBase? =
      some 0xd00000 := by decide +kernel
  have htop : ({ imageSize := 0x481000, hobWindowSize := 64 } : Settings).hobTop? =
      some 0xd00040 := by decide +kernel
  obtain ⟨start, hnew, hplaced⟩ := exists_newList_placed (by decide) hbase htop (.sparse [])
  obtain ⟨hlist, -, -, -, -, -, -, hend, -, hbottom, hfree, htable, hlast⟩ := hplaced [.cpu 39 16]
  exact ⟨hbase, htop, start, hnew, hlist, hend, hbottom, hfree, htable.trans hlast⟩

end Boot

end BootHandoff
