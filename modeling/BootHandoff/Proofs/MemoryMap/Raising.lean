/-
  How a region moves the top of DRAM. It is passed over, or it is DRAM and lifts the top to its end
  (`Tolud.toNat_raise_of_dram`), or it is reserved and moves the top to its end if it starts
  exactly there (`Tolud.toNat_raise_of_start_eq`), else not at all. Every region is of one of these
  kinds (`Region.passed_or_dram_or_reserved`). So the top never falls (`Tolud.le_raise`), never
  leaves the first 4 GiB (`Tolud.toNat_estimate_le`) and ends above all DRAM there
  (`Tolud.limit_le_estimate`). What holds of no region at all and is kept by each further one
  holds of the estimate (`Tolud.estimate_induction`).
-/
import BootHandoff.MemoryMap.Tolud

namespace BootHandoff

namespace MemoryType

variable {t : MemoryType}

theorem isDram_iff : t.isDram = true ↔ t = .ram ∨ t = .acpi ∨ t = .nvs := by
  cases t <;> decide

theorem isDram_eq_false_iff : t.isDram = false ↔ ¬ (t = .ram ∨ t = .acpi ∨ t = .nvs) := by
  rw [← isDram_iff, Bool.not_eq_true]

theorem saysNothingOfDram_iff :
    t.saysNothingOfDram = true ↔ t = .unusable ∨ t = .disabled ∨ t = .persistent := by
  cases t <;> decide

theorem saysNothingOfDram_of_isDram (h : t.isDram = true) : t.saysNothingOfDram = false := by
  revert h
  cases t <;> decide

end MemoryType

/-! ## Ends -/

namespace Region

variable {r : Region}

/-- The address after the last byte, as a number. Unlike `limit`, it is not held at the last
    address. -/
def stop (r : Region) : Nat := r.start.toNat + r.size.toNat

/-- A region whose bytes all lie below 4 GiB ends where its size says. -/
theorem toNat_limit_of_le (h : r.start.toNat + r.size.toNat ≤ 2 ^ 32) :
    r.limit.toNat = r.start.toNat + r.size.toNat := by
  rw [r.toNat_limit]
  omega

/-- That the end is held at the last address does not make a region low. -/
theorem isLow_iff : r.isLow = true ↔ r.stop ≤ 2 ^ 32 := by
  have hlimit := r.toNat_limit
  have hfourGiB : fourGiB.toNat = 2 ^ 32 := rfl
  rw [isLow, decide_eq_true_eq, UInt64.le_iff_toNat_le, hlimit, hfourGiB, stop]
  omega

theorem isLow_of_le (h : r.start.toNat + r.size.toNat ≤ 2 ^ 32) : r.isLow = true :=
  isLow_iff.2 h

/-- The estimate has three ways to take a region. -/
theorem passed_or_dram_or_reserved (r : Region) :
    (r.type.saysNothingOfDram = true ∨ 2 ^ 32 < r.stop) ∨
      (r.stop ≤ 2 ^ 32 ∧ r.type.isDram = true) ∨ (r.stop ≤ 2 ^ 32 ∧ r.type = .reserved) := by
  by_cases hlow : r.stop ≤ 2 ^ 32
  · cases htype : r.type with
    | unusable | disabled | persistent => exact Or.inl (Or.inl rfl)
    | ram | acpi | nvs => exact Or.inr (Or.inl ⟨hlow, rfl⟩)
    | reserved => exact Or.inr (Or.inr ⟨hlow, rfl⟩)
  · exact Or.inl (Or.inr (Nat.lt_of_not_le hlow))

end Region

namespace Tolud

variable {top : Address} {r : Region} {map : List Region}

/-! ## One region -/

theorem raise_of_passed (h : r.type.saysNothingOfDram = true ∨ 2 ^ 32 < r.stop) :
    raise top r = top := by
  have hpassed : (r.type.saysNothingOfDram || !r.isLow) = true := by
    rcases h with h | h
    · rw [h, Bool.true_or]
    · have hlow : r.isLow = false := by
        rw [← Bool.not_eq_true, Region.isLow_iff]
        exact Nat.not_le_of_lt h
      rw [hlow, Bool.not_false, Bool.or_true]
  rw [raise, if_pos hpassed]

theorem raise_of_dram (hlow : r.isLow = true) (hdram : r.type.isDram = true) :
    raise top r = if top < r.limit then r.limit else top := by
  rw [raise, MemoryType.saysNothingOfDram_of_isDram hdram, hlow, hdram]
  rfl

/-- DRAM lifts the top to its end. -/
theorem toNat_raise_of_dram (hlow : r.stop ≤ 2 ^ 32) (hdram : r.type.isDram = true) :
    (raise top r).toNat = max top.toNat r.stop := by
  have hlimit : r.limit.toNat = r.stop := Region.toNat_limit_of_le hlow
  rw [raise_of_dram (Region.isLow_iff.2 hlow) hdram]
  split
  · rename_i hlt
    rw [UInt64.lt_iff_toNat_lt] at hlt
    omega
  · rename_i hge
    rw [UInt64.lt_iff_toNat_lt] at hge
    omega

/-- A reserved region that starts at the top carries it to its own end. -/
theorem toNat_raise_of_start_eq (hlow : r.stop ≤ 2 ^ 32) (htype : r.type = .reserved)
    (hstart : r.start = top) : (raise top r).toNat = r.stop := by
  rw [raise, htype, Region.isLow_iff.2 hlow]
  show (if r.start = top then r.limit else top).toNat = r.stop
  rw [if_pos hstart]
  exact Region.toNat_limit_of_le hlow

theorem raise_of_start_ne (htype : r.type = .reserved) (hstart : r.start ≠ top) :
    raise top r = top := by
  rw [raise, htype, if_neg hstart]
  show (if (false || !r.isLow) = true then top else top) = top
  rw [ite_self]

/-- A region never lowers the top. -/
theorem le_raise (top : Address) (r : Region) : top ≤ raise top r := by
  rcases r.passed_or_dram_or_reserved with hpassed | ⟨hlow, hdram⟩ | ⟨hlow, htype⟩
  · exact UInt64.le_of_eq (raise_of_passed hpassed).symm
  · rw [UInt64.le_iff_toNat_le, toNat_raise_of_dram hlow hdram]
    exact Nat.le_max_left ..
  · by_cases hstart : r.start = top
    · rw [UInt64.le_iff_toNat_le, toNat_raise_of_start_eq hlow htype hstart, ← hstart]
      exact Nat.le_add_right ..
    · exact UInt64.le_of_eq (raise_of_start_ne htype hstart).symm

theorem toNat_raise_le (htop : top.toNat ≤ 2 ^ 32) (r : Region) :
    (raise top r).toNat ≤ 2 ^ 32 := by
  rcases r.passed_or_dram_or_reserved with hpassed | ⟨hlow, hdram⟩ | ⟨hlow, htype⟩
  · rw [raise_of_passed hpassed]
    exact htop
  · rw [toNat_raise_of_dram hlow hdram]
    exact Nat.max_le.2 ⟨htop, hlow⟩
  · by_cases hstart : r.start = top
    · rw [toNat_raise_of_start_eq hlow htype hstart]
      exact hlow
    · rw [raise_of_start_ne htype hstart]
      exact htop

/-- A DRAM region below 4 GiB leaves the top at its end or above it. -/
theorem limit_le_raise (hdram : r.type.isDram = true) (hlow : r.isLow = true) :
    r.limit ≤ raise top r := by
  rw [raise_of_dram hlow hdram]
  split
  · exact UInt64.le_refl _
  · rename_i hnot
    exact UInt64.not_lt.mp hnot

/-! ## A whole map -/

theorem le_foldl_raise (map : List Region) (top : Address) : top ≤ map.foldl raise top := by
  induction map generalizing top with
  | nil => exact UInt64.le_refl top
  | cons r map ih => exact UInt64.le_trans (le_raise top r) (ih (raise top r))

theorem estimate_le_estimate_append (m n : List Region) :
    (estimate m).address ≤ (estimate (m ++ n)).address := by
  rw [estimate_append]
  exact le_foldl_raise n _

theorem limit_le_estimate (hmem : r ∈ map) (hdram : r.type.isDram = true)
    (hlow : r.isLow = true) : r.limit ≤ (estimate map).address := by
  obtain ⟨before, after, rfl⟩ := List.append_of_mem hmem
  rw [estimate_append, List.foldl_cons]
  exact UInt64.le_trans (limit_le_raise hdram hlow) (le_foldl_raise after _)

section Induction

variable {P : List Region → Address → Prop}

theorem foldl_raise_induction
    (hraise : ∀ before top r, P before top → P (before ++ [r]) (raise top r))
    {before : List Region} (h : P before top) (after : List Region) :
    P (before ++ after) (after.foldl raise top) := by
  induction after generalizing before top with
  | nil =>
    rw [List.append_nil]
    exact h
  | cons r after ih =>
    rw [List.append_cons]
    exact ih (hraise before top r h)

/-- What holds of no region and the top at zero, and is kept by each further region, holds of a
    whole map and its estimate. -/
theorem estimate_induction (hnil : P [] 0)
    (hraise : ∀ before top r, P before top → P (before ++ [r]) (raise top r))
    (map : List Region) : P map (estimate map).address :=
  foldl_raise_induction hraise hnil map

end Induction

theorem toNat_estimate_le (map : List Region) : (estimate map).address.toNat ≤ 2 ^ 32 :=
  estimate_induction (P := fun _ top => top.toNat ≤ 2 ^ 32) (by decide)
    (fun _ _ r htop => toNat_raise_le htop r) map

end Tolud

end BootHandoff
