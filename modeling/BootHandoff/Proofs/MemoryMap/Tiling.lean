/-
  Memory without holes, on which the estimate of the top of DRAM is exact (`Tolud.estimate_exact`).
  Where every region that counts is DRAM, it is the greatest of their ends, in whatever order the
  map lists them. Where some regions of the map, in map order, tile the addresses from zero to `n`
  and the others are aside (`Tolud.Tiled`), it is `n`: with each tile the top reaches the start of
  the next one, and no region that is aside moves it.
-/
import BootHandoff.Proofs.MemoryMap.Raising
import Mathlib.Data.List.Perm.Basic

namespace BootHandoff

/-! ## Regions that count -/

namespace Region

/-- The region counts for the estimate: it lies below 4 GiB, and its type says something of DRAM. -/
def Counts (r : Region) : Prop :=
  r.stop ≤ 2 ^ 32 ∧ r.type ≠ .unusable ∧ r.type ≠ .disabled ∧ r.type ≠ .persistent

instance : DecidablePred Counts := fun _ => inferInstanceAs (Decidable (_ ∧ _))

theorem not_counts_iff {r : Region} :
    ¬ r.Counts ↔ r.type.saysNothingOfDram = true ∨ 2 ^ 32 < r.stop := by
  rw [MemoryType.saysNothingOfDram_iff, Counts]
  grind

/-- The ends of the regions that count. -/
def countedStops (map : List Region) : List Nat := (map.filter fun r => r.Counts).map stop

theorem countedStops_cons_of_counts {r : Region} (h : r.Counts) (map : List Region) :
    countedStops (r :: map) = r.stop :: countedStops map := by
  simp only [countedStops, List.filter_cons, h, decide_true, if_true, List.map_cons]

theorem countedStops_cons_of_not_counts {r : Region} (h : ¬ r.Counts) (map : List Region) :
    countedStops (r :: map) = countedStops map := by
  simp only [countedStops, List.filter_cons, h, decide_false, Bool.false_eq_true, if_false]

end Region

namespace Tolud

open Region

variable {map other : List Region} {n : Nat}

/-- DRAM lifts the top one end after the other. -/
theorem toNat_foldl_raise_of_dram (hdram : ∀ r ∈ map, r.Counts → r.type.isDram = true)
    (top : Address) : (map.foldl raise top).toNat = (countedStops map).foldl max top.toNat := by
  induction map generalizing top with
  | nil => rfl
  | cons r map ih =>
    have htail := ih fun s hs => hdram s (List.mem_cons_of_mem _ hs)
    rw [List.foldl_cons, htail]
    by_cases hcounts : r.Counts
    · rw [countedStops_cons_of_counts hcounts, List.foldl_cons,
        toNat_raise_of_dram hcounts.1 (hdram r (List.mem_cons_self ..) hcounts)]
    · rw [countedStops_cons_of_not_counts hcounts, raise_of_passed (not_counts_iff.1 hcounts)]

theorem toNat_estimate_of_dram (hdram : ∀ r ∈ map, r.Counts → r.type.isDram = true) :
    (estimate map).address.toNat = (countedStops map).max?.getD 0 := by
  have hfold : (estimate map).address.toNat = (countedStops map).foldl max 0 :=
    toNat_foldl_raise_of_dram hdram 0
  rw [hfold, List.foldl_max, Nat.zero_max]

theorem estimate_eq_of_perm (hdram : ∀ r ∈ map, r.Counts → r.type.isDram = true)
    (hperm : other.Perm map) : estimate other = estimate map := by
  have hother : ∀ r ∈ other, r.Counts → r.type.isDram = true :=
    fun r hr => hdram r (hperm.mem_iff.1 hr)
  have hstops : (countedStops other).Perm (countedStops map) := (hperm.filter _).map _
  have haddress : (estimate other).address = (estimate map).address := by
    rw [← UInt64.toNat_inj]
    calc (estimate other).address.toNat
        = (countedStops other).foldl max 0 := toNat_foldl_raise_of_dram hother 0
      _ = (countedStops map).foldl max 0 := hstops.foldl_eq 0
      _ = (estimate map).address.toNat := (toNat_foldl_raise_of_dram hdram 0).symm
  exact congrArg Tolud.mk haddress

/-! ## Tilings -/

/-- A region that cannot move the top while it is at or below `n`. -/
def Aside (n : Nat) (r : Region) : Prop :=
  (r.type = .unusable ∨ r.type = .disabled ∨ r.type = .persistent) ∨ 2 ^ 32 < r.stop ∨
    (r.type = .reserved ∧ n < r.start.toNat)

instance (n : Nat) : DecidablePred (Aside n) := fun _ => inferInstanceAs (Decidable (_ ∨ _))

/-- From `a` on, regions of the map tile the addresses up to `n`: in map order, each starts where
    the one before it ends. The others are aside. -/
inductive Tiled (n : Nat) : Nat → List Region → Prop
  | done : Tiled n n []
  /-- A tile, which may be empty. -/
  | tile {a : Nat} {r : Region} {map : List Region} (hstart : r.start.toNat = a)
      (htype : r.type = .ram ∨ r.type = .acpi ∨ r.type = .nvs ∨ r.type = .reserved)
      (hrest : Tiled n r.stop map) : Tiled n a (r :: map)
  | aside {a : Nat} {r : Region} {map : List Region} (haside : Aside n r)
      (hrest : Tiled n a map) : Tiled n a (r :: map)

theorem Tiled.le {a : Nat} (h : Tiled n a map) : a ≤ n := by
  induction h with
  | done => exact Nat.le_refl n
  | tile hstart _ _ ih => exact hstart ▸ Nat.le_trans (Nat.le_add_right ..) ih
  | aside _ _ ih => exact ih

theorem raise_of_aside {r : Region} {top : Address} (h : Aside n r) (htop : top.toNat ≤ n) :
    raise top r = top := by
  rcases h with htype | hhigh | ⟨htype, hstart⟩
  · exact raise_of_passed (Or.inl (MemoryType.saysNothingOfDram_iff.2 htype))
  · exact raise_of_passed (Or.inr hhigh)
  · refine raise_of_start_ne htype fun heq => ?_
    rw [heq] at hstart
    exact absurd htop (Nat.not_le_of_lt hstart)

/-- A tile carries the top from its start to its end. -/
theorem toNat_raise_of_tile {r : Region} {top : Address} (hlow : r.stop ≤ 2 ^ 32)
    (htype : r.type = .ram ∨ r.type = .acpi ∨ r.type = .nvs ∨ r.type = .reserved)
    (htop : r.start = top) : (raise top r).toNat = r.stop := by
  by_cases hreserved : r.type = .reserved
  · exact toNat_raise_of_start_eq hlow hreserved htop
  · have hdram : r.type.isDram = true := by
      rw [MemoryType.isDram_iff]
      tauto
    rw [toNat_raise_of_dram hlow hdram, ← htop]
    exact Nat.max_eq_right (Nat.le_add_right ..)

/-- With the top at the start of the next tile, the rest of the tiling carries it to `n`. -/
theorem Tiled.toNat_foldl_raise {a : Nat} (h : Tiled n a map) (hn : n ≤ 2 ^ 32) {top : Address}
    (htop : top.toNat = a) : (map.foldl raise top).toNat = n := by
  induction h generalizing top with
  | done => exact htop
  | tile hstart htype hrest ih =>
    have hlow := Nat.le_trans hrest.le hn
    exact ih (toNat_raise_of_tile hlow htype (UInt64.toNat_inj.1 (hstart.trans htop.symm)))
  | aside haside hrest ih =>
    -- The tiles to come keep the top at or below `n`, so that a region behind `n` is not reached.
    have hle : top.toNat ≤ n := htop ▸ hrest.le
    rw [List.foldl_cons, raise_of_aside haside hle]
    exact ih htop

/-! ## Exactness -/

/-- **The estimate is exact on memory without holes.** If every region that counts is DRAM, the
    estimate is the greatest of their ends, or zero if there are none, and the same in every order
    of the map. If regions of the map tile the addresses up to `n`, the estimate is `n`. -/
theorem estimate_exact (map : List Region) :
    ((∀ r ∈ map, r.Counts → r.type = .ram ∨ r.type = .acpi ∨ r.type = .nvs) →
      (estimate map).address.toNat = ((map.filter fun r => r.Counts).map stop).max?.getD 0 ∧
      ∀ other : List Region, other.Perm map → estimate other = estimate map) ∧
    ∀ n ≤ 2 ^ 32, Tiled n 0 map → (estimate map).address.toNat = n := by
  refine ⟨fun h => ?_, fun n hn h => h.toNat_foldl_raise hn rfl⟩
  have hdram : ∀ r ∈ map, r.Counts → r.type.isDram = true :=
    fun r hr hcounts => MemoryType.isDram_iff.2 (h r hr hcounts)
  exact ⟨toNat_estimate_of_dram hdram, fun _ hperm => estimate_eq_of_perm hdram hperm⟩

/-- DRAM that is listed from above, next to a region that runs past 4 GiB; and memory that is tiled
    up to 4 GiB itself, an empty tile and regions aside in between. -/
theorem estimate_exact_fourGiB :
    let dram : List Region := [⟨0x7fef0000, 0x10000, .nvs⟩, ⟨0x7fee0000, 0x10000, .acpi⟩,
      ⟨0xfffff000, 0x2000, .reserved⟩, ⟨0, 0x7fee0000, .ram⟩, ⟨0x90000000, 0x1000, .disabled⟩]
    let tiled : List Region := [⟨0, 0xa0000, .ram⟩, ⟨0xfffff000, 0x2000, .ram⟩,
      ⟨0xa0000, 0x60000, .reserved⟩, ⟨0x1000, 0x1000, .unusable⟩, ⟨0x100000, 0, .nvs⟩,
      ⟨0x100001000, 0x1000, .reserved⟩, ⟨0x100000, 0xfff00000, .reserved⟩]
    (∀ r ∈ dram, r.Counts → r.type = .ram ∨ r.type = .acpi ∨ r.type = .nvs) ∧
    (estimate dram).address = 0x7ff00000 ∧ estimate dram.reverse = estimate dram ∧
    Tiled (2 ^ 32) 0 tiled ∧ (estimate tiled).address.toNat = 2 ^ 32 := by
  intro dram tiled
  have hdram : ∀ r ∈ dram, r.Counts → r.type = .ram ∨ r.type = .acpi ∨ r.type = .nvs := by decide
  have htiled : Tiled (2 ^ 32) 0 tiled := by
    refine .tile rfl ?_ (.aside ?_ (.tile rfl ?_ (.aside ?_ (.tile rfl ?_ (.aside ?_
      (.tile rfl ?_ .done))))))
    all_goals decide
  obtain ⟨hgreatest, hperm⟩ := (estimate_exact dram).1 hdram
  have hmax : ((dram.filter fun r => r.Counts).map stop).max?.getD 0 = 0x7ff00000 := by decide
  exact ⟨hdram, UInt64.toNat_inj.1 (hgreatest.trans hmax), hperm _ dram.reverse_perm, htiled,
    (estimate_exact tiled).2 _ (Nat.le_refl _) htiled⟩

end Tolud

end BootHandoff
