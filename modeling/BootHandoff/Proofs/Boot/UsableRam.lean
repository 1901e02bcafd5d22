/-
  The RAM that a boot logs. The sizes of the RAM in the memory map are summed up in 64 bits before
  anything is built. The sum is exact if it fits (`totalRam?_eq`); if it does not, the boot stops
  there and no list is started, and this is the one way in which the attempt to build the list
  overflows (`runFromTables_eq_none_iff`).
-/
import BootHandoff.Proofs.Boot.Confinement
import BootHandoff.Proofs.Boot.Placement
import BootHandoff.Proofs.Handoff.Room
import BootHandoff.Proofs.Handoff.Safety

namespace BootHandoff

/-! ## The sum -/

/-- The sizes of the RAM in a memory map, summed up without a limit. -/
def ramTotal (map : List Region) : Nat :=
  ((map.filter fun r => r.type = .ram).map fun r => r.size.toNat).sum

/-- Sums one after the other leave the word exactly if the sum of all does. -/
theorem foldlM_offset?_eq (regions : List Region) (start : Address) :
    regions.foldlM (fun total r => Address.offset? total r.size.toNat) start =
      Address.offset? start (regions.map fun r => r.size.toNat).sum := by
  induction regions generalizing start with
  | nil => exact (Address.offset?_eq_some_iff.mpr rfl).symm
  | cons r regions ih =>
    rw [List.foldlM_cons, List.map_cons, List.sum_cons]
    cases hstep : start.offset? r.size.toNat with
    | none =>
      have hpast := Address.offset?_eq_none_iff.mp hstep
      exact (Address.offset?_eq_none_iff.mpr (by omega)).symm
    | some next =>
      have hnext := Address.offset?_eq_some_iff.mp hstep
      show regions.foldlM _ next = _
      rw [ih next, Address.offset?, Address.offset?, hnext, Nat.add_assoc]

theorem totalRam?_eq (map : List Region) :
    totalRam? map =
      if ramTotal map < 2 ^ 64 then some (UInt64.ofNat (ramTotal map)) else none := by
  rw [totalRam?, foldlM_offset?_eq, Address.offset?]
  show (if 0 + ramTotal map < 2 ^ 64 then some (UInt64.ofNat (0 + ramTotal map)) else none) = _
  rw [Nat.zero_add]

namespace Boot

open Acpi (AcpiError)
open Procedure (StopCause)

variable {σ κ ε : Type} {info : Coreboot.Info}

/-! ## The announcement -/

theorem outcome_run_announce (h : ramTotal info.memoryMap < 2 ^ 64) (host : Procedure.Host σ)
    (sink : Sink κ) (memory : κ → Memory) (s : σ) (k : κ) :
    ((announce info : Procedure ε Unit).run host sink memory s k).outcome = .ok () := by
  unfold announce
  rw [totalRam?_eq, if_pos h]
  cases info.version with
  | none => rfl
  | some version => rfl

theorem outcome_run_announce_of_le (h : 2 ^ 64 ≤ ramTotal info.memoryMap)
    (host : Procedure.Host σ) (sink : Sink κ) (memory : κ → Memory) (s : σ) (k : κ) :
    ((announce info : Procedure ε Unit).run host sink memory s k).outcome = .error .overflow := by
  unfold announce
  rw [totalRam?_eq, if_neg (Nat.not_lt.mpr h)]
  cases info.version with
  | none => rfl
  | some version => rfl

/-! ## Building the list -/

variable (bus : Bus σ) (mem : Memory) (addressBits : UInt8)

theorem build_of_le (h : 2 ^ 64 ≤ ramTotal info.memoryMap) (settings : Settings)
    (s : Console × σ) :
    (build bus mem settings addressBits info s).outcome = .error .overflow ∧
      (build bus mem settings addressBits info s).list = none := by
  unfold build
  simp only [outcome_run_announce_of_le h]
  exact ⟨rfl, trivial⟩

theorem faultOf_ne_overflow {δ : Type} {f : δ → BootError} {fault : Fault δ}
    (h : fault ≠ .overflow) : faultOf f fault ≠ .overflow := by
  cases fault with
  | overflow => exact absurd rfl h
  | cause e => nofun

/-- Past the announcement only the place of the window could make it overflow. -/
theorem outcome_build_ne_overflow (h : ramTotal info.memoryMap < 2 ^ 64) {settings : Settings}
    (hlist : newList settings mem ≠ .error .overflow) (s : Console × σ) :
    (build bus mem settings addressBits info s).outcome ≠ .error .overflow := by
  unfold build
  simp only [outcome_run_announce h]
  cases hnew : newList settings mem with
  | error fault =>
    intro hover
    exact faultOf_ne_overflow (fun hfault => hlist (hfault ▸ hnew)) (Except.error.inj hover)
  | ok list =>
    dsimp only
    split
    · rename_i fault hfault
      intro hover
      apply faultOf_ne_overflow _ (Except.error.inj hover)
      rintro rfl
      exact Procedure.outcome_run_of_safe (safe_describe settings addressBits info) _ _ _ _ _ hfault
    · nofun

/-- The window that is set by default lies far below the end of the address space. -/
theorem newList_default_ne_overflow : newList {} mem ≠ .error .overflow := by
  have hbase : ({} : Settings).hobBase? = some 0xd00000 := by decide +kernel
  have htop : ({} : Settings).hobTop? = some 0x4d00000 := by decide +kernel
  obtain ⟨start, hnew, -⟩ := exists_newList (by decide) hbase htop mem
  rw [hnew]
  nofun

/-- A boot whose console is started comes to its halt unless the attempt overflows. -/
theorem runFromTables_eq_none_iff_of_started (settings : Settings)
    (tables : Except Coreboot.TableError Coreboot.Info) {s : σ} {started : Console × σ}
    (h : startConsole bus settings (tables.toOption.bind (·.serial)) s = some started) :
    runFromTables bus mem settings addressBits tables s = none ↔
      (buildFromTables bus mem settings addressBits tables
        (log bus .info s!"crab-payload {version} starting" started)).outcome =
          .error .overflow := by
  unfold runFromTables
  rw [h]
  dsimp only
  split
  · rename_i hover
    exact ⟨fun _ => hover, fun _ => rfl⟩
  · rename_i e hfailed
    rw [hfailed]
    exact ⟨nofun, nofun⟩
  · rename_i address hbuilt
    rw [hbuilt]
    exact ⟨nofun, nofun⟩

/-- **The logged RAM.** The sum of the RAM sizes is exact if it fits 64 bits. If it does not, a boot
    with its console started does not come to its halt: the attempt to build the list overflows,
    and no list was started. Nothing else in that attempt can overflow. -/
theorem runFromTables_eq_none_iff (info : Coreboot.Info) (s : σ) :
    let total := ramTotal info.memoryMap
    totalRam? info.memoryMap =
        (if total < 2 ^ 64 then some (UInt64.ofNat total) else none) ∧
      (runFromTables bus mem {} addressBits (.ok info) s = none ↔
        startConsole bus {} info.serial s = none ∨ 2 ^ 64 ≤ total) ∧
      ∀ t : Console × σ,
        let built := build bus mem {} addressBits info t
        if total < 2 ^ 64 then built.outcome ≠ .error .overflow
        else built.outcome = .error .overflow ∧ built.list = none := by
  intro total
  have hfits (t : Console × σ) (h : total < 2 ^ 64) :
      (build bus mem {} addressBits info t).outcome ≠ .error .overflow :=
    outcome_build_ne_overflow bus mem addressBits h (newList_default_ne_overflow mem) t
  have hpast (t : Console × σ) (h : ¬ total < 2 ^ 64) :=
    build_of_le bus mem addressBits (Nat.not_lt.mp h) {} t
  refine ⟨totalRam?_eq info.memoryMap, ?_, ?_⟩
  · cases hstart : startConsole bus {} info.serial s with
    | none =>
      have hnone : runFromTables bus mem {} addressBits (.ok info) s = none := by
        unfold runFromTables
        rw [show (Except.ok info : Except Coreboot.TableError _).toOption.bind (·.serial) =
          info.serial from rfl, hstart]
      exact ⟨fun _ => .inl rfl, fun _ => hnone⟩
    | some started =>
      rw [runFromTables_eq_none_iff_of_started bus mem addressBits {} (.ok info) hstart]
      constructor
      · intro hover
        by_contra hnot
        exact hfits _ (by simpa using hnot) hover
      · rintro (hnone | hle)
        · cases hnone
        · exact (hpast _ (Nat.not_lt.mpr hle)).1
  · intro t built
    split
    · rename_i h
      exact hfits t h
    · rename_i h
      exact hpast t h

/-- A memory with a table that reports all but one byte of the address space as RAM, and one byte of
    it again. -/
def overfullMemory : Memory :=
  let table : Bytes := Coreboot.signature ++ Bytes.ofWord32 24 ++ Bytes.zeros 4
    ++ Bytes.ofWord32 48 ++ Bytes.zeros 4 ++ Bytes.ofWord32 1 ++ Bytes.ofWord32 0x01
    ++ Bytes.ofWord32 48 ++ Coreboot.RangeEntry.encode ⟨0, 0xffffffffffffffff, 1⟩
    ++ Coreboot.RangeEntry.encode ⟨0, 1, 1⟩
  .sparse [.ofArray 0x10000 table.toArray]

/-- The table is read without complaint and the console is started, and still the boot does not come
    to its halt. -/
theorem run_overfullMemory :
    let map : List Region := [⟨0, 0xffffffffffffffff, .ram⟩, ⟨0, 1, .ram⟩]
    (Coreboot.Info.read overfullMemory 0x10000).outcome = .ok { memoryMap := map } ∧
      (startConsole floatingBus {} none ()).isSome ∧
      min (ramTotal map) (2 ^ 64 - 1) = 2 ^ 64 - 1 ∧ totalRam? map = none ∧
      run floatingBus overfullMemory {} 39 0x10000 () = none := by
  intro map
  refine ⟨by decide +kernel, by decide +kernel, by decide +kernel, by decide +kernel, ?_⟩
  exact Option.isNone_iff_eq_none.mp (by decide +kernel)

end Boot

end BootHandoff
