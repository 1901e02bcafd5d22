/-
  The limit of the memory map. Wherever its ranges come from, in however many records and tables,
  the reader keeps no more than 128 of them (`length_memoryMap_of_read`): a range is only added to
  a map that is not full, and no other record touches the map.
-/
import BootHandoff.Proofs.Coreboot.Sources

namespace BootHandoff.Coreboot

open Logged

variable {mem : Memory}

/-- A step of the reader never takes the map past its limit. -/
def KeepsLimit (step : Info → Reading Info) : Prop :=
  ∀ ⦃info known⦄, info.memoryMap.length ≤ maxMemoryRegions → (step info).outcome = .ok known →
    known.memoryMap.length ≤ maxMemoryRegions

theorem keepsLimit_addRanges (data : Address) (count index : Nat) :
    KeepsLimit (addRanges mem data count index) := by
  intro info known hinfo h
  induction count generalizing index info with
  | zero =>
    cases h
    exact hinfo
  | succ count ih =>
    obtain ⟨place, -, h⟩ := outcome_bind_eq_ok_iff.1 h
    obtain ⟨bs, -, h⟩ := outcome_bind_eq_ok_iff.1 h
    dsimp only at h
    rw [outcome_note_bind] at h
    split at h
    · rename_i hroom
      have hadded : (info.memoryMap ++ [regionOfBytes bs]).length ≤ maxMemoryRegions := by
        rw [List.length_append, List.length_singleton]
        exact hroom
      exact ih (index + 1) hadded h
    · rw [outcome_note_bind] at h
      cases h
      exact hinfo

/-- Only memory records and forward records have a say in the map. -/
theorem keepsLimit_addRecord {onForward : Address → Info → Reading Info}
    (hforward : ∀ target, KeepsLimit (onForward target)) (address : Address) (tag : UInt32)
    (size : Nat) : KeepsLimit (addRecord mem onForward address tag size) := by
  intro info known hinfo h
  by_cases hmemory : RecordKind.ofTag tag = .memory
  · rw [addRecord, hmemory] at h
    obtain ⟨data, -, h⟩ := outcome_bind_eq_ok_iff.1 h
    rw [outcome_note_bind] at h
    exact keepsLimit_addRanges data _ 0 hinfo h
  by_cases hlink : RecordKind.ofTag tag = .forward
  · rw [addRecord, hlink] at h
    obtain ⟨bs, -, h⟩ := outcome_bind_eq_ok_iff.1 h
    exact hforward _ hinfo h
  rw [memoryMap_addRecord hmemory hlink h]
  exact hinfo

theorem keepsLimit_addTable {onForward : Address → Info → Reading Info}
    (hforward : ∀ target, KeepsLimit (onForward target)) (address : Address) :
    KeepsLimit (addTable mem onForward address) := by
  intro info known hinfo h
  obtain ⟨bs, -, h⟩ := outcome_bind_eq_ok_iff.1 h
  dsimp only at h
  rw [outcome_note_bind] at h
  obtain ⟨start, -, h⟩ := outcome_bind_eq_ok_iff.1 h
  obtain ⟨-, hknown⟩ := exists_of_outcome_addRecords
    (P := fun _ info => info.memoryMap.length ≤ maxMemoryRegions)
    (fun _ _ hrecord hbefore => keepsLimit_addRecord hforward _ _ _ hbefore hrecord)
    .first hinfo h
  exact hknown

theorem keepsLimit_ignoreForward (target : Address) : KeepsLimit (ignoreForward target) := by
  intro info known hinfo h
  cases h
  exact hinfo

theorem keepsLimit_followForward (target : Address) : KeepsLimit (followForward mem target) := by
  intro info known hinfo h
  rw [followForward, outcome_note_bind] at h
  obtain ⟨found, -, h⟩ := outcome_bind_eq_ok_iff.1 h
  cases found with
  | none =>
    cases h
    exact hinfo
  | some header => exact keepsLimit_addTable keepsLimit_ignoreForward header hinfo h

/-- Whatever the reader gives has a map of at most 128 entries. -/
theorem length_memoryMap_of_read {pointer : Address} {info : Info}
    (h : (Info.read mem pointer).outcome = .ok info) : info.memoryMap.length ≤ 128 := by
  obtain ⟨found, -, h⟩ := outcome_bind_eq_ok_iff.1 h
  cases found with
  | none => cases h
  | some header =>
    obtain ⟨known, hknown, h⟩ := outcome_bind_eq_ok_iff.1 h
    have hlimit := keepsLimit_addTable keepsLimit_followForward header (Nat.zero_le _) hknown
    split at h
    · cases h
    · cases h
      exact hlimit

end BootHandoff.Coreboot
