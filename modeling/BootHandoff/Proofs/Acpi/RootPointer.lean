/-
  Root pointers that pass the checks. `RootPointerAt` says what an intact root pointer is, of the
  bytes in memory alone. In a coherent memory the reader lets nothing else pass, whatever revision
  the bytes claim (`rootPointerAt_of_readChecked`): its last read covers the bytes of the first
  one, so that both checksums are of the same bytes. What it refuses it refuses as a bad root
  pointer or as bytes that cannot be read (`failsBy_readChecked`).
-/
import BootHandoff.Acpi.Rsdp
import Mathlib.Algebra.Ring.Nat

namespace BootHandoff

/-! ## Sums of bytes -/

namespace Bytes

/-- The sum of the bytes is zero modulo 256. -/
def SumsToZero (bs : Bytes) : Prop := (bs.map UInt8.toNat).sum % 256 = 0

theorem toNat_foldl_add (bs : Bytes) (start : UInt8) :
    (bs.foldl (· + ·) start).toNat = (start.toNat + (bs.map UInt8.toNat).sum) % 256 := by
  induction bs generalizing start with
  | nil => exact (Nat.mod_eq_of_lt start.toNat_lt).symm
  | cons b bs ih =>
    rw [List.foldl_cons, ih, UInt8.toNat_add, List.map_cons, List.sum_cons]
    omega

theorem checksum_eq_zero_iff {bs : Bytes} : checksum bs = 0 ↔ SumsToZero bs := by
  rw [← UInt8.toNat_inj, checksum, toNat_foldl_add, SumsToZero, UInt8.toNat_zero, Nat.zero_add]

end Bytes

/-! ## Causes of a failure -/

namespace Logged

variable {ε δ α β : Type} {P : ε → Prop}

/-- Where a run fails, it does so with one of certain causes. -/
def FailsBy (P : ε → Prop) (x : Logged ε α) : Prop :=
  ∀ fault, x.outcome = .error fault → ∃ e, fault = .cause e ∧ P e

theorem failsBy_of_ok {x : Logged ε α} {a : α} (h : x.outcome = .ok a) : FailsBy P x := by
  intro fault hfault
  rw [h] at hfault
  cases hfault

theorem failsBy_fail {e : ε} (h : P e) : FailsBy P (fail e : Logged ε α) := by
  intro fault hfault
  cases hfault
  exact ⟨e, rfl, h⟩

theorem failsBy_ofExcept {f : δ → ε} (h : ∀ d, P (f d)) (x : Except δ α) :
    FailsBy P (ofExcept f x) := by
  intro fault hfault
  cases x with
  | ok a => cases hfault
  | error d =>
    cases hfault
    exact ⟨f d, rfl, h d⟩

theorem FailsBy.bind {x : Logged ε α} {f : α → Logged ε β} (hx : FailsBy P x)
    (hf : ∀ a, FailsBy P (f a)) : FailsBy P (x >>= f) := by
  intro fault hfault
  rw [outcome_bind] at hfault
  cases hout : x.outcome with
  | ok a =>
    rw [hout] at hfault
    exact hf a fault hfault
  | error cause =>
    rw [hout] at hfault
    cases hfault
    exact hx _ hout

end Logged

/-! ## Intact root pointers -/

namespace Acpi

open Logged (FailsBy)

variable {mem : Memory} {address : Address}

/-- The bytes of an intact root pointer lie at an address: of the size of the ACPI 1.0 part or of a
    later one, with the signature, and with sums that are zero over all of them and over the
    first 20. -/
structure RootPointerAt (mem : Memory) (address : Address) (size : Nat) : Prop where
  size_spec : size = 20 ∨ 36 ≤ size ∧ size ≤ 64
  bytes : ∃ bs, mem.read address size = .ok bs ∧ bs.take 8 = Bytes.ofAscii "RSD PTR " ∧
    bs.SumsToZero ∧ Bytes.SumsToZero (bs.take 20)

theorem outcome_readBytes_eq_ok_iff {n : Nat} {bs : Bytes} :
    (readBytes mem address n).outcome = .ok bs ↔ mem.read address n = .ok bs :=
  Logged.outcome_ofExcept_eq_ok_iff

/-- Where two reads of a coherent memory start at one address, the longer starts with the
    shorter. -/
theorem take_of_read (hc : mem.Coherent) {m n : Nat} {as bs : Bytes} (hle : m ≤ n)
    (ha : mem.read address m = .ok as) (hb : mem.read address n = .ok bs) : bs.take m = as := by
  have hlengthA := Memory.length_of_read ha
  have hlengthB := Memory.length_of_read hb
  apply List.ext_getElem?
  intro i
  by_cases hi : i < m
  · rw [List.getElem?_take_of_lt hi]
    exact hc (Memory.read_eq_ok_iff.mp hb).2.2 (Memory.read_eq_ok_iff.mp ha).2.2
      (Nat.lt_of_lt_of_le hi hle) hi rfl
  · rw [List.getElem?_eq_none (by rw [List.length_take]; omega),
      List.getElem?_eq_none (by omega)]

namespace Rsdp

/-- The fields of a root pointer say where it was read, and its length fits its revision. -/
theorem fields_of_read {rsdp : Rsdp} (h : (read mem address).outcome = .ok rsdp) :
    rsdp.address = address ∧ (rsdp.revision < extendedRevision → rsdp.length = 20) := by
  obtain ⟨old, -, h⟩ := Logged.outcome_bind_eq_ok_iff.mp h
  dsimp only at h
  split at h
  · rename_i hrevision
    obtain ⟨bs, -, h⟩ := Logged.outcome_bind_eq_ok_iff.mp h
    cases h
    refine ⟨rfl, ?_⟩
    intro hlt
    exact absurd hrevision (UInt8.not_le.mpr hlt)
  · cases h
    exact ⟨rfl, fun _ => rfl⟩

/-- What passes the check of the extended root pointer. -/
theorem bytes_of_checkExtended {rsdp : Rsdp}
    (h : (rsdp.checkExtended mem).outcome = .ok ()) :
    36 ≤ rsdp.length.toNat ∧ rsdp.length.toNat ≤ 64 ∧
      ∃ bs, mem.read rsdp.address rsdp.length.toNat = .ok bs ∧ bs.SumsToZero := by
  unfold checkExtended at h
  dsimp only at h
  split at h
  · rename_i hlength
    obtain ⟨bs, hread, h⟩ := Logged.outcome_bind_eq_ok_iff.mp h
    rw [outcome_readBytes_eq_ok_iff] at hread
    split at h
    · rename_i hsum
      exact ⟨hlength.1, hlength.2, bs, hread, Bytes.checksum_eq_zero_iff.mp hsum⟩
    · cases h
  · cases h

/-- **No bad root pointer passes.** What the reader gives lies where it was looked for, and all the
    bytes that its length covers are those of an intact root pointer. -/
theorem rootPointerAt_of_readChecked (hc : mem.Coherent) {rsdp : Rsdp}
    (h : (readChecked mem address).outcome = .ok rsdp) :
    rsdp.address = address ∧ RootPointerAt mem address rsdp.length.toNat := by
  obtain ⟨head, hhead, h⟩ := Logged.outcome_bind_eq_ok_iff.mp h
  rw [outcome_readBytes_eq_ok_iff] at hhead
  dsimp only at h
  split at h
  · cases h
  rename_i hsignature
  replace hsignature : head.take 8 = Bytes.ofAscii "RSD PTR " := Decidable.not_not.mp hsignature
  split at h
  · cases h
  rename_i hsum
  replace hsum : head.SumsToZero := Bytes.checksum_eq_zero_iff.mp (Decidable.not_not.mp hsum)
  obtain ⟨found, hread, h⟩ := Logged.outcome_bind_eq_ok_iff.mp h
  obtain ⟨haddress, hold⟩ := fields_of_read hread
  split at h
  · -- The extended root pointer starts with the bytes that were checked first.
    obtain ⟨passed, hcheck, h⟩ := Logged.outcome_bind_eq_ok_iff.mp h
    rw [Logged.outcome_note_bind] at h
    cases h
    obtain ⟨hmin, hmax, bs, hbytes, hsumAll⟩ := bytes_of_checkExtended hcheck
    rw [haddress] at hbytes
    have htake : bs.take 20 = head := take_of_read hc (by omega) hhead hbytes
    refine ⟨haddress, .inr ⟨hmin, hmax⟩, bs, hbytes, ?_, hsumAll, ?_⟩
    · rw [← hsignature, ← htake, List.take_take]
      rfl
    · rwa [htake]
  · rename_i hrevision
    cases h
    have hlength : rsdp.length = 20 := hold (UInt8.not_le.mp hrevision)
    have htake : head.take 20 = head :=
      List.take_of_length_le (Nat.le_of_eq (Memory.length_of_read hhead))
    rw [hlength]
    refine ⟨haddress, .inl rfl, head, hhead, hsignature, hsum, ?_⟩
    rwa [htake]

/-! ## What is refused -/

/-- The causes for which a root pointer is refused. -/
def Refusal (e : AcpiError) : Prop := e = .invalidRsdp ∨ ∃ m, e = .badAddress m

theorem failsBy_readBytes (a : Address) (n : Nat) : FailsBy Refusal (readBytes mem a n) := by
  apply Logged.failsBy_ofExcept
  intro m
  exact .inr ⟨m, rfl⟩

theorem failsBy_refuse {α : Type} (why : String) : FailsBy Refusal (refuse why : Survey α) :=
  (Logged.failsBy_of_ok rfl).bind fun _ => Logged.failsBy_fail (.inl rfl)

theorem failsBy_read : FailsBy Refusal (read mem address) := by
  apply (failsBy_readBytes address oldSize).bind
  intro old
  dsimp only
  split
  · exact (failsBy_readBytes address extendedSize).bind fun _ => Logged.failsBy_of_ok rfl
  · exact Logged.failsBy_of_ok rfl

theorem failsBy_checkExtended (rsdp : Rsdp) : FailsBy Refusal (rsdp.checkExtended mem) := by
  unfold checkExtended
  dsimp only
  split
  · apply (failsBy_readBytes rsdp.address rsdp.length.toNat).bind
    intro bs
    split
    · exact Logged.failsBy_of_ok rfl
    · exact failsBy_refuse _
  · exact failsBy_refuse _

/-- What the reader refuses is a bad root pointer, or cannot be read. -/
theorem failsBy_readChecked : FailsBy Refusal (readChecked mem address) := by
  apply (failsBy_readBytes address oldSize).bind
  intro head
  split
  · exact failsBy_refuse _
  split
  · exact failsBy_refuse _
  apply failsBy_read.bind
  intro rsdp
  split
  · exact (failsBy_checkExtended rsdp).bind fun _ => Logged.failsBy_of_ok rfl
  · exact Logged.failsBy_of_ok rfl

end Rsdp

end Acpi

end BootHandoff
