/-
  One changed byte in an accepted root pointer. The byte is under a sum that was zero, and the sum is
  still taken: a byte of the first 20 is under their own sum, which comes before the revision is
  looked at, and a byte past the length field is under the sum over all bytes, of which neither
  the revision nor the length has changed. So whichever byte that the length covers is replaced,
  but for those of the length itself, the root pointer is refused as bad
  (`outcome_readChecked_withByte`).
-/
import BootHandoff.Proofs.Acpi.Acceptance
import BootHandoff.Proofs.Memory.SingleBytes

namespace BootHandoff

/-! ## A byte string with another byte -/

namespace Bytes

variable {bs : Bytes} {i : Nat} {value : UInt8}

theorem byte_take {n : Nat} (h : i < n) : byte (bs.take n) i = byte bs i := by
  rw [byte, byte, List.getD_eq_getElem?_getD, List.getD_eq_getElem?_getD,
    List.getElem?_take_of_lt h]

/-- The sum loses the old byte and gains the new one. -/
theorem sum_map_set (h : i < bs.length) (value : UInt8) :
    ((bs.set i value).map UInt8.toNat).sum + (bs.byte i).toNat =
      (bs.map UInt8.toNat).sum + value.toNat := by
  induction bs generalizing i with
  | nil => cases h
  | cons b bs ih =>
    cases i with
    | zero =>
      rw [List.set_cons_zero, List.map_cons, List.map_cons, List.sum_cons, List.sum_cons,
        byte_cons_zero]
      omega
    | succ i =>
      have hrest := ih (Nat.lt_of_succ_lt_succ h)
      rw [List.set_cons_succ, List.map_cons, List.map_cons, List.sum_cons, List.sum_cons,
        byte_cons_succ]
      omega

/-- Two bytes are less than 256 apart, so that the sum cannot be zero with both. -/
theorem not_sumsToZero_set (hsum : bs.SumsToZero) (h : i < bs.length) (hne : value ≠ bs.byte i) :
    ¬ SumsToZero (bs.set i value) := by
  intro hzero
  have hset := sum_map_set h value
  have hold := (bs.byte i).toNat_lt
  have hnew := value.toNat_lt
  unfold SumsToZero at hsum hzero
  apply hne
  apply UInt8.toNat_inj.mp
  omega

/-- A field that ends before the byte is the same. -/
theorem word32_set {k : Nat} (h : k + 4 ≤ i) (value : UInt8) :
    word32 (bs.set i value) k = word32 bs k := by
  rw [word32, word32, ← slice_take h, List.take_set_of_le (Nat.le_refl i), slice_take h]

end Bytes

namespace Acpi.Rsdp

variable {mem : Memory} {address : Address} {head bs all : Bytes} {i : Nat} {value : UInt8}

/-! ## A root pointer with another byte -/

/-- A byte of the first 20: their sum is not zero any more. -/
theorem outcome_withByte_of_headAt (h : HeadAt mem address head) (hi : i < 20)
    (hne : value ≠ head.byte i) :
    (readChecked (mem.withByte (address.toNat + i) value) address).outcome =
      .error (.cause .invalidRsdp) := by
  have hlength : head.length = 20 := Memory.length_of_read h.read
  apply outcome_of_damaged (Memory.read_withByte h.read i value)
  intro hhead
  exact Bytes.not_sumsToZero_set h.sum (by omega) hne hhead.sum

/-- A byte past the length field leaves what the head and the length say as it was. -/
theorem ExtendedAt.withByte (h : ExtendedAt mem address head bs) (hi : 24 ≤ i) (value : UInt8) :
    ExtendedAt (mem.withByte (address.toNat + i) value) address head (bs.set i value) := by
  have hlength : head.length = 20 := Memory.length_of_read h.read
  have hread := Memory.read_withByte h.read i value
  rw [List.set_eq_of_length_le (by omega)] at hread
  have hmin := h.length_min
  have hmax := h.length_max
  rw [← Bytes.word32_set hi value] at hmin hmax
  exact ⟨⟨hread, h.signature, h.sum⟩, h.revision, Memory.read_withByte h.read_extended i value,
    hmin, hmax⟩

/-- Such a byte below the length: the sum over all bytes is not zero any more. -/
theorem outcome_withByte_of_extendedAt (h : ExtendedAt mem address head bs)
    (hall : mem.read address (bs.word32 20).toNat = .ok all) (hsum : all.SumsToZero)
    (hi : 24 ≤ i) (hlt : i < (bs.word32 20).toNat) (hne : value ≠ all.byte i) :
    (readChecked (mem.withByte (address.toNat + i) value) address).outcome =
      .error (.cause .invalidRsdp) := by
  have hlength := Memory.length_of_read hall
  have hread := Memory.read_withByte hall i value
  rw [← Bytes.word32_set hi value] at hread
  apply outcome_of_wrong_sum (h.withByte hi value) hread
  exact Bytes.not_sumsToZero_set hsum (by omega) hne

/-- **Single changed bytes.** An accepted root pointer is not accepted any more when one of the bytes
    that its length covers is replaced by another, be it the one that tells the revision. Only the
    length field of an extended root pointer is left out. -/
theorem outcome_readChecked_withByte (hc : mem.Coherent) {rsdp : Rsdp}
    (h : (readChecked mem address).outcome = .ok rsdp) :
    ∃ all, mem.read address rsdp.length.toNat = .ok all ∧
      ∀ i < rsdp.length.toNat, (rsdp.revision < 2 ∨ i < 20 ∨ 24 ≤ i) →
        ∀ value, value ≠ all.byte i →
          (readChecked (mem.withByte (address.toNat + i) value) address).outcome =
            .error (.cause .invalidRsdp) := by
  cases accepted_of_outcome hc h with
  | @old head hhead hrevision =>
    refine ⟨head, hhead.read, ?_⟩
    intro i hi _ value hne
    exact outcome_withByte_of_headAt hhead hi hne
  | @extended head bs all hextended hall hsum =>
    refine ⟨all, hall, ?_⟩
    intro i hi hfield value hne
    by_cases hlt : i < 20
    · have htake : all.take 20 = head := take_of_read hc (by have := hextended.length_min; omega)
        hextended.read hall
      apply outcome_withByte_of_headAt hextended.toHeadAt hlt
      rwa [← htake, Bytes.byte_take hlt]
    · have hrevision : ¬ head.byte 15 < 2 := UInt8.not_lt.mpr hextended.revision
      have hpast : 24 ≤ i := by
        rcases hfield with hold | hlow | hpast
        · exact absurd hold hrevision
        · exact absurd hlow hlt
        · exact hpast
      exact outcome_withByte_of_extendedAt hextended hall hsum hpast hi hne

/-- A root pointer of revision 2 with four bytes behind its fields. -/
def longRootPointer : Bytes :=
  rootPointerHead 0xcf 2 ++ Bytes.ofWord32 40 ++ Bytes.ofWord64 0x2000 ++ [0xb8] ++ Bytes.zeros 7

/-- It is refused with another last byte, and with a revision that would leave most of it unread.
    A root pointer of revision 1 is refused with a revision that would have more of it read. -/
theorem outcome_readChecked_withByte_revision :
    let long := Memory.sparse [.ofArray 0xf0000 longRootPointer.toArray]
    let short := headMemory 0xd0 1
    long.Coherent ∧ short.Coherent ∧
      (readChecked long 0xf0000).outcome = .ok ⟨0xf0000, 2, 0x1000, 0x2000, 40⟩ ∧
      (readChecked (long.withByte 0xf0027 1) 0xf0000).outcome = .error (.cause .invalidRsdp) ∧
      (readChecked (long.withByte 0xf000f 1) 0xf0000).outcome = .error (.cause .invalidRsdp) ∧
      (readChecked short 0xf0000).outcome = .ok ⟨0xf0000, 1, 0x1000, 0, 20⟩ ∧
      (readChecked (short.withByte 0xf000f 2) 0xf0000).outcome = .error (.cause .invalidRsdp) := by
  intro long short
  have hcLong : long.Coherent := Memory.coherent_sparse (by decide +kernel)
  have hcShort : short.Coherent := Memory.coherent_sparse (by decide +kernel)
  have hlong : (readChecked long 0xf0000).outcome = .ok ⟨0xf0000, 2, 0x1000, 0x2000, 40⟩ := rfl
  have hshort : (readChecked short 0xf0000).outcome = .ok ⟨0xf0000, 1, 0x1000, 0, 20⟩ := rfl
  obtain ⟨all, hall, hrefused⟩ := outcome_readChecked_withByte hcLong hlong
  obtain rfl : longRootPointer = all := Except.ok.inj hall
  obtain ⟨head, hhead, hrefused'⟩ := outcome_readChecked_withByte hcShort hshort
  obtain rfl : rootPointerHead 0xd0 1 = head := Except.ok.inj hhead
  refine ⟨hcLong, hcShort, hlong, ?_, ?_, hshort, ?_⟩
  · exact hrefused 39 (by decide) (by decide) 1 (by decide +kernel)
  · exact hrefused 15 (by decide) (by decide) 1 (by decide +kernel)
  · exact hrefused' 15 (by decide) (by decide) 2 (by decide +kernel)

end Acpi.Rsdp

end BootHandoff
