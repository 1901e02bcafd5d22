/-
  Which root pointers the reader accepts. `Accepted` says it of the bytes in memory alone: 20 bytes
  with the signature and a sum of zero modulo 256, and from revision 2 on a length from 36 to 64
  and a sum of zero over as many bytes. `Consulted` are the ranges that the reader comes to, each
  only if those before it are in order. In a coherent memory it gives exactly what is accepted,
  fails with the error of a consulted range that cannot be read, and refuses whatever is left
  (`outcome_readChecked`).
-/
import BootHandoff.Proofs.Acpi.RootPointer
import BootHandoff.Proofs.Memory.Holding

namespace BootHandoff

namespace Acpi

variable {mem : Memory} {address : Address} {head bs all : Bytes} {e : MemoryError}

namespace Rsdp

/-! ## What is accepted -/

/-- The first 20 bytes at an address are in order. -/
structure HeadAt (mem : Memory) (address : Address) (head : Bytes) : Prop where
  read : mem.read address 20 = .ok head
  signature : head.take 8 = Bytes.ofAscii "RSD PTR "
  sum : head.SumsToZero

/-- They claim a later revision, and the 36 bytes at the address a length that is believed. -/
structure ExtendedAt (mem : Memory) (address : Address) (head bs : Bytes) : Prop
    extends HeadAt mem address head where
  revision : 2 ≤ head.byte 15
  read_extended : mem.read address 36 = .ok bs
  length_min : 36 ≤ (bs.word32 20).toNat
  length_max : (bs.word32 20).toNat ≤ 64

/-- What is accepted at an address. -/
inductive Accepted (mem : Memory) (address : Address) : Rsdp → Prop
  /-- For a revision below 2 the bytes past the first 20 do not matter. -/
  | old {head : Bytes} (hhead : HeadAt mem address head) (hrevision : head.byte 15 < 2) :
      Accepted mem address ⟨address, head.byte 15, head.word32 16, 0, 20⟩
  | extended {head bs all : Bytes} (hextended : ExtendedAt mem address head bs)
      (hall : mem.read address (bs.word32 20).toNat = .ok all) (hsum : all.SumsToZero) :
      Accepted mem address ⟨address, head.byte 15, head.word32 16, bs.word64 24, bs.word32 20⟩

/-- How many bytes from the address on the reader looks at: the first 20 in any case, more of them
    where the first ones call for it. -/
inductive Consulted (mem : Memory) (address : Address) : Nat → Prop
  | head : Consulted mem address 20
  | extended {head : Bytes} (hhead : HeadAt mem address head) (hrevision : 2 ≤ head.byte 15) :
      Consulted mem address 36
  | all {head bs : Bytes} (hextended : ExtendedAt mem address head bs) :
      Consulted mem address (bs.word32 20).toNat

/-! ## The reader step by step -/

theorem outcome_read_of_old (hread : mem.read address 20 = .ok head)
    (hrevision : head.byte 15 < 2) :
    (read mem address).outcome = .ok ⟨address, head.byte 15, head.word32 16, 0, 20⟩ := by
  have hold : mem.read address oldSize = .ok head := hread
  have hnot : ¬ extendedRevision ≤ head.byte 15 := UInt8.not_le.mpr hrevision
  rw [read, outcome_readBytes_bind_of_ok hold]
  dsimp only
  rw [if_neg hnot]
  rfl

theorem outcome_read_bind_of_extended {α : Type} (hread : mem.read address 20 = .ok head)
    (hrevision : 2 ≤ head.byte 15) (f : Rsdp → Survey α) :
    (read mem address >>= f).outcome = (readBytes mem address 36 >>= fun bs =>
      f (ofExtendedBytes address (head.byte 15) bs)).outcome := by
  have hold : mem.read address oldSize = .ok head := hread
  have hnew : extendedRevision ≤ head.byte 15 := hrevision
  rw [read, bind_assoc, outcome_readBytes_bind_of_ok hold]
  dsimp only
  rw [if_pos hnew, bind_assoc]
  rfl

theorem outcome_of_damaged (hread : mem.read address 20 = .ok head)
    (hdamaged : ¬ HeadAt mem address head) :
    (readChecked mem address).outcome = .error (.cause .invalidRsdp) := by
  have hold : mem.read address oldSize = .ok head := hread
  rw [readChecked, outcome_readBytes_bind_of_ok hold]
  split
  · rfl
  rename_i hsignature
  split
  · rfl
  rename_i hsum
  exact absurd ⟨hread, not_not.mp hsignature,
    Bytes.checksum_eq_zero_iff.mp (not_not.mp hsum)⟩ hdamaged

/-- Past a head that is in order the fields are read, and checked from revision 2 on. -/
theorem outcome_of_headAt (hhead : HeadAt mem address head) :
    (readChecked mem address).outcome = (read mem address >>= fun rsdp =>
      if extendedRevision ≤ rsdp.revision then checkExtended mem rsdp >>= fun _ => pure rsdp
      else pure rsdp).outcome := by
  have hold : mem.read address oldSize = .ok head := hhead.read
  have hsignature : head.take 8 = Signature.rsdp := hhead.signature
  have hsum : head.checksum = 0 := Bytes.checksum_eq_zero_iff.mpr hhead.sum
  rw [readChecked, outcome_readBytes_bind_of_ok hold, if_neg (not_not.mpr hsignature),
    if_neg (not_not.mpr hsum), Logged.outcome_bind, Logged.outcome_bind]
  congr 1
  funext rsdp
  dsimp only
  -- The record of a root pointer that passed does not change how the run ends.
  split
  · simp only [Logged.outcome_bind]
    rfl
  · rfl

theorem outcome_of_old (hhead : HeadAt mem address head) (hrevision : head.byte 15 < 2) :
    (readChecked mem address).outcome =
      .ok ⟨address, head.byte 15, head.word32 16, 0, 20⟩ := by
  have hnot : ¬ extendedRevision ≤ head.byte 15 := UInt8.not_le.mpr hrevision
  rw [outcome_of_headAt hhead,
    Logged.outcome_bind_of_ok (outcome_read_of_old hhead.read hrevision)]
  dsimp only
  rw [if_neg hnot]
  rfl

theorem outcome_of_extended (hhead : HeadAt mem address head) (hrevision : 2 ≤ head.byte 15) :
    (readChecked mem address).outcome = (readBytes mem address 36 >>= fun bs =>
      checkExtended mem (ofExtendedBytes address (head.byte 15) bs) >>= fun _ =>
        pure (ofExtendedBytes address (head.byte 15) bs)).outcome := by
  rw [outcome_of_headAt hhead, outcome_read_bind_of_extended hhead.read hrevision]
  refine congrArg Logged.outcome (Logged.bind_congr_of_ok fun bs _ => ?_)
  exact if_pos hrevision

theorem outcome_of_bad_length (hhead : HeadAt mem address head) (hrevision : 2 ≤ head.byte 15)
    (hread : mem.read address 36 = .ok bs)
    (hlength : ¬ (36 ≤ (bs.word32 20).toNat ∧ (bs.word32 20).toNat ≤ 64)) :
    (readChecked mem address).outcome = .error (.cause .invalidRsdp) := by
  have hnot : ¬ (extendedSize ≤ (ofExtendedBytes address (head.byte 15) bs).length.toNat ∧
      (ofExtendedBytes address (head.byte 15) bs).length.toNat ≤ maxLength) := hlength
  rw [outcome_of_extended hhead hrevision, outcome_readBytes_bind_of_ok hread]
  unfold checkExtended
  dsimp only
  rw [if_neg hnot]
  rfl

/-- Past a believed length it is the sum over as many bytes that counts. -/
theorem outcome_of_extendedAt (h : ExtendedAt mem address head bs) :
    (readChecked mem address).outcome =
      (readBytes mem address (bs.word32 20).toNat >>= fun all =>
        if all.checksum = 0 then pure (ofExtendedBytes address (head.byte 15) bs)
        else Logged.fail .invalidRsdp).outcome := by
  have hlength : extendedSize ≤ (ofExtendedBytes address (head.byte 15) bs).length.toNat ∧
      (ofExtendedBytes address (head.byte 15) bs).length.toNat ≤ maxLength :=
    ⟨h.length_min, h.length_max⟩
  rw [outcome_of_extended h.toHeadAt h.revision, outcome_readBytes_bind_of_ok h.read_extended]
  unfold checkExtended
  dsimp only
  rw [if_pos hlength, bind_assoc, Logged.outcome_bind, Logged.outcome_bind]
  congr 1
  funext all
  split <;> rfl

theorem outcome_of_sum (h : ExtendedAt mem address head bs)
    (hall : mem.read address (bs.word32 20).toNat = .ok all) (hsum : all.SumsToZero) :
    (readChecked mem address).outcome = .ok (ofExtendedBytes address (head.byte 15) bs) := by
  rw [outcome_of_extendedAt h, outcome_readBytes_bind_of_ok hall,
    if_pos (Bytes.checksum_eq_zero_iff.mpr hsum)]
  rfl

theorem outcome_of_wrong_sum (h : ExtendedAt mem address head bs)
    (hall : mem.read address (bs.word32 20).toNat = .ok all) (hsum : ¬ all.SumsToZero) :
    (readChecked mem address).outcome = .error (.cause .invalidRsdp) := by
  rw [outcome_of_extendedAt h, outcome_readBytes_bind_of_ok hall,
    if_neg fun hzero => hsum (Bytes.checksum_eq_zero_iff.mp hzero)]
  rfl

/-! ## The reader as a whole -/

/-- The fields of an extended root pointer that lie in its head are those of the head. -/
theorem ofExtendedBytes_eq (hc : mem.Coherent) (h : ExtendedAt mem address head bs) :
    ofExtendedBytes address (head.byte 15) bs =
      ⟨address, head.byte 15, head.word32 16, bs.word64 24, bs.word32 20⟩ := by
  have htake : bs.take 20 = head := take_of_read hc (by decide) h.read h.read_extended
  have hrsdt : bs.word32 16 = head.word32 16 := by
    rw [← htake, Bytes.word32, Bytes.word32, Bytes.slice_take (by decide)]
  rw [ofExtendedBytes, hrsdt]

theorem Accepted.outcome_eq (hc : mem.Coherent) {rsdp : Rsdp} (h : Accepted mem address rsdp) :
    (readChecked mem address).outcome = .ok rsdp := by
  cases h with
  | old hhead hrevision => exact outcome_of_old hhead hrevision
  | extended hextended hall hsum =>
    rw [outcome_of_sum hextended hall hsum, ofExtendedBytes_eq hc hextended]

theorem Consulted.outcome_eq {n : Nat} (h : Consulted mem address n)
    (hread : mem.read address n = .error e) :
    (readChecked mem address).outcome = .error (.cause (.badAddress e)) := by
  cases h with
  | head => exact outcome_readBytes_bind_of_error hread _
  | extended hhead hrevision =>
    rw [outcome_of_extended hhead hrevision, outcome_readBytes_bind_of_error hread]
  | all hextended => rw [outcome_of_extendedAt hextended, outcome_readBytes_bind_of_error hread]

/-- Each run comes to one of three ends. -/
theorem exists_end (mem : Memory) (address : Address) :
    (∃ rsdp, Accepted mem address rsdp) ∨
      (∃ n e, Consulted mem address n ∧ mem.read address n = .error e) ∨
      (readChecked mem address).outcome = .error (.cause .invalidRsdp) := by
  cases hread : mem.read address 20 with
  | error e => exact .inr (.inl ⟨20, e, .head, hread⟩)
  | ok head =>
  by_cases hhead : HeadAt mem address head
  case neg => exact .inr (.inr (outcome_of_damaged hread hhead))
  by_cases hrevision : head.byte 15 < 2
  case pos => exact .inl ⟨_, .old hhead hrevision⟩
  replace hrevision : 2 ≤ head.byte 15 := UInt8.not_lt.mp hrevision
  cases hbytes : mem.read address 36 with
  | error e => exact .inr (.inl ⟨36, e, .extended hhead hrevision, hbytes⟩)
  | ok bs =>
  by_cases hlength : 36 ≤ (bs.word32 20).toNat ∧ (bs.word32 20).toNat ≤ 64
  case neg => exact .inr (.inr (outcome_of_bad_length hhead hrevision hbytes hlength))
  have hextended : ExtendedAt mem address head bs :=
    ⟨hhead, hrevision, hbytes, hlength.1, hlength.2⟩
  cases hall : mem.read address (bs.word32 20).toNat with
  | error e => exact .inr (.inl ⟨_, e, .all hextended, hall⟩)
  | ok all =>
  by_cases hsum : all.SumsToZero
  · exact .inl ⟨_, .extended hextended hall hsum⟩
  · exact .inr (.inr (outcome_of_wrong_sum hextended hall hsum))

theorem accepted_of_outcome (hc : mem.Coherent) {rsdp : Rsdp}
    (h : (readChecked mem address).outcome = .ok rsdp) : Accepted mem address rsdp := by
  rcases exists_end mem address with ⟨found, haccepted⟩ | ⟨n, e, hconsulted, hread⟩ | hinvalid
  · cases (haccepted.outcome_eq hc).symm.trans h
    exact haccepted
  · cases (hconsulted.outcome_eq hread).symm.trans h
  · cases hinvalid.symm.trans h

theorem Accepted.outcome_unchecked (hc : mem.Coherent) {rsdp : Rsdp}
    (h : Accepted mem address rsdp) : (read mem address).outcome = .ok rsdp := by
  cases h with
  | old hhead hrevision => exact outcome_read_of_old hhead.read hrevision
  | extended hextended hall hsum =>
    rw [← bind_pure (read mem address),
      outcome_read_bind_of_extended hextended.read hextended.revision,
      outcome_readBytes_bind_of_ok hextended.read_extended, ofExtendedBytes_eq hc hextended]
    rfl

/-- **The check of the root pointer.** The reader gives a root pointer exactly where it is accepted,
    with the fields that reading it without a check gives. It fails as unreadable exactly where a
    range that it comes to is, with the error of that range, and it calls the root pointer bad where
    all those ranges can be read and still nothing is accepted. -/
theorem outcome_readChecked (hc : mem.Coherent) (address : Address) :
    let outcome := (readChecked mem address).outcome
    (∀ rsdp, outcome = .ok rsdp ↔ Accepted mem address rsdp) ∧
      (∀ rsdp, outcome = .ok rsdp → (read mem address).outcome = .ok rsdp) ∧
      (∀ e, outcome = .error (.cause (.badAddress e)) ↔
        ∃ n, Consulted mem address n ∧ mem.read address n = .error e) ∧
      (outcome = .error (.cause .invalidRsdp) ↔
        (∀ n, Consulted mem address n → ∃ bs, mem.read address n = .ok bs) ∧
          ∀ rsdp, ¬ Accepted mem address rsdp) := by
  intro outcome
  refine ⟨fun rsdp => ⟨accepted_of_outcome hc, fun h => h.outcome_eq hc⟩,
    fun rsdp h => (accepted_of_outcome hc h).outcome_unchecked hc, fun e => ?_, ?_⟩
  · constructor
    · intro h
      rcases exists_end mem address with ⟨rsdp, haccepted⟩ | ⟨n, e', hconsulted, hread⟩ | hinvalid
      · cases (haccepted.outcome_eq hc).symm.trans h
      · cases (hconsulted.outcome_eq hread).symm.trans h
        exact ⟨n, hconsulted, hread⟩
      · cases hinvalid.symm.trans h
    · rintro ⟨n, hconsulted, hread⟩
      exact hconsulted.outcome_eq hread
  · constructor
    · intro h
      refine ⟨fun n hconsulted => ?_, fun rsdp haccepted => ?_⟩
      · cases hread : mem.read address n with
        | ok bs => exact ⟨bs, rfl⟩
        | error e => cases (hconsulted.outcome_eq hread).symm.trans h
      · cases (haccepted.outcome_eq hc).symm.trans h
    · rintro ⟨hreadable, hnone⟩
      rcases exists_end mem address with ⟨rsdp, haccepted⟩ | ⟨n, e, hconsulted, hread⟩ | hinvalid
      · exact absurd haccepted (hnone rsdp)
      · obtain ⟨bs, hok⟩ := hreadable n hconsulted
        cases hread.symm.trans hok
      · exact hinvalid

/-- The first 20 bytes of a root pointer of a revision, which names an RSDT. -/
def rootPointerHead (checksum revision : UInt8) : Bytes :=
  Bytes.ofAscii "RSD PTR " ++ [checksum] ++ Bytes.zeros 6 ++ [revision] ++ Bytes.ofWord32 0x1000

/-- A memory in which nothing can be read but those 20 bytes. -/
def headMemory (checksum revision : UInt8) : Memory :=
  .sparse [.ofArray 0xf0000 (rootPointerHead checksum revision).toArray]

/-- With nothing behind it such a head is a root pointer of revision 1, and cannot be read as one of
    revision 2. -/
theorem outcome_readChecked_head :
    (headMemory 0xd0 1).Coherent ∧
      (readChecked (headMemory 0xd0 1) 0xf0000).outcome = .ok ⟨0xf0000, 1, 0x1000, 0, 20⟩ ∧
      (readChecked (headMemory 0xcf 2) 0xf0000).outcome =
        .error (.cause (.badAddress (.unmapped 0xf0000 36))) := by
  have hold : (headMemory 0xd0 1).Coherent := Memory.coherent_sparse (by decide +kernel)
  have hnew : (headMemory 0xcf 2).Coherent := Memory.coherent_sparse (by decide +kernel)
  have hhead {checksum revision : UInt8}
      (h : (headMemory checksum revision).read 0xf0000 20 = .ok (rootPointerHead checksum revision))
      (hsum : ((rootPointerHead checksum revision).map UInt8.toNat).sum % 256 = 0) :
      HeadAt (headMemory checksum revision) 0xf0000 (rootPointerHead checksum revision) :=
    ⟨h, rfl, hsum⟩
  obtain ⟨haccepted, -, -, -⟩ := outcome_readChecked hold 0xf0000
  obtain ⟨-, -, hunreadable, -⟩ := outcome_readChecked hnew 0xf0000
  refine ⟨hold, ?_, ?_⟩
  · exact (haccepted _).mpr (.old (hhead rfl (by decide +kernel)) (by decide +kernel))
  · refine (hunreadable _).mpr ⟨36, .extended (hhead rfl (by decide +kernel)) ?_, rfl⟩
    decide +kernel

end Rsdp

end Acpi

end BootHandoff
