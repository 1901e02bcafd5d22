/-
  The readers of the ACPI tables never overflow. An address that wraps around is told from a failed
  sum at each place where one can come up, and ends in an error of the reader, so that there is
  nothing left that could stop it: neither the search for the root pointer
  (`TableLocations.not_overflows_find`) nor the survey of the tables that it leads to
  (`BoardInfo.not_overflows_find`).
-/
import BootHandoff.Proofs.Acpi.Selection
import BootHandoff.Proofs.Coreboot.Overflow

namespace BootHandoff

open Logged (Overflows)

variable {ε α β : Type}

namespace Logged

theorem not_overflows_bind {x : Logged ε α} {f : α → Logged ε β} (hx : ¬ Overflows x)
    (hf : ∀ a, ¬ Overflows (f a)) : ¬ Overflows (x >>= f) := by
  rw [overflows_bind]
  rintro (h | ⟨a, -, h⟩)
  · exact hx h
  · exact hf a h

theorem not_overflows_note (s : Source) (l : Level) (m : String) :
    ¬ Overflows (note s l m : Logged ε Unit) := by
  intro h
  cases h

end Logged

/-! ## The root pointer -/

namespace Acpi

theorem Reads.not_overflows {x : Survey α} {value? : Option α} (h : Reads x value?) :
    ¬ Overflows x := by
  intro hover
  cases value? with
  | none =>
    obtain ⟨e, he⟩ := h
    cases he.symm.trans hover
  | some a => cases (show x.outcome = .ok a from h).symm.trans hover

theorem not_overflows_readBytes (mem : Memory) (a : Address) (n : Nat) :
    ¬ Overflows (readBytes mem a n) := (reads_readBytes mem a n).not_overflows

theorem Rsdp.not_overflows_refuse (why : String) : ¬ Overflows (refuse why : Survey α) :=
  Logged.not_overflows_bind (Logged.not_overflows_note _ _ _) fun _ => Logged.not_overflows_fail _

theorem Rsdp.not_overflows_read (mem : Memory) (address : Address) :
    ¬ Overflows (Rsdp.read mem address) := by
  refine Logged.not_overflows_bind (not_overflows_readBytes mem _ _) fun old => ?_
  dsimp only
  split
  · exact Logged.not_overflows_bind (not_overflows_readBytes mem _ _) fun _ => Logged.not_overflows_pure _
  · exact Logged.not_overflows_pure _

theorem Rsdp.not_overflows_checkExtended (mem : Memory) (rsdp : Rsdp) :
    ¬ Overflows (rsdp.checkExtended mem) := by
  unfold Rsdp.checkExtended
  dsimp only
  split
  · refine Logged.not_overflows_bind (not_overflows_readBytes mem _ _) fun bs => ?_
    split
    · exact Logged.not_overflows_pure ()
    · exact not_overflows_refuse _
  · exact not_overflows_refuse _

theorem Rsdp.not_overflows_readChecked (mem : Memory) (address : Address) :
    ¬ Overflows (Rsdp.readChecked mem address) := by
  refine Logged.not_overflows_bind (not_overflows_readBytes mem _ _) fun head => ?_
  split
  · exact not_overflows_refuse _
  · split
    · exact not_overflows_refuse _
    · refine Logged.not_overflows_bind (not_overflows_read mem address) fun rsdp => ?_
      split
      · exact Logged.not_overflows_bind (not_overflows_checkExtended mem rsdp) fun _ =>
          Logged.not_overflows_note_pure _ _ _ _
      · exact Logged.not_overflows_note_pure _ _ _ _

end Acpi

theorem TableLocations.not_overflows_find (mem : Memory) (info : Coreboot.Info) :
    ¬ Overflows (TableLocations.find mem info) := by
  unfold TableLocations.find
  split
  · exact Logged.not_overflows_fail _
  · refine Logged.not_overflows_bind (Acpi.Rsdp.not_overflows_readChecked mem _) fun rsdp => ?_
    exact Logged.not_overflows_bind (Logged.not_overflows_note _ _ _) fun _ =>
      Logged.not_overflows_note_pure _ _ _ _

/-! ## The survey -/

namespace BoardInfo

open Acpi

theorem not_overflows_find (mem : Memory) (rsdp : Rsdp) : ¬ Overflows (find mem rsdp) := by
  have hlisting := reads_rsdp_listing mem rsdp
  cases hlisted : rsdp.listed? mem with
  | none =>
    rw [hlisted] at hlisting
    obtain ⟨e, he⟩ := hlisting
    intro hover
    rw [find, Overflows, Logged.outcome_bind, he] at hover
    cases hover
  | some tables =>
    cases hfadt : firstWith? (Bytes.ofAscii "FACP") tables with
    | none =>
      rw [hlisted] at hlisting
      have hnone : (Listing.ofTables tables).fadt = none := hfadt
      intro hover
      rw [find, Overflows, Logged.outcome_bind_of_ok hlisting, hnone] at hover
      cases hover
    | some address => exact (reads_find mem hlisted hfadt).not_overflows

end BoardInfo

end BootHandoff
