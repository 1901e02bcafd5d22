/-
  What the SCI diagnostic may and may not do. It reads a port, so its place in the hand-off is
  where the outside could come in; `run_describePlatform_advisory` says that it does not: whoever
  answers the read, the sink and the end of the run are the same. The read itself is settled by
  the tables: there is at most one, there is one exactly where the survey has succeeded and the
  FADT that it selected leaves the question open, and its port and width are those of the FADT.
-/
import BootHandoff.Proofs.Acpi.Selection
import BootHandoff.Proofs.Handoff.Course
import Mathlib.Data.Nat.Bitwise

namespace BootHandoff

open Acpi (Fadt Rsdp)
open Procedure (Host)

/-! ## The selected FADT -/

namespace Acpi

/-- The bytes of the first listed FADT. -/
def Rsdp.fadt? (mem : Memory) (rsdp : Rsdp) : Option Bytes := do
  let tables ← rsdp.listed? mem
  let address ← firstWith? (Bytes.ofAscii "FACP") tables
  fadtBytes? mem address

end Acpi

/-- A survey that succeeds read the selected FADT. -/
theorem BoardInfo.fadt_of_find {mem : Memory} {rsdp : Rsdp} {board : BoardInfo} {fadt : Fadt}
    (h : (find mem rsdp).outcome = .ok (board, fadt)) :
    ∃ bs, rsdp.fadt? mem = some bs ∧ fadt = Fadt.ofBytes bs := by
  obtain ⟨found, hlisting, hrest⟩ := Logged.outcome_bind_eq_ok_iff.mp h
  obtain ⟨tables, htables, hfound⟩ :=
    Option.bind_eq_some_iff.mp ((Acpi.reads_rsdp_listing mem rsdp).eq_some hlisting)
  obtain rfl : Acpi.Listing.ofTables tables = found := Option.some.inj hfound
  cases hfirst : Acpi.firstWith? (Bytes.ofAscii "FACP") tables with
  | none =>
    have hnone : (Acpi.Listing.ofTables tables).fadt = none := hfirst
    rw [hnone] at hrest
    cases hrest
  | some address =>
    have hread := (reads_find mem htables hfirst).eq_some h
    obtain ⟨bs, hbytes, hread⟩ := Option.bind_eq_some_iff.mp hread
    obtain ⟨window, -, hread⟩ := Option.bind_eq_some_iff.mp hread
    cases hread
    refine ⟨bs, ?_, rfl⟩
    simp only [Acpi.Rsdp.fadt?, htables, hfirst, Option.bind_eq_bind, Option.bind_some, hbytes]

/-! ## The ports of the diagnostic -/

theorem Acpi.Fadt.hardwareReduced_eq (fadt : Fadt) :
    fadt.hardwareReduced = fadt.flags.toNat.testBit 20 := by
  have hzero : fadt.flags &&& hardwareReducedFlag = 0 ↔ fadt.flags.toNat.testBit 20 = false := by
    rw [← UInt32.toNat_inj, UInt32.toNat_and,
      show hardwareReducedFlag.toNat = 2 ^ 20 from rfl, Nat.and_two_pow]
    cases fadt.flags.toNat.testBit 20 <;> simp
  rw [hardwareReduced, Bool.eq_iff_iff, decide_eq_true_iff, ne_eq, hzero, Bool.not_eq_false]

namespace SciCheck

theorem length_reads_le (fadt : Fadt) : (reads fadt).length ≤ 1 := by
  unfold reads
  split
  · exact Nat.zero_le 1
  · exact Nat.le_refl 1

/-- Which port is read, and how wide, by the fields of the FADT at their offsets. -/
theorem reads_ofBytes_eq_iff (bs : Bytes) (width : PortWidth) (port : UInt16) :
    reads (Fadt.ofBytes bs) = [(width, port)] ↔
      (bs.word32 112).toNat.testBit 20 = false ∧ bs.word32 48 = 0 ∧
        port.toNat = (bs.word32 64).toNat % 2 ^ 16 ∧
        width = if bs.byte 89 = 4 then .w32 else .w16 := by
  have hreads : reads (Fadt.ofBytes bs) =
      if (bs.word32 112).toNat.testBit 20 || bs.word32 48 ≠ 0 then []
      else [(SciCheck.width (Fadt.ofBytes bs), (bs.word32 64).toUInt16)] := by
    rw [reads, Acpi.Fadt.hardwareReduced_eq]
    rfl
  have hport : (bs.word32 64).toUInt16 = port ↔ port.toNat = (bs.word32 64).toNat % 2 ^ 16 := by
    rw [← UInt16.toNat_inj, UInt32.toNat_toUInt16]
    exact eq_comm
  have hwidth : SciCheck.width (Fadt.ofBytes bs) = width ↔
      width = if bs.byte 89 = 4 then .w32 else .w16 := eq_comm
  rw [hreads]
  cases (bs.word32 112).toNat.testBit 20 with
  | true => simp
  | false =>
    by_cases hsmi : bs.word32 48 = 0
    · simp [hsmi, hport, hwidth, and_comm]
    · simp [hsmi]

end SciCheck

/-! ## The run -/

namespace Handoff

variable {σ τ κ : Type}

/-- Once the board information is known the diagnostic is run, whatever becomes of the rest. -/
theorem Surveys.exists_ends {sink : Sink κ} {memory : κ → Memory} {info : Coreboot.Info}
    {k k₁ k₂ : κ} {locations : TableLocations} {rsdp : Rsdp} {board : BoardInfo} {fadt : Fadt}
    (h : Surveys sink memory info k k₁ k₂ locations rsdp board fadt) :
    ∃ k' outcome, Procedure.Ends sink memory (describePlatform info) k (SciCheck.reads fadt) k'
      outcome := by
  rcases hfinished : sink.deliver k₂ (surveyedHobs info board) with ⟨k', _ | e⟩
  · exact ⟨k', _, (Course.finished h hfinished).ends⟩
  · exact ⟨k', _, (Course.unfinished h hfinished).ends⟩

/-- A port is read only where the board information is known. -/
theorem Course.surveys_of_reads {sink : Sink κ} {memory : κ → Memory} {info : Coreboot.Info}
    {k k' : κ} {reads : List (PortWidth × UInt16)}
    {outcome : Except (Fault (Procedure.StopCause Acpi.AcpiError)) Summary}
    (h : Course sink memory info k reads k' outcome) (hreads : reads ≠ []) :
    ∃ k₁ k₂ locations rsdp board fadt,
      Surveys sink memory info k k₁ k₂ locations rsdp board fadt ∧ reads = SciCheck.reads fadt := by
  cases h with
  | crowded => exact absurd rfl hreads
  | unlocated => exact absurd rfl hreads
  | unannounced => exact absurd rfl hreads
  | unsurveyed => exact absurd rfl hreads
  | unfinished hsurveys => exact ⟨_, _, _, _, _, _, hsurveys, rfl⟩
  | finished hsurveys => exact ⟨_, _, _, _, _, _, hsurveys, rfl⟩

/-- Where the board information is known, what is read is what its FADT asks for. -/
theorem Course.reads_of_surveys {sink : Sink κ} {memory : κ → Memory} {info : Coreboot.Info}
    {k k' k₁ k₂ : κ} {reads : List (PortWidth × UInt16)}
    {outcome : Except (Fault (Procedure.StopCause Acpi.AcpiError)) Summary}
    {locations : TableLocations} {rsdp : Rsdp} {board : BoardInfo} {fadt : Fadt}
    (h : Course sink memory info k reads k' outcome)
    (hsurveys : Surveys sink memory info k k₁ k₂ locations rsdp board fadt) :
    reads = SciCheck.reads fadt := by
  obtain ⟨_, _, hends⟩ := hsurveys.exists_ends
  have hreads := Procedure.reads_of_ends h.ends (fun _ => 0) {}
  rw [Procedure.reads_of_ends hends] at hreads
  exact hreads.symm

/-- **The diagnostic is advisory.** Two runs with any two hosts leave the sink in one state and end
    in one way. An observer of a run sees at most one read of a port. It sees a read exactly where
    the sink has taken the blocks up to the locations of the tables, the board information was
    found, and the selected FADT has fixed hardware and no command port; the read is then one of
    the PM1a control register. -/
theorem run_describePlatform_advisory (sink : Sink κ) (memory : κ → Memory)
    (info : Coreboot.Info) (k : κ) (host : Host σ) (other : Host τ) (s : σ) (t : τ)
    (ports : PortSpace) :
    let run := (describePlatform info).run host sink memory s k
    let otherRun := (describePlatform info).run other sink memory t k
    let reads := ((describePlatform info).run (Host.observer ports) sink memory {} k).host.reads
    run.sink = otherRun.sink ∧ run.outcome = otherRun.outcome ∧ reads.length ≤ 1 ∧
      ∀ width port, reads = [(width, port)] ↔
        ∃ k₁ k₂ locations rsdp board fadt bs,
          Surveys sink memory info k k₁ k₂ locations rsdp board fadt ∧
          rsdp.fadt? (memory k₂) = some bs ∧
          (bs.word32 112).toNat.testBit 20 = false ∧ bs.word32 48 = 0 ∧
          port.toNat = (bs.word32 64).toNat % 2 ^ 16 ∧
          width = if bs.byte 89 = 4 then .w32 else .w16 := by
  intro run otherRun reads
  obtain ⟨asked, k', outcome, hcourse⟩ := exists_course sink memory info k
  obtain ⟨hsink, houtcome⟩ := Procedure.run_of_ends hcourse.ends host s
  obtain ⟨hsink', houtcome'⟩ := Procedure.run_of_ends hcourse.ends other t
  have hreads : reads = asked := Procedure.reads_of_ends hcourse.ends ports {}
  refine ⟨hsink.trans hsink'.symm, houtcome.trans houtcome'.symm, ?_, ?_⟩
  · rw [hreads]
    by_cases hnone : asked = []
    · rw [hnone]
      exact Nat.zero_le 1
    · obtain ⟨-, -, -, -, -, fadt, -, rfl⟩ := hcourse.surveys_of_reads hnone
      exact SciCheck.length_reads_le fadt
  · intro width port
    constructor
    · intro hread
      rw [hreads] at hread
      obtain ⟨k₁, k₂, locations, rsdp, board, fadt, hsurveys, hasked⟩ :=
        hcourse.surveys_of_reads (by rw [hread]; exact List.cons_ne_nil _ _)
      obtain ⟨bs, hbytes, rfl⟩ := BoardInfo.fadt_of_find hsurveys.surveyed
      rw [hread] at hasked
      exact ⟨k₁, k₂, locations, rsdp, board, _, bs, hsurveys, hbytes,
        (SciCheck.reads_ofBytes_eq_iff bs width port).mp hasked.symm⟩
    · rintro ⟨k₁, k₂, locations, rsdp, board, fadt, bs, hsurveys, hbytes, hopen⟩
      obtain ⟨cs, hread, rfl⟩ := BoardInfo.fadt_of_find hsurveys.surveyed
      obtain rfl : bs = cs := Option.some.inj (hbytes.symm.trans hread)
      obtain ⟨_, _, hends⟩ := hsurveys.exists_ends
      exact (Procedure.reads_of_ends hends ports {}).trans
        ((SciCheck.reads_ofBytes_eq_iff bs width port).mpr hopen)

end Handoff

end BootHandoff
