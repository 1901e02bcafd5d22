/-
  The hand-off never panics. None of its readers overflows, and every block that it publishes is
  short enough for its header; both together make it safe (`Boot.safe_describe`).
  `run_describe_guarded` says the same of the hand-off with its guards, and of the builder of a list
  with its own. What becomes of tables at the end of the address space is the last part of it.
-/
import BootHandoff.Proofs.Acpi.Safety
import BootHandoff.Proofs.Acpi.Wrapping
import BootHandoff.Proofs.Guard.Handoff
import BootHandoff.Proofs.Handoff.Exhaustion
import BootHandoff.Proofs.Procedure.Safety

namespace BootHandoff

open Procedure (Safe Sends)

variable {ε : Type}

/-! ## The parts of the hand-off -/

theorem Descriptor.safe_publish (d : Descriptor) : Safe (d.publish : Procedure ε Unit) := by
  refine (Procedure.safe_log ..).bind fun _ => Procedure.safe_forM fun hob hmem => ?_
  have hsize : hob.size = 48 := by
    rcases List.mem_cons.mp hmem with rfl | hmem
    · exact Hob.size_resource ..
    · obtain ⟨a, -, rfl⟩ := Option.map_eq_some_iff.mp (Option.mem_toList.mp hmem)
      exact Hob.size_allocation ..
  exact Procedure.safe_emit (by rw [hsize]; decide)

theorem DisplayMode.safe_publish (g : DisplayMode) : Safe (g.publish : Procedure ε Unit) := by
  refine (Procedure.safe_emit ?_).bind fun _ => Procedure.safe_log ..
  rw [Hob.size_guid, DisplayMode.length_encode]
  decide

theorem TableLocations.safe_publish (t : TableLocations) :
    Safe (t.publish : Procedure ε Unit) := by
  have huniversal : ∀ name a,
      (Hob.guid name (TableLocations.encodeUniversal a)).size ≤ maxHobSize := by
    intro name a
    rw [Hob.size_guid, TableLocations.length_encodeUniversal]
    decide
  refine (Procedure.safe_emit ?_).bind fun _ => ?_
  · rw [Hob.size_guid, TableLocations.length_encode]
    decide
  · refine (Procedure.safe_emit (huniversal _ _)).bind fun _ => ?_
    refine (Procedure.safe_log ..).bind fun _ => ?_
    exact (Procedure.safe_emit (huniversal _ _)).bind fun _ => Procedure.safe_log ..

theorem SciCheck.safe_run (fadt : Acpi.Fadt) : Safe (SciCheck.run fadt : Procedure ε Bool) := by
  unfold SciCheck.run
  split
  · exact .done true
  · refine .readPort fun control => ?_
    show Safe (ite _ _ _)
    split
    · exact .note (.done false)
    · exact .done true

theorem BoardInfo.safe_survey (rsdp : Acpi.Rsdp) : Safe (BoardInfo.survey rsdp) := by
  refine (Procedure.safe_examine fun mem => not_overflows_find mem rsdp).bind fun found => ?_
  exact (SciCheck.safe_run found.2).bind fun _ => .done found.1

namespace Handoff

theorem safe_guessTolud (map : List Region) : Safe (guessTolud map : Procedure ε Tolud) := by
  refine (Procedure.safe_log ..).bind fun _ => ?_
  refine (Procedure.safe_forM fun r _ => .note (.done ())).bind fun _ => ?_
  exact (Procedure.safe_log ..).bind fun _ => .done _

theorem safe_publishFramebuffer (framebuffer : Option Coreboot.Framebuffer) :
    Safe (publishFramebuffer framebuffer : Procedure ε Unit) := by
  cases framebuffer with
  | none => exact Procedure.safe_log ..
  | some fb =>
    rw [publishFramebuffer]
    cases DisplayMode.ofFramebuffer? fb with
    | none => exact Procedure.safe_log ..
    | some g => exact g.safe_publish

theorem safe_describePlatform (info : Coreboot.Info) : Safe (describePlatform info) := by
  refine (safe_guessTolud info.memoryMap).bind fun tolud => ?_
  refine (Procedure.safe_log ..).bind fun _ => ?_
  refine (Procedure.safe_forM fun d _ => d.safe_publish).bind fun _ => ?_
  refine (safe_publishFramebuffer info.framebuffer).bind fun _ => ?_
  refine (Procedure.safe_examine fun mem => TableLocations.not_overflows_find mem info).bind ?_
  rintro ⟨locations, rsdp⟩
  refine locations.safe_publish.bind fun _ => ?_
  refine (BoardInfo.safe_survey rsdp).bind fun board => ?_
  have hboard : (boardHob board).size ≤ maxHobSize := by
    rw [size_boardHob]
    decide
  refine (Procedure.safe_emit hboard).bind fun _ => ?_
  refine (Procedure.safe_log ..).bind fun _ => (Procedure.safe_log ..).bind fun _ => ?_
  exact (Procedure.safe_forM fun d _ => d.safe_publish).bind fun _ => .done _

end Handoff

namespace Boot

open Guard (RawList)
open Handoff

variable {σ : Type}

theorem safe_describe (settings : Settings) (addressBits : UInt8) (info : Coreboot.Info) :
    Safe (describe settings addressBits info) := by
  have hpayload : ∀ hob ∈ payloadHobs settings addressBits, hob.size ≤ maxHobSize :=
    fun hob h => Nat.le_trans (size_payloadHobs settings addressBits hob h) (by decide)
  refine (safe_describePlatform info).bind fun summary => ?_
  refine (Procedure.safe_forM fun hob h => Procedure.safe_emit (hpayload hob h)).bind fun _ => ?_
  exact .done summary

/-! ## The whole -/

/-- The survey of tables that wrap around fails after the blocks of the boot loader and of the table
    locations, unless the sink refuses one of those. -/
theorem outcome_run_describe_of_surveyWraps {mem : Memory} {info : Coreboot.Info}
    {locations : TableLocations} {rsdp : Acpi.Rsdp}
    (hfind : (TableLocations.find mem info).outcome = .ok (locations, rsdp))
    (hwraps : Acpi.SurveyWraps mem rsdp) (host : Procedure.Host σ) (settings : Settings)
    (addressBits : UInt8) (s : σ) :
    ∃ place length, ∀ {κ : Type} (sink : Sink κ) (k : κ),
      ((describe settings addressBits info).run host sink (fun _ => mem) s k).outcome =
        match (sink.deliver k (bootLoaderHobs info ++ locationHobs locations)).2 with
        | some e => .error (.cause (.refused e))
        | none => .error (.cause (.failed (.badAddress (.overflow place length)))) := by
  obtain ⟨place, length, hboard⟩ := Acpi.outcome_find_of_surveyWraps hwraps
  have hsends : Sends mem (describe settings addressBits info)
      (bootLoaderHobs info ++ locationHobs locations) _ :=
    sends_describe_error mem (sends_describePlatform_of_board_error mem hfind hboard)
  refine ⟨place, length, fun sink k => ?_⟩
  refine (Procedure.run_of_sends hsends host sink s k).2.trans ?_
  cases (sink.deliver k (bootLoaderHobs info ++ locationHobs locations)).2 with
  | some e => rfl
  | none => rfl

/-- **The hand-off never panics.** With a guard at every sum, product, quotient, shift and part of
    a buffer it is the hand-off still. No guard stops a run of it, wherever its blocks go and
    whatever the memory, the ports and the boot loader say; nor does one of those in the builder of
    a list, which goes along with the list. Tables whose addresses wrap around are reported as
    unreadable. -/
theorem run_describe_guarded (host : Procedure.Host σ) (settings : Settings)
    (addressBits : UInt8) (info : Coreboot.Info) (s : σ) :
    let guarded := Guard.describe settings addressBits info
    guarded = describe settings addressBits info ∧
      (∀ {κ : Type} (sink : Sink κ) (memory : κ → Memory) (k : κ),
        (guarded.run host sink memory s k).outcome ≠ .error .overflow) ∧
      (∀ (window : Window) (base memoryBottom memoryTop : Address) (start : HobList)
        (memory : Option RawList → Memory),
        HobList.create window base memoryBottom memoryTop = .ok start →
        let plain := (describe settings addressBits info).run host Sink.hobList
          (fun l => memory (some (.ofList l))) s start
        guarded.run host Guard.rawList memory s (some (.ofList start)) =
          ⟨plain.host, some (.ofList plain.sink), plain.outcome⟩) ∧
      ∀ (mem : Memory) (locations : TableLocations) (rsdp : Acpi.Rsdp),
        (TableLocations.find mem info).outcome = .ok (locations, rsdp) →
        Acpi.SurveyWraps mem rsdp →
        ∃ place length, ∀ {κ : Type} (sink : Sink κ) (k : κ),
          (guarded.run host sink (fun _ => mem) s k).outcome =
            match (sink.deliver k (bootLoaderHobs info ++ locationHobs locations)).2 with
            | some e => .error (.cause (.refused e))
            | none => .error (.cause (.failed (.badAddress (.overflow place length)))) := by
  intro guarded
  have heq : guarded = describe settings addressBits info :=
    Guard.describe_eq settings addressBits info
  have hsafe : Safe guarded := by
    rw [heq]
    exact safe_describe settings addressBits info
  refine ⟨heq, fun sink memory k => ?_, ?_, fun mem locations rsdp hfind hwraps => ?_⟩
  · exact Procedure.outcome_run_of_safe hsafe host sink memory s k
  · intro window base memoryBottom memoryTop start memory hcreate
    have hstart : Phit.size ≤ start.closing := by
      rw [(HobList.holds_create hcreate).closing_eq]
      exact Nat.le_add_right ..
    rw [← heq]
    exact Procedure.run_rawList_of_safe hsafe host memory s hstart
  · rw [heq]
    exact outcome_run_describe_of_surveyWraps hfind hwraps host settings addressBits s

/-- An XSDT 64 bytes below the end of the address space, with five null entries. The address of the
    last one wraps around. -/
def edgeEntries : Memory :=
  let xsdt : Bytes := Bytes.ofAscii "XSDT" ++ Bytes.ofWord32 76 ++ Bytes.zeros 55
  Memory.sparse [
    .ofArray 0xf0000 (extendedRootPointer (Bytes.ofWord64 0xffffffffffffffc0) 0x23).toArray,
    .ofArray 0xffffffffffffffc0 xsdt.toArray]

/-- An MCFG of which only the header lies below the end of the address space. -/
def edgeAllocation : Memory :=
  let xsdt : Bytes := Bytes.ofAscii "XSDT" ++ Bytes.ofWord32 52 ++ Bytes.zeros 28
    ++ Bytes.ofWord64 0x2000 ++ Bytes.ofWord64 0xffffffffffffffd8
  let fadt : Bytes := Bytes.ofAscii "FACP" ++ Bytes.ofWord32 36 ++ Bytes.zeros 28
  let mcfg : Bytes := Bytes.ofAscii "MCFG" ++ Bytes.ofWord32 60 ++ Bytes.zeros 28
  Memory.sparse [
    .ofArray 0xf0000 (extendedRootPointer (Bytes.ofWord64 0x1000) 0xcc).toArray,
    .ofArray 0x1000 xsdt.toArray, .ofArray 0x2000 fadt.toArray,
    .ofArray 0xffffffffffffffd8 mcfg.toArray]

theorem entryWraps_edgeEntries : Acpi.EntryWraps edgeEntries 8 0xffffffffffffffc0 :=
  ⟨_, rfl, ⟨4, by decide +kernel, by decide⟩, by decide +kernel⟩

theorem allocationWraps_edgeAllocation :
    Acpi.AllocationWraps edgeAllocation ⟨0xf0000, 2, 0, 0x1000, 36⟩ := by
  refine ⟨[⟨0x2000, Acpi.Signature.fadt⟩, ⟨0xffffffffffffffd8, Acpi.Signature.mcfg⟩], 0x2000,
    0xffffffffffffffd8, _, by decide +kernel, by decide +kernel, by decide +kernel,
    by decide +kernel, rfl, by decide +kernel, by decide⟩

/-- The guarded hand-off over both: it is reported that the tables leave the address space, and the
    builder of a list is not stopped. -/
theorem run_describe_guarded_edge :
    let guarded := Guard.describe {} 39 smallInfo
    (∃ start, HobList.create (.fill 4096 0xaa) 0xd00000 0x800000 0x4d00000 = .ok start ∧
      (guarded.run silentHost Guard.rawList (fun _ => edgeEntries) ()
        (some (.ofList start))).sink.isSome) ∧
      (∃ place length, (guarded.run silentHost (Sink.recorder none) (fun _ => edgeEntries) ()
        []).outcome = .error (.cause (.failed (.badAddress (.overflow place length))))) ∧
      ∃ place length, (guarded.run silentHost (Sink.recorder none) (fun _ => edgeAllocation) ()
        []).outcome = .error (.cause (.failed (.badAddress (.overflow place length)))) := by
  intro guarded
  obtain ⟨-, -, hlist, hwraps⟩ := run_describe_guarded silentHost {} 39 smallInfo ()
  refine ⟨?_, ?_, ?_⟩
  · obtain ⟨start, hstart⟩ : ∃ start,
        HobList.create (.fill 4096 0xaa) 0xd00000 0x800000 0x4d00000 = .ok start := ⟨_, rfl⟩
    have hrun := hlist _ _ _ _ start (fun _ => edgeEntries) hstart
    refine ⟨start, hstart, ?_⟩
    rw [hrun]
    rfl
  · obtain ⟨place, length, hend⟩ := hwraps edgeEntries ⟨0xf0000, 36, 0, 0⟩
      ⟨0xf0000, 2, 0, 0xffffffffffffffc0, 36⟩ (by decide +kernel)
      (.entry (by decide) entryWraps_edgeEntries)
    refine ⟨place, length, ?_⟩
    rw [hend, Sink.deliver_recorder]
  · obtain ⟨place, length, hend⟩ := hwraps edgeAllocation ⟨0xf0000, 36, 0, 0⟩
      ⟨0xf0000, 2, 0, 0x1000, 36⟩ (by decide +kernel) (.allocation allocationWraps_edgeAllocation)
    refine ⟨place, length, ?_⟩
    rw [hend, Sink.deliver_recorder]

end Boot

end BootHandoff
