/-
  Which ports a boot touches. Every step of a boot is a use of its console, and beside that one part
  of it reads a port: the SCI diagnostic (`exists_ends_describe`). So up to the masks of the
  interrupts there are accesses to the console's device and at most one other read, and whatever
  the boot finds or fails to find, the masks are what it writes when the list is as it will be
  (`accesses_run`).
-/
import BootHandoff.Proofs.Boot.Halting
import BootHandoff.Proofs.Console.Accesses
import BootHandoff.Proofs.Coreboot.Printing
import BootHandoff.Proofs.Handoff.Diagnostic
import BootHandoff.Proofs.Handoff.Exhaustion

namespace BootHandoff

open Acpi (AcpiError)
open Console (Uses)
open Procedure (Ends StopCause Writes)

variable {σ κ ε α : Type} {base : UInt16}

/-! ## Procedures -/

namespace Boot

/-- Logging records is a use of the console. -/
theorem uses_foldl_note (bus : Bus σ) (records : List Record) {s : Console × (σ × List Access)}
    (h : s.1.On base) :
    Uses base [] s (records.foldl (fun s r => (host bus.traced).note r s) s) := by
  induction records generalizing s with
  | nil => exact .refl h
  | cons r records ih =>
    have hlog : Uses base [] s ((host bus.traced).note r s) := Console.uses_log h bus r
    exact hlog.trans (ih hlog.on)

theorem uses_readPort (bus : Bus σ) (width : PortWidth) (port : UInt16)
    {s : Console × (σ × List Access)} (h : s.1.On base) :
    Uses base [(width, port)] s ((host bus.traced).readPort width port s).2 :=
  ⟨h, [.input width port (bus.input width port s.2.1).1], rfl, .read width port _ .none⟩

/-- A run uses the console, and reads the ports that the procedure reads. -/
theorem uses_of_ends {sink : Sink κ} {memory : κ → Memory} {p : Procedure ε α} {k k' : κ}
    {reads : List (PortWidth × UInt16)} {outcome : Except (Fault (StopCause ε)) α}
    (hp : Ends sink memory p k reads k' outcome) (bus : Bus σ)
    {s : Console × (σ × List Access)} (h : s.1.On base) :
    Uses base reads s (p.run (host bus.traced) sink memory s k).host := by
  induction hp generalizing s with
  | done a k => exact .refl h
  | stop fault k => exact .refl h
  | @note r next k k' reads outcome hnext ih =>
    have hlog : Uses base [] s ((host bus.traced).note r s) := Console.uses_log h bus r
    exact hlog.trans (ih hlog.on)
  | @readPort width port next k k' reads outcome hnext ih =>
    have hread := uses_readPort bus width port h
    exact hread.trans (ih _ hread.on)
  | withMemory hnext ih => exact ih h
  | accepted happend hnext ih =>
    rw [Procedure.run, happend]
    exact ih h
  | refused happend =>
    rw [Procedure.run, happend]
    exact uses_foldl_note bus _ h

/-! ## The parts of a boot -/

/-- The announcement reads no port, and only an overflow stops it. -/
theorem exists_ends_announce (sink : Sink κ) (memory : κ → Memory) (info : Coreboot.Info)
    (k : κ) : ∃ outcome, Ends sink memory (announce info : Procedure ε Unit) k [] k outcome ∧
      (outcome = .ok () ∨ outcome = .error .overflow) := by
  unfold announce
  cases totalRam? info.memoryMap with
  | none =>
    cases info.version with
    | none => exact ⟨_, .stop .overflow k, .inr rfl⟩
    | some version => exact ⟨_, .note (.stop .overflow k), .inr rfl⟩
  | some total =>
    cases info.version with
    | none => exact ⟨_, .note (.done () k), .inl rfl⟩
    | some version => exact ⟨_, .note (.note (.done () k)), .inl rfl⟩

/-- Neither does the report. -/
theorem ends_report (sink : Sink κ) (memory : κ → Memory) (summary : Summary) (list : HobList)
    (k : κ) : Ends sink memory (report summary list : Procedure ε Unit) k [] k (.ok ()) := by
  have hitems : Writes (list.items.forM fun item => Procedure.log .payload .debug
      s!"HOB type {Text.hexPadded 6 item.1.toNat}, {item.2.length} bytes" : Procedure ε Unit)
      (list.items.flatMap fun _ => []) (.done ()) :=
    Procedure.writes_forM (fun _ => Procedure.writes_log ..) _
  rw [List.flatMap_eq_nil_iff.mpr fun _ _ => rfl] at hitems
  have hreport : Writes (report summary list : Procedure ε Unit) [] (.done ()) :=
    (Procedure.writes_log ..).silent_bind (hitems.silent_bind (Procedure.writes_log ..))
  exact hreport.ends rfl (.done () k)

/-- The description reads what the description of the platform reads. -/
theorem exists_ends_describe (sink : Sink κ) (memory : κ → Memory) (settings : Settings)
    (addressBits : UInt8) (info : Coreboot.Info) (k : κ) :
    ∃ reads last result,
      Ends sink memory (describe settings addressBits info) k reads last result ∧
        ∃ k' outcome, Handoff.Course sink memory info k reads k' outcome := by
  obtain ⟨reads, k', outcome, hcourse⟩ := Handoff.exists_course sink memory info k
  cases outcome with
  | error fault => exact ⟨reads, k', _, ends_describe_error hcourse.ends, k', _, hcourse⟩
  | ok summary =>
    rcases hpayload : sink.deliver k' (Handoff.payloadHobs settings addressBits) with
      ⟨last, _ | e⟩
    · exact ⟨reads, last, _, ends_describe hcourse.ends hpayload, k', _, hcourse⟩
    · exact ⟨reads, last, _, ends_describe_refused hcourse.ends hpayload, k', _, hcourse⟩

/-- The PM1a control register that a boot reads: the FADT found in memory, once the list holds the
    locations of the tables, leaves open whether ACPI mode is on, and gives the width and the port
    of the register. -/
def ControlRegister (settings : Settings) (mem : Memory) (info : Coreboot.Info)
    (width : PortWidth) (port : UInt16) : Prop :=
  ∃ list k₁ k₂ locations rsdp board fadt bs,
    newList settings mem = .ok list ∧
    Handoff.Surveys Sink.hobList (HobList.memory mem) info list k₁ k₂ locations rsdp board fadt ∧
    rsdp.fadt? (HobList.memory mem k₂) = some bs ∧
    (bs.word32 112).toNat.testBit 20 = false ∧ bs.word32 48 = 0 ∧
    port.toNat = (bs.word32 64).toNat % 2 ^ 16 ∧
    width = if bs.byte 89 = 4 then .w32 else .w16

section

variable {settings : Settings} {mem : Memory} {info : Coreboot.Info} {list last : HobList}
  {reads : List (PortWidth × UInt16)} {outcome : Except (Fault (StopCause AcpiError)) Summary}

theorem controlRegister_of_reads (hlist : newList settings mem = .ok list)
    (h : Handoff.Course Sink.hobList (HobList.memory mem) info list reads last outcome)
    {width : PortWidth} {port : UInt16} (hreads : reads = [(width, port)]) :
    ControlRegister settings mem info width port := by
  obtain ⟨k₁, k₂, locations, rsdp, board, fadt, hsurveys, hasked⟩ :=
    h.surveys_of_reads (by rw [hreads]; exact List.cons_ne_nil _ _)
  obtain ⟨bs, hbytes, rfl⟩ := BoardInfo.fadt_of_find hsurveys.surveyed
  exact ⟨list, k₁, k₂, locations, rsdp, board, _, bs, hlist, hsurveys, hbytes,
    (SciCheck.reads_ofBytes_eq_iff bs width port).mp (hasked.symm.trans hreads)⟩

theorem reads_of_controlRegister (hlist : newList settings mem = .ok list)
    (h : Handoff.Course Sink.hobList (HobList.memory mem) info list reads last outcome)
    {width : PortWidth} {port : UInt16} (hregister : ControlRegister settings mem info width port) :
    reads = [(width, port)] := by
  obtain ⟨list', k₁, k₂, locations, rsdp, board, fadt, bs, hlist', hsurveys, hbytes, hopen⟩ :=
    hregister
  obtain rfl : list = list' := Except.ok.inj (hlist.symm.trans hlist')
  obtain ⟨cs, hread, rfl⟩ := BoardInfo.fadt_of_find hsurveys.surveyed
  obtain rfl : bs = cs := Option.some.inj (hbytes.symm.trans hread)
  rw [h.reads_of_surveys hsurveys]
  exact (SciCheck.reads_ofBytes_eq_iff bs width port).mpr hopen

theorem length_reads_le_of_course
    (h : Handoff.Course Sink.hobList (HobList.memory mem) info list reads last outcome) :
    reads.length ≤ 1 := by
  by_cases hnone : reads = []
  · rw [hnone]
    exact Nat.zero_le 1
  · obtain ⟨_, _, _, _, _, fadt, _, rfl⟩ := h.surveys_of_reads hnone
    exact SciCheck.length_reads_le fadt

end

/-- Building the list reads the control register beside the console, if there is one, and nothing
    else. -/
theorem uses_build (bus : Bus σ) (mem : Memory) (settings : Settings) (addressBits : UInt8)
    (info : Coreboot.Info) {s : Console × (σ × List Access)} (h : s.1.On base)
    (hbuilt : (build bus.traced mem settings addressBits info s).outcome ≠ .error .overflow) :
    ∃ reads, Uses base reads s (build bus.traced mem settings addressBits info s).state ∧
      reads.length ≤ 1 ∧
      ∀ width port, reads = [(width, port)] ↔ ControlRegister settings mem info width port := by
  obtain ⟨result, hends, hresult⟩ := exists_ends_announce (ε := AcpiError) (Sink.recorder none)
    (fun _ => mem) info []
  have hannounced := uses_of_ends hends bus h
  have houtcome := (Procedure.run_of_ends hends (host bus.traced) s).2
  rcases hresult with rfl | rfl
  case inr =>
    simp only [build, houtcome] at hbuilt
    exact absurd rfl hbuilt
  simp only [build, houtcome]
  cases hlist : newList settings mem with
  | error fault =>
    refine ⟨[], hannounced, Nat.zero_le 1, fun width port => ⟨nofun, ?_⟩⟩
    rintro ⟨list, -, -, -, -, -, -, -, hok, -⟩
    rw [hlist] at hok
    cases hok
  | ok list =>
    obtain ⟨reads, _, _, hends, k', outcome, hcourse⟩ := exists_ends_describe Sink.hobList
      (HobList.memory mem) settings addressBits info list
    have hdescribed := hannounced.trans (uses_of_ends hends bus hannounced.on)
    refine ⟨reads, ?_, length_reads_le_of_course hcourse, fun width port =>
      ⟨controlRegister_of_reads hlist hcourse, reads_of_controlRegister hlist hcourse⟩⟩
    dsimp only
    split
    · exact hdescribed
    · rw [← List.append_nil reads]
      exact hdescribed.trans (uses_of_ends (ends_report ..) bus hdescribed.on)

/-- Without tables nothing is built. -/
theorem uses_buildFromTables (bus : Bus σ) (mem : Memory) (settings : Settings)
    (addressBits : UInt8) (tables : Except Coreboot.TableError Coreboot.Info)
    {s : Console × (σ × List Access)} (h : s.1.On base)
    (hbuilt : (buildFromTables bus.traced mem settings addressBits tables s).outcome ≠
      .error .overflow) :
    ∃ reads,
      Uses base reads s (buildFromTables bus.traced mem settings addressBits tables s).state ∧
      reads.length ≤ 1 ∧
      ∀ width port, reads = [(width, port)] ↔
        ∃ info, tables = .ok info ∧ ControlRegister settings mem info width port := by
  cases tables with
  | error e => exact ⟨[], .refl h, Nat.zero_le 1, by simp⟩
  | ok info =>
    obtain ⟨reads, huses, hlength, hreads⟩ := uses_build bus mem settings addressBits info h hbuilt
    refine ⟨reads, huses, hlength, fun width port => (hreads width port).trans ?_⟩
    constructor
    · intro hregister
      exact ⟨info, rfl, hregister⟩
    · rintro ⟨info, ⟨⟩, hregister⟩
      exact hregister

theorem uses_logOutcome (bus : Bus σ) (outcome : Except BootError Address)
    {s : Console × (σ × List Access)} (h : s.1.On base) :
    Uses base [] s (logOutcome bus.traced outcome s) := by
  cases outcome with
  | ok address => exact Console.uses_log h bus _
  | error e => exact Console.uses_log h bus _

/-- Masking writes to the two mask registers, in order. -/
theorem maskInterrupts_traced (bus : Bus σ) (s : σ × List Access) :
    (maskInterrupts bus.traced s).2 = s.2 ++ [.output 0x21 0xff, .output 0xa1 0xff] :=
  List.append_assoc s.2 [Access.output 0x21 0xff] [.output 0xa1 0xff]

/-- The halt masks the interrupts and then uses the console. -/
theorem grows_halt (bus : Bus σ) {s : Console × (σ × List Access)} (h : s.1.On base) :
    Grows base [] (s.2.2 ++ [.output 0x21 0xff, .output 0xa1 0xff])
      (halt bus.traced s).2.2 := by
  rw [← maskInterrupts_traced bus s.2]
  exact (Console.uses_log (s := (s.1, maskInterrupts bus.traced s.2)) h bus _).grows

theorem uses_startConsole {bus : Bus σ} {settings : Settings}
    {serial : Option Coreboot.SerialRecord} {s : σ × List Access}
    {started : Console × (σ × List Access)}
    (h : startConsole bus.traced settings serial s = some started) :
    let base := (consoleSettings settings serial).1
    base.toNat + 7 < 2 ^ 16 ∧ started.1.On base ∧ Grows base [] s.2 started.2.2 := by
  intro base
  unfold startConsole at h
  dsimp only at h
  split at h
  · cases h
  · rename_i found console after hstart
    obtain ⟨hbase, hon, hgrows⟩ := Console.uses_start hstart
    cases h
    refine ⟨hbase, ?_, hgrows⟩
    -- A logger that is installed leaves the port alone.
    rw [Console.installLogger]
    split <;> exact hon

/-! ## The boot -/

/-- **The port accesses of a boot are confined.** The console of a boot that comes to its halt has
    eight ports below the top of the port space. All accesses of the boot are of eight bits and to
    these ports, but for three: the two writes that mask the interrupts, one after the other, and
    before them, while the list was built, a read of the PM1a control register, at the width and the
    port that the FADT gives, if it asks for one. When the interrupts are masked the list is as it
    is at the halt, whether or not it could be finished. -/
theorem accesses_run (bus : Bus σ) (mem : Memory) (settings : Settings) (addressBits : UInt8)
    (pointer : Address) (s : σ) {halted : Halted (σ × List Access)}
    (h : run bus.traced mem settings addressBits pointer (s, []) = some halted) :
    ∃ tables : Except Coreboot.TableError Coreboot.Info,
      (Coreboot.Info.read mem pointer).outcome = tables.mapError .cause ∧
      let serial := tables.toOption.bind (·.serial)
      let base := (consoleSettings settings serial).1
      base ≤ 0xfff8 ∧
      ∃ started, startConsole bus.traced settings serial (s, []) = some started ∧
        let built := buildFromTables bus.traced mem settings addressBits tables
          (log bus.traced .info s!"crab-payload {version} starting" started)
        built.list = halted.list ∧
        ∃ before probe between last after,
          built.state.2.2 = before ++ probe ++ between ∧
          halted.machine.2 =
            built.state.2.2 ++ last ++ [.output 0x21 0xff, .output 0xa1 0xff] ++ after ∧
          (∀ a ∈ before ++ between ++ last ++ after, a.AtDevice base) ∧
          (probe = [] ∨ ∃ width port value, probe = [.input width port value]) ∧
          ∀ width port, (∃ value, probe = [.input width port value]) ↔
            ∃ info, tables = .ok info ∧ ControlRegister settings mem info width port := by
  obtain ⟨tables, hread, hrun⟩ := exists_tables_of_run h
  refine ⟨tables, hread, ?_⟩
  intro serial base
  obtain ⟨started, hstarted, hlist, houtcome, hmachine⟩ := exists_built_of_runFromTables hrun
  obtain ⟨hbase, hon, hstart⟩ := uses_startConsole hstarted
  have hgreeted : Uses base [] started
      (log bus.traced .info s!"crab-payload {version} starting" started) :=
    Console.uses_log hon bus _
  have hcause : ∀ outcome : Except BootError Address, outcome.mapError Fault.cause ≠
      .error .overflow := by
    rintro (e | address) ⟨⟩
  obtain ⟨reads, hbuilt, hlength, hreads⟩ := uses_buildFromTables bus mem settings addressBits
    tables hgreeted.on (houtcome ▸ hcause halted.outcome)
  have hlogged := uses_logOutcome bus halted.outcome hbuilt.on
  obtain ⟨before, probe, between, htrace, hdevice, hprobe⟩ :=
    ((hstart.trans hgreeted.grows).trans hbuilt.grows).exists_probe hlength
  obtain ⟨last, hlast, hlastDevice⟩ := hlogged.grows
  obtain ⟨after, hafter, hafterDevice⟩ := grows_halt bus hlogged.on
  rw [hlast] at hafter
  refine ⟨?_, started, hstarted, hlist, before, probe, between, last, after, htrace,
    hmachine ▸ hafter, ?_, ?_, fun width port => ?_⟩
  · have hroom : base.toNat + 7 < 2 ^ 16 := hbase
    rw [UInt16.le_iff_toNat_le]
    show base.toNat ≤ 0xfff8
    omega
  · exact List.forall_mem_append.mpr ⟨List.forall_mem_append.mpr ⟨hdevice, hlastDevice.atDevice⟩,
      hafterDevice.atDevice⟩
  · rcases hprobe with ⟨-, hnone⟩ | ⟨width, port, value, -, hprobe⟩
    · exact .inl hnone
    · exact .inr ⟨width, port, value, hprobe⟩
  · rw [← hreads width port]
    rcases hprobe with ⟨rfl, rfl⟩ | ⟨width', port', value, rfl, rfl⟩
    · simp
    · simp

/-- A machine without devices: every port reads as ones. -/
def floatingBus : Bus Unit := ⟨fun _ _ s => (0xffffffff, s), fun _ _ s => s⟩

/-- The memory of a machine with a range of RAM and ACPI tables. -/
def boardMemory : Memory :=
  let table : Bytes := Coreboot.signature ++ Bytes.ofWord32 24 ++ Bytes.zeros 4
    ++ Bytes.ofWord32 44 ++ Bytes.zeros 4 ++ Bytes.ofWord32 2 ++ Bytes.ofWord32 0x01
    ++ Bytes.ofWord32 28 ++ Coreboot.RangeEntry.encode ⟨0, 0x1000, 1⟩
    ++ Coreboot.encodeRecords [.acpiRsdp 0xf0000 []]
  .sparse (boardTables ++ [.ofArray 0x10000 table.toArray])

/-- Without a device the console is given up after one try. The only read past it is the one that
    the tables describe. -/
theorem accesses_run_floating :
    ∃ halted, run floatingBus.traced boardMemory {} 39 0x10000 ((), []) = some halted ∧
      halted.machine.2 =
        [.output 0x3ff 0x55, .input .w8 0x3ff 0xffffffff, .input .w16 0x604 0xffffffff,
          .output 0x21 0xff, .output 0xa1 0xff] ∧
      ∃ info, ControlRegister {} boardMemory info .w16 0x604 := by
  have htrace : (run floatingBus.traced boardMemory {} 39 0x10000 ((), [])).map (·.machine.2) =
      some [.output 0x3ff 0x55, .input .w8 0x3ff 0xffffffff, .input .w16 0x604 0xffffffff,
        .output 0x21 0xff, .output 0xa1 0xff] := by
    decide +kernel
  obtain ⟨halted, hrun, htrace⟩ := Option.map_eq_some_iff.mp htrace
  refine ⟨halted, hrun, htrace, ?_⟩
  obtain ⟨tables, -, -, started, -, -, before, probe, between, last, after, hbuilt, hwhole, hdevice,
    hprobe, hregister⟩ := accesses_run floatingBus boardMemory {} 39 0x10000 () hrun
  -- The read of 16 bits is none of the console's, so it is the one that the tables account for.
  have hread : Access.input .w16 0x604 0xffffffff ∈ probe := by
    have hmem : Access.input .w16 0x604 0xffffffff ∈ halted.machine.2 := by
      rw [htrace]
      decide
    have hnone : Access.input .w16 0x604 0xffffffff ∉ before ++ between ++ last ++ after :=
      fun hread => by cases (hdevice _ hread).1
    rw [hwhole, hbuilt] at hmem
    simp only [List.mem_append, not_or] at hmem hnone
    obtain ⟨⟨⟨hbefore, hbetween⟩, hlast⟩, hafter⟩ := hnone
    simpa [hbefore, hbetween, hlast, hafter] using hmem
  rcases hprobe with rfl | ⟨width, port, value, rfl⟩
  · cases hread
  · cases List.mem_singleton.mp hread
    obtain ⟨info, -, hregister⟩ := (hregister .w16 0x604).mp ⟨_, rfl⟩
    exact ⟨info, hregister⟩

end Boot

end BootHandoff
