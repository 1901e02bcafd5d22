/-
  The blocks of a hand-off and their order, said directly: for each part of the description of the
  platform the blocks that it consists of. `run_describe_recorder` is the order of the whole: DRAM,
  framebuffer, table locations, board information, the rest of the memory map, and the payload.
  Where the hand-off stops early, for want of a root pointer or of the board information, the blocks
  up to that point and no others are sent.
-/
import BootHandoff.Boot
import BootHandoff.Proofs.Procedure.Sending

namespace BootHandoff

open Procedure (Sends Writes)

/-! ## The parts -/

namespace Handoff

/-- The blocks of a DRAM entry of the memory map, none for any other. ACPI data stays allocated. -/
def dramHobs (r : Region) : List Hob :=
  let resource := Hob.resource .systemMemory Attributes.memoryMap r.start r.size
  match r.type with
  | .ram => [resource]
  | .acpi => [resource, .allocation r.start r.size Allocation.acpiReclaim.memoryType]
  | .nvs => [resource, .allocation r.start r.size Allocation.acpiNvs.memoryType]
  | .reserved | .unusable | .disabled | .persistent => []

/-- The blocks of an entry of the memory map that is not DRAM, none for DRAM. -/
def reservedHobs (tolud : Tolud) (pcieBase : Address) (r : Region) : List Hob :=
  let kind := MemoryMap.reservedKind tolud pcieBase r.start
  let resource := Hob.resource kind Attributes.memoryMap r.start r.size
  match r.type with
  | .ram | .acpi | .nvs => []
  | .reserved => [resource]
  | .unusable | .disabled =>
    [resource, .allocation r.start r.size Allocation.unusable.memoryType]
  | .persistent => [resource, .allocation r.start r.size Allocation.persistent.memoryType]

/-- The block of a framebuffer that can be used. -/
def graphicsHobs (framebuffer : Option Coreboot.Framebuffer) : List Hob :=
  (framebuffer.bind DisplayMode.ofFramebuffer?).toList.map fun mode =>
    .guid Guid.graphicsInfo mode.encode

/-- The blocks that tell where the tables are. -/
def locationHobs (t : TableLocations) : List Hob :=
  [.guid Guid.systemTableInfo t.encode,
    .guid Guid.universalSmbiosTable (TableLocations.encodeUniversal t.smbiosBase),
    .guid Guid.universalAcpiTable (TableLocations.encodeUniversal t.acpiBase)]

/-- The block of the board information. -/
def boardHob (b : BoardInfo) : Hob := .guid Guid.acpiBoardInfo b.encode

theorem flatMap_hobs_usable (map : List Region) :
    (MemoryMap.usable map).flatMap Descriptor.hobs = map.flatMap dramHobs := by
  induction map with
  | nil => rfl
  | cons r map ih =>
    rw [List.flatMap_cons, ← ih]
    obtain ⟨start, size, type⟩ := r
    cases type <;> rfl

theorem flatMap_hobs_reserved (map : List Region) (tolud : Tolud) (pcieBase : Address) :
    (MemoryMap.reserved map tolud pcieBase).flatMap Descriptor.hobs =
      map.flatMap (reservedHobs tolud pcieBase) := by
  induction map with
  | nil => rfl
  | cons r map ih =>
    rw [List.flatMap_cons, ← ih]
    obtain ⟨start, size, type⟩ := r
    cases type <;> rfl

theorem graphicsHobs_eq_nil_iff (framebuffer : Option Coreboot.Framebuffer) :
    graphicsHobs framebuffer = [] ↔
      ∀ fb, framebuffer = some fb → fb.address = 0 ∨ fb.bitsPerPixel = 0 := by
  cases framebuffer with
  | none => simp [graphicsHobs]
  | some fb =>
    simp only [graphicsHobs, Option.bind_some, DisplayMode.ofFramebuffer?, Option.some.injEq,
      forall_eq']
    split <;> simp_all

/-! ## Writing the parts -/

section

variable {ε : Type}

theorem writes_descriptor (d : Descriptor) :
    Writes (d.publish : Procedure ε Unit) d.hobs (.done ()) :=
  (Procedure.writes_log ..).silent_bind (Procedure.writes_forM_emit d.hobs)

theorem writes_usable (map : List Region) :
    Writes ((MemoryMap.usable map).forM Descriptor.publish : Procedure ε Unit)
      (map.flatMap dramHobs) (.done ()) := by
  rw [← flatMap_hobs_usable]
  exact Procedure.writes_forM writes_descriptor _

theorem writes_reserved (map : List Region) (tolud : Tolud) (pcieBase : Address) :
    Writes ((MemoryMap.reserved map tolud pcieBase).forM Descriptor.publish : Procedure ε Unit)
      (map.flatMap (reservedHobs tolud pcieBase)) (.done ()) := by
  rw [← flatMap_hobs_reserved]
  exact Procedure.writes_forM writes_descriptor _

theorem writes_guessTolud (map : List Region) :
    Writes (guessTolud map : Procedure ε Tolud) [] (.done (Tolud.estimate map)) := by
  have hwarnings : Writes ((Tolud.estimate map).warnings.forM fun r =>
      Procedure.note r (.done ()) : Procedure ε Unit) [] (.done ()) := by
    rw [Tolud.warnings]
    split
    · exact .note (.rest _)
    · exact .rest _
  exact (Procedure.writes_log ..).silent_bind
    (hwarnings.silent_bind ((Procedure.writes_log ..).silent_bind (.rest _)))

theorem writes_publishFramebuffer (framebuffer : Option Coreboot.Framebuffer) :
    Writes (publishFramebuffer framebuffer : Procedure ε Unit) (graphicsHobs framebuffer)
      (.done ()) := by
  cases framebuffer with
  | none => exact Procedure.writes_log ..
  | some fb =>
    rw [publishFramebuffer, graphicsHobs, Option.bind_some]
    cases DisplayMode.ofFramebuffer? fb with
    | none => exact Procedure.writes_log ..
    | some mode => exact (Procedure.writes_emit _).bind (Procedure.writes_log ..)

theorem writes_locations (t : TableLocations) :
    Writes (t.publish : Procedure ε Unit) (locationHobs t) (.done ()) :=
  (Procedure.writes_emit _).bind ((Procedure.writes_emit _).bind
    ((Procedure.writes_log ..).silent_bind
      ((Procedure.writes_emit _).bind (Procedure.writes_log ..))))

end

/-! ## Writing the whole -/

/-- The hand-off once the board information is known. -/
def finish (info : Coreboot.Info) (locations : TableLocations) (board : BoardInfo) :
    Procedure Acpi.AcpiError Summary := do
  let tolud := Tolud.estimate info.memoryMap
  Procedure.emit (boardHob board)
  Procedure.log .handoff .debug "Created ACPI board info HOB"
  Procedure.log .handoff .info "Building resource descriptors for reserved memory:"
  (MemoryMap.reserved info.memoryMap tolud board.pcieBase).forM Descriptor.publish
  pure ⟨tolud, locations, board⟩

/-- The hand-off once the root pointer is found. -/
def publishTables (info : Coreboot.Info) (found : TableLocations × Acpi.Rsdp) :
    Procedure Acpi.AcpiError Summary := do
  found.1.publish
  let board ← BoardInfo.survey found.2
  finish info found.1 board

/-- The blocks that follow from the facts of the boot loader alone. -/
def bootLoaderHobs (info : Coreboot.Info) : List Hob :=
  info.memoryMap.flatMap dramHobs ++ graphicsHobs info.framebuffer

/-- Up to the search for the root pointer the hand-off writes what the boot loader's facts give. -/
theorem writes_describePlatform (info : Coreboot.Info) :
    Writes (describePlatform info) (bootLoaderHobs info)
      (Procedure.examine (fun mem => TableLocations.find mem info) >>= publishTables info) :=
  (writes_guessTolud _).silent_bind ((Procedure.writes_log ..).silent_bind
    ((writes_usable _).bind ((writes_publishFramebuffer _).bind_rest _)))

theorem writes_publishTables (info : Coreboot.Info) (locations : TableLocations)
    (rsdp : Acpi.Rsdp) :
    Writes (publishTables info (locations, rsdp)) (locationHobs locations)
      (BoardInfo.survey rsdp >>= finish info locations) :=
  (writes_locations locations).bind_rest _

theorem writes_finish (info : Coreboot.Info) (locations : TableLocations) (board : BoardInfo) :
    let tolud := Tolud.estimate info.memoryMap
    Writes (finish info locations board)
      (boardHob board :: info.memoryMap.flatMap (reservedHobs tolud board.pcieBase))
      (.done ⟨tolud, locations, board⟩) :=
  (Procedure.writes_emit (boardHob board)).bind ((Procedure.writes_log ..).silent_bind
    ((Procedure.writes_log ..).silent_bind ((writes_reserved _ _ _).bind_rest _)))

/-! ## Sending the whole -/

variable {ε : Type} (mem : Memory)

/-- The SCI diagnostic sends nothing, and what follows it does not depend on its result. -/
theorem sends_sciCheck_bind {α : Type} (fadt : Acpi.Fadt) {next : Procedure ε α}
    {hobs : List Hob} {outcome : Except (Fault ε) α} (h : Sends mem next hobs outcome) :
    Sends mem (SciCheck.run fadt >>= fun _ => next) hobs outcome := by
  rw [SciCheck.run]
  split
  · exact h
  · refine .readPort fun control => ?_
    show Sends mem (Procedure.bind (ite _ _ _) _) _ _
    split
    · exact .note h
    · exact h

theorem sends_survey {rsdp : Acpi.Rsdp} {board : BoardInfo} {fadt : Acpi.Fadt}
    (h : (BoardInfo.find mem rsdp).outcome = .ok (board, fadt)) :
    Sends mem (BoardInfo.survey rsdp) [] (.ok board) := by
  have hfind := Procedure.sends_examine mem fun mem => BoardInfo.find mem rsdp
  rw [h] at hfind
  exact hfind.silent_bind (sends_sciCheck_bind mem fadt (.done board))

theorem sends_survey_error {rsdp : Acpi.Rsdp} {fault : Fault Acpi.AcpiError}
    (h : (BoardInfo.find mem rsdp).outcome = .error fault) :
    Sends mem (BoardInfo.survey rsdp) [] (.error fault) := by
  have hfind := Procedure.sends_examine mem fun mem => BoardInfo.find mem rsdp
  rw [h] at hfind
  exact hfind.bind_error _

variable {info : Coreboot.Info} {locations : TableLocations} {rsdp : Acpi.Rsdp}
  {board : BoardInfo} {fadt : Acpi.Fadt}

theorem sends_describePlatform_of_find_error {fault : Fault Acpi.AcpiError}
    (h : (TableLocations.find mem info).outcome = .error fault) :
    Sends mem (describePlatform info) (bootLoaderHobs info) (.error fault) := by
  have hfind := Procedure.sends_examine mem fun mem => TableLocations.find mem info
  rw [h] at hfind
  have hall := (writes_describePlatform info).sends (hfind.bind_error (publishTables info))
  rwa [List.append_nil] at hall

/-- The hand-off from the root pointer on. -/
theorem sends_describePlatform_of_find {hobs : List Hob}
    {outcome : Except (Fault Acpi.AcpiError) Summary}
    (hfind : (TableLocations.find mem info).outcome = .ok (locations, rsdp))
    (h : Sends mem (BoardInfo.survey rsdp >>= finish info locations) hobs outcome) :
    Sends mem (describePlatform info)
      (bootLoaderHobs info ++ (locationHobs locations ++ hobs)) outcome := by
  have hexamine := Procedure.sends_examine mem fun mem => TableLocations.find mem info
  rw [hfind] at hexamine
  exact (writes_describePlatform info).sends
    (hexamine.silent_bind ((writes_publishTables info locations rsdp).sends h))

theorem sends_describePlatform_of_board_error {fault : Fault Acpi.AcpiError}
    (hfind : (TableLocations.find mem info).outcome = .ok (locations, rsdp))
    (hboard : (BoardInfo.find mem rsdp).outcome = .error fault) :
    Sends mem (describePlatform info) (bootLoaderHobs info ++ locationHobs locations)
      (.error fault) := by
  have h := sends_describePlatform_of_find mem hfind
    ((sends_survey_error mem hboard).bind_error (finish info locations))
  rwa [List.append_nil] at h

theorem sends_describePlatform_of_board
    (hfind : (TableLocations.find mem info).outcome = .ok (locations, rsdp))
    (hboard : (BoardInfo.find mem rsdp).outcome = .ok (board, fadt)) :
    let tolud := Tolud.estimate info.memoryMap
    Sends mem (describePlatform info)
      (bootLoaderHobs info ++ (locationHobs locations ++
        boardHob board :: info.memoryMap.flatMap (reservedHobs tolud board.pcieBase)))
      (.ok ⟨tolud, locations, board⟩) :=
  sends_describePlatform_of_find mem hfind
    ((sends_survey mem hboard).silent_bind ((writes_finish info locations board).sends_all mem))

end Handoff

namespace Boot

open Handoff

variable {σ : Type} (mem : Memory)

theorem sends_describe_error {settings : Settings} {addressBits : UInt8} {info : Coreboot.Info}
    {hobs : List Hob} {fault : Fault Acpi.AcpiError}
    (h : Sends mem (describePlatform info) hobs (.error fault)) :
    Sends mem (describe settings addressBits info) hobs (.error fault) := h.bind_error _

theorem sends_describe (settings : Settings) (addressBits : UInt8) {info : Coreboot.Info}
    {hobs : List Hob} {summary : Summary}
    (h : Sends mem (describePlatform info) hobs (.ok summary)) :
    Sends mem (describe settings addressBits info) (hobs ++ payloadHobs settings addressBits)
      (.ok summary) :=
  h.bind (((Procedure.writes_forM_emit (payloadHobs settings addressBits)).sends_all mem).then_pure
    summary)

/-- **The order of the hand-off.** With a sink that accepts everything the blocks come in one
    order, and where the hand-off stops early they are exactly those before that point. -/
theorem run_describe_recorder (host : Procedure.Host σ) (settings : Settings)
    (addressBits : UInt8) (info : Coreboot.Info) (s : σ) :
    let run := (describe settings addressBits info).run host (Sink.recorder none)
      (fun _ => mem) s []
    let usable := info.memoryMap.flatMap dramHobs
    let graphics := graphicsHobs info.framebuffer
    let tolud := Tolud.estimate info.memoryMap
    (graphics = [] ↔
      ∀ fb, info.framebuffer = some fb → fb.address = 0 ∨ fb.bitsPerPixel = 0) ∧
    match (TableLocations.find mem info).outcome with
    | .error fault =>
      run.sink = usable ++ graphics ∧ run.outcome = .error (Procedure.faultOf fault)
    | .ok (locations, rsdp) =>
      match (BoardInfo.find mem rsdp).outcome with
      | .error fault =>
        run.sink = usable ++ graphics ++ locationHobs locations ∧
          run.outcome = .error (Procedure.faultOf fault)
      | .ok (board, _) =>
        run.sink = usable ++ graphics ++ locationHobs locations ++ [boardHob board] ++
            info.memoryMap.flatMap (reservedHobs tolud board.pcieBase) ++
            [.allocation settings.imageBase settings.imageSize bootServicesData,
              .cpu addressBits ioBits,
              .resource .memoryMappedIo Attributes.deviceWindow settings.ioApicBase
                settings.ioApicSize,
              .allocation settings.ioApicBase settings.ioApicSize memoryMappedIo] ∧
          run.outcome = .ok ⟨tolud, locations, board⟩ := by
  intro run usable graphics tolud
  -- What is sent is what the recorder holds, and the end is that of the procedure.
  have hrun : ∀ {hobs outcome}, Sends mem (describe settings addressBits info) hobs outcome →
      run.sink = hobs ∧ run.outcome = outcome.mapError Procedure.faultOf := by
    intro hobs outcome h
    have hr := Procedure.run_of_sends h host (Sink.recorder none) s []
    rw [Sink.deliver_recorder] at hr
    exact hr
  refine ⟨graphicsHobs_eq_nil_iff _, ?_⟩
  cases hfind : (TableLocations.find mem info).outcome with
  | error fault =>
    exact hrun (sends_describe_error mem (sends_describePlatform_of_find_error mem hfind))
  | ok found =>
    obtain ⟨locations, rsdp⟩ := found
    dsimp only
    cases hboard : (BoardInfo.find mem rsdp).outcome with
    | error fault =>
      exact hrun (sends_describe_error mem
        (sends_describePlatform_of_board_error mem hfind hboard))
    | ok found =>
      obtain ⟨board, fadt⟩ := found
      have h := hrun (sends_describe mem settings addressBits
        (sends_describePlatform_of_board mem hfind hboard))
      refine ⟨h.1.trans ?_, h.2⟩
      simp only [bootLoaderHobs, payloadHobs, List.append_assoc, List.cons_append,
        List.nil_append, usable, graphics, tolud]

end Boot

end BootHandoff
