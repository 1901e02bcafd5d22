/-
  What the next boot stage decodes. The data under each GUID is described field by field, at the
  offsets that a consumer reads (`ShownIn`), and so is what it reads as zero. A hand-off that
  succeeds into a list leaves the locations of the tables and the board information in it exactly
  once each, and the display mode exactly once if there is a framebuffer to use
  (`dataUnder_describePlatform`); what is read there is what the hand-off returned.
-/
import BootHandoff.Proofs.Handoff.Course
import BootHandoff.Proofs.Handoff.Exhaustion
import BootHandoff.Proofs.Hob.Naming

namespace BootHandoff

open Procedure (Host)

/-! ## The data -/

/-- The board information as it is read from its 72 bytes. -/
structure BoardInfo.ShownIn (b : BoardInfo) (data : Bytes) : Prop where
  length_eq : data.length = 72
  resetValue : data.byte 3 = b.resetValue
  pmEvent : data.word64 8 = b.pmEvent
  pmGpeEnable : data.word64 16 = b.pmGpeEnable
  pmControl : data.word64 24 = b.pmControl
  pmTimer : data.word64 32 = b.pmTimer
  resetRegister : data.word64 40 = b.resetRegister
  pcieBase : data.word64 48 = b.pcieBase
  pcieSize : data.word64 56 = b.pcieSize
  tpm20 : data.byte 64 = if b.tpm20 then 1 else 0
  tpm12 : data.byte 65 = if b.tpm12 then 1 else 0
  zeros : data.slice 0 3 = Bytes.zeros 3 ∧ data.slice 4 4 = Bytes.zeros 4 ∧
    data.slice 66 6 = Bytes.zeros 6

/-- Both locations as they are read from 32 bytes. -/
structure TableLocations.ShownIn (t : TableLocations) (data : Bytes) : Prop where
  length_eq : data.length = 32
  acpiBase : data.word64 0 = t.acpiBase
  acpiSize : data.word32 8 = t.acpiSize
  smbiosBase : data.word64 16 = t.smbiosBase
  smbiosSize : data.word32 24 = t.smbiosSize
  zeros : data.slice 12 4 = Bytes.zeros 4 ∧ data.slice 28 4 = Bytes.zeros 4

/-- One table as it is read from 16 bytes: revision 1, the size of the structure, and the address
    of the table. -/
structure TableLocations.UniversalIn (table : Address) (data : Bytes) : Prop where
  length_eq : data.length = 16
  revision : data.byte 0 = 1
  size : data.word16 2 = 16
  address : data.word64 8 = table
  zeros : data.byte 1 = 0 ∧ data.slice 4 4 = Bytes.zeros 4

/-- A display mode as it is read from its 48 bytes. -/
structure DisplayMode.ShownIn (g : DisplayMode) (data : Bytes) : Prop where
  length_eq : data.length = 48
  base : data.word64 0 = g.base
  size : data.word32 8 = g.size
  version : data.word32 12 = 0
  horizontalResolution : data.word32 16 = g.horizontalResolution
  verticalResolution : data.word32 20 = g.verticalResolution
  pixelFormat : (g.pixelFormat = .redGreenBlue → data.word32 24 = 0) ∧
    (g.pixelFormat = .blueGreenRed → data.word32 24 = 1) ∧
    (g.pixelFormat = .bitMask → data.word32 24 = 2)
  redMask : data.word32 28 = g.redMask
  greenMask : data.word32 32 = g.greenMask
  blueMask : data.word32 36 = g.blueMask
  reservedMask : data.word32 40 = g.reservedMask
  pixelsPerScanLine : data.word32 44 = g.pixelsPerScanLine

section

open Bytes

-- A field is found by leaving out, one after another, the strings in front of it.
attribute [local simp] word32 word64 slice_append_of_le slice_cons_succ slice_append_of_length
  slice_of_length byte_append_of_le byte_cons_zero byte_cons_succ value_ofWord32 value_ofWord64

theorem BoardInfo.shownIn_encode (b : BoardInfo) : b.ShownIn b.encode := by
  have htpm20 : b.encode.byte 64 = b.tpm20.toUInt8 := by simp [encode]
  have htpm12 : b.encode.byte 65 = b.tpm12.toUInt8 := by simp [encode]
  constructor
  case resetValue => rfl
  case tpm20 =>
    rw [htpm20]
    cases b.tpm20 <;> rfl
  case tpm12 =>
    rw [htpm12]
    cases b.tpm12 <;> rfl
  case zeros => exact ⟨rfl, rfl, by simp [encode]⟩
  all_goals simp [encode]

theorem TableLocations.shownIn_encode (t : TableLocations) : t.ShownIn t.encode := by
  constructor <;> simp [encode]

theorem TableLocations.universalIn_encodeUniversal (table : Address) :
    UniversalIn table (encodeUniversal table) := by
  refine ⟨length_encodeUniversal table, rfl, rfl, ?_, rfl, rfl⟩
  simp [encodeUniversal]

theorem DisplayMode.shownIn_encode (g : DisplayMode) : g.ShownIn g.encode := by
  have hformat : g.encode.word32 24 = g.pixelFormat.code := by simp [encode]
  constructor
  case pixelFormat =>
    rw [hformat]
    cases g.pixelFormat <;> decide
  all_goals simp [encode]

end

/-! ## The blocks with a name -/

namespace Handoff

open Hob (filledUnder)

/-- The names of the blocks of the hand-off that have one. -/
def names : List Guid :=
  [Guid.systemTableInfo, Guid.universalSmbiosTable, Guid.universalAcpiTable, Guid.acpiBoardInfo,
    Guid.graphicsInfo]

/-- The data of the hand-off with the names that it is found under. -/
def named (info : Coreboot.Info) (locations : TableLocations) (board : BoardInfo) :
    List (Guid × Bytes) :=
  ((info.framebuffer.bind DisplayMode.ofFramebuffer?).toList.map fun mode =>
    (Guid.graphicsInfo, mode.encode)) ++
  [(Guid.systemTableInfo, locations.encode),
    (Guid.universalSmbiosTable, TableLocations.encodeUniversal locations.smbiosBase),
    (Guid.universalAcpiTable, TableLocations.encodeUniversal locations.acpiBase),
    (Guid.acpiBoardInfo, board.encode)]

variable {info : Coreboot.Info} {locations : TableLocations} {board : BoardInfo} {name : Guid}

theorem nodup_named : ((named info locations board).map Prod.fst).Nodup := by
  rw [named, List.map_append, List.map_map]
  cases info.framebuffer.bind DisplayMode.ofFramebuffer? with
  | none => exact (by decide +kernel : (names.take 4).Nodup)
  | some mode => exact (by decide +kernel : (Guid.graphicsInfo :: names.take 4).Nodup)

theorem eight_dvd_length_named : ∀ x ∈ named info locations board, 8 ∣ x.2.length := by
  intro x hx
  rcases List.mem_append.mp hx with hx | hx
  · obtain ⟨mode, -, rfl⟩ := List.mem_map.mp hx
    rw [DisplayMode.length_encode]
    decide
  · simp only [List.mem_cons, List.not_mem_nil, or_false] at hx
    rcases hx with rfl | rfl | rfl | rfl
    · rw [TableLocations.length_encode]
      decide
    · rw [TableLocations.length_encodeUniversal]
      decide
    · rw [TableLocations.length_encodeUniversal]
      decide
    · rw [BoardInfo.length_encode]
      decide

/-- The entries of the memory map have no names. -/
theorem guid_notMem_dramHobs (map : List Region) (data : Bytes) :
    Hob.guid name data ∉ map.flatMap dramHobs := by
  intro hmem
  obtain ⟨r, -, hmem⟩ := List.mem_flatMap.mp hmem
  unfold dramHobs at hmem
  cases hr : r.type <;> simp [hr] at hmem

theorem guid_notMem_reservedHobs (map : List Region) (tolud : Tolud) (pcieBase : Address)
    (data : Bytes) : Hob.guid name data ∉ map.flatMap (reservedHobs tolud pcieBase) := by
  intro hmem
  obtain ⟨r, -, hmem⟩ := List.mem_flatMap.mp hmem
  unfold reservedHobs at hmem
  cases hr : r.type <;> simp [hr] at hmem

/-- Of all blocks of the platform only those with a name matter here. -/
theorem filledUnder_platform :
    filledUnder name
        (bootLoaderHobs info ++ (locationHobs locations ++ surveyedHobs info board)) =
      filledUnder name (Hob.ofNamed (named info locations board)) := by
  have hnamed : Hob.ofNamed (named info locations board) =
      graphicsHobs info.framebuffer ++ (locationHobs locations ++ [boardHob board]) := by
    rw [Hob.ofNamed, named, List.map_append, List.map_map]
    rfl
  have hdram : filledUnder name (info.memoryMap.flatMap dramHobs) = [] :=
    Hob.filledUnder_eq_nil (guid_notMem_dramHobs _)
  have hreserved : filledUnder name (info.memoryMap.flatMap
      (reservedHobs (Tolud.estimate info.memoryMap) board.pcieBase)) = [] :=
    Hob.filledUnder_eq_nil (guid_notMem_reservedHobs _ _ _)
  rw [hnamed, bootLoaderHobs, surveyedHobs, List.append_cons (locationHobs locations)]
  simp only [Hob.filledUnder_append, hdram, hreserved, List.nil_append, List.append_nil]

theorem named_subset_names {x : Guid × Bytes} (h : x ∈ named info locations board) :
    x.1 ∈ names := by
  rcases List.mem_append.mp h with h | h
  · obtain ⟨mode, -, rfl⟩ := List.mem_map.mp h
    simp [names]
  · simp only [List.mem_cons, List.not_mem_nil, or_false] at h
    rcases h with rfl | rfl | rfl | rfl <;> simp [names]

/-- Only a framebuffer that can be used has data under the name of the display mode. -/
theorem exists_mode_of_mem_named {bytes : Bytes}
    (h : (Guid.graphicsInfo, bytes) ∈ named info locations board) :
    ∃ fb mode, info.framebuffer = some fb ∧ DisplayMode.ofFramebuffer? fb = some mode := by
  rcases List.mem_append.mp h with h | h
  · obtain ⟨mode, hmode, -⟩ := List.mem_map.mp h
    obtain ⟨fb, hfb, hmode⟩ := Option.bind_eq_some_iff.mp (Option.mem_toList.mp hmode)
    exact ⟨fb, mode, hfb, hmode⟩
  · have hother : Guid.graphicsInfo ∈ names.take 4 := List.mem_map_of_mem (f := Prod.fst) h
    exact absurd hother (by decide +kernel)

/-! ## The list -/

/-- A hand-off that succeeds leaves the blocks of the platform in the list, after those that were
    there. -/
theorem holds_of_describePlatform {σ : Type} {host : Host σ} {memory : HobList → Memory} {s : σ}
    {l : HobList} {held : List Hob} (hl : l.Holds held) {summary : Summary}
    (hok : ((describePlatform info).run host Sink.hobList memory s l).outcome = .ok summary) :
    ((describePlatform info).run host Sink.hobList memory s l).sink.Holds
      (held ++ (bootLoaderHobs info ++ (locationHobs summary.tableLocations ++
        surveyedHobs info summary.boardInfo))) := by
  obtain ⟨reads, hcourse⟩ := course_run host Sink.hobList memory info s l
  rw [hok] at hcourse
  obtain ⟨l₁, l₂, rsdp, fadt, hsurveys, hfinished⟩ := hcourse.surveys_of_ok
  have hdescribed := hl.deliver hsurveys.described
  have hannounced := hdescribed.deliver hsurveys.announced
  have hall := hannounced.deliver hfinished
  simpa only [List.append_assoc] using hall

/-- **What the next stage decodes.** Let a hand-off into a list succeed, where blocks may have been
    offered to the list before, none of them under one of the five names. Whoever then goes through
    the bytes of the list finds each name once, that of the display mode only if there is a
    framebuffer to use, and reads under them the locations and the board information that the
    hand-off returned, and the mode. -/
theorem dataUnder_describePlatform {σ : Type} (host : Host σ) (memory : HobList → Memory)
    (info : Coreboot.Info) (s : σ) {window : Window} {base memoryBottom memoryTop : Address}
    {start : HobList} (hstart : HobList.create window base memoryBottom memoryTop = .ok start)
    {earlier : List Hob} (hearlier : ∀ name ∈ names, ∀ data, Hob.guid name data ∉ earlier)
    {summary : Summary}
    (hok : ((describePlatform info).run host Sink.hobList memory s
      (start.offerAll earlier)).outcome = .ok summary) :
    let run := (describePlatform info).run host Sink.hobList memory s (start.offerAll earlier)
    let found (name : Guid) := Hob.dataUnder name (Hob.items run.sink.bytes)
    (∃ data, found Guid.systemTableInfo = [data] ∧ summary.tableLocations.ShownIn data) ∧
    (∃ data, found Guid.universalSmbiosTable = [data] ∧
      TableLocations.UniversalIn summary.tableLocations.smbiosBase data) ∧
    (∃ data, found Guid.universalAcpiTable = [data] ∧
      TableLocations.UniversalIn summary.tableLocations.acpiBase data) ∧
    (∃ data, found Guid.acpiBoardInfo = [data] ∧ summary.boardInfo.ShownIn data) ∧
    (∀ fb, info.framebuffer = some fb → fb.address ≠ 0 → fb.bitsPerPixel ≠ 0 →
      ∃ mode data, DisplayMode.ofFramebuffer? fb = some mode ∧
        found Guid.graphicsInfo = [data] ∧ mode.ShownIn data) ∧
    ((∀ fb, info.framebuffer = some fb → fb.address = 0 ∨ fb.bitsPerPixel = 0) →
      found Guid.graphicsInfo = []) := by
  intro run found
  have hholds := holds_of_describePlatform (HobList.holds_offerAll hstart earlier) hok
  let data := named info summary.tableLocations summary.boardInfo
  have hfound : ∀ name ∈ names, found name = Hob.filledUnder name (Hob.ofNamed data) := by
    intro name hname
    have hbefore : Hob.filledUnder name (start.accepted earlier) = [] := by
      apply Hob.filledUnder_eq_nil
      intro data hmem
      exact hearlier name hname data (HobList.mem_of_mem_accepted hmem)
    show Hob.dataUnder name (Hob.items run.sink.bytes) = _
    rw [hholds.dataUnder_bytes, Hob.filledUnder_append, hbefore, List.nil_append,
      filledUnder_platform]
  have hone : ∀ {name bytes}, (name, bytes) ∈ data → found name = [bytes] := by
    intro name bytes hmem
    rw [hfound name (named_subset_names hmem)]
    exact Hob.filledUnder_ofNamed nodup_named eight_dvd_length_named hmem
  refine ⟨⟨_, hone ?_, TableLocations.shownIn_encode _⟩,
    ⟨_, hone ?_, TableLocations.universalIn_encodeUniversal _⟩,
    ⟨_, hone ?_, TableLocations.universalIn_encodeUniversal _⟩,
    ⟨_, hone ?_, BoardInfo.shownIn_encode _⟩, ?_, ?_⟩
  iterate 4
    apply List.mem_append_right
    simp
  · intro fb hfb haddress hdepth
    have hmode : DisplayMode.ofFramebuffer? fb = some _ := if_neg (by simp [haddress, hdepth])
    refine ⟨_, _, hmode, hone ?_, DisplayMode.shownIn_encode _⟩
    apply List.mem_append_left
    rw [hfb, Option.bind_some, hmode]
    exact List.mem_singleton_self _
  · intro hnone
    rw [hfound Guid.graphicsInfo (by simp [names])]
    apply Hob.filledUnder_eq_nil
    intro bytes hmem
    obtain ⟨fb, mode, hfb, hmode⟩ := exists_mode_of_mem_named (Hob.mem_ofNamed_iff.mp hmem)
    have hrefused : DisplayMode.ofFramebuffer? fb = none := if_pos (hnone fb hfb)
    rw [hrefused] at hmode
    cases hmode

/-- What the hand-off returns on the machine with tables. -/
def boardSummary : Summary where
  tolud := ⟨0x1000⟩
  tableLocations := ⟨0xf0000, 36, 0, 0⟩
  boardInfo := ⟨0x604, 0x608, 0xcf9, 6, 0x600, 0x624, 0xe0000000, 0x10000000, false, true⟩

/-- The list already has a block for the processor. The next stage finds the board information of
    the machine, with a module of version 2.0 and none of version 1.2. -/
theorem dataUnder_describePlatform_board :
    ∃ start, HobList.create (.fill 1024 0xaa) 0xd00000 0x800000 0x4d00000 = .ok start ∧
      let run := (describePlatform Boot.smallInfo).run Boot.silentHost Sink.hobList
        (fun _ => .sparse Boot.boardTables) () (start.offerAll [.cpu 39 16])
      run.outcome = .ok boardSummary ∧
        ∃ data, Hob.dataUnder Guid.acpiBoardInfo (Hob.items run.sink.bytes) = [data] ∧
          data.word64 8 = 0x600 ∧ data.word64 24 = 0x604 ∧ data.byte 64 = 1 ∧ data.byte 65 = 0 := by
  refine ⟨_, rfl, ?_⟩
  intro run
  have hok : run.outcome = .ok boardSummary := by decide +kernel
  have hearlier : ∀ name ∈ names, ∀ data, Hob.guid name data ∉ [Hob.cpu 39 16] := by
    intro name _ data hmem
    cases List.mem_singleton.mp hmem
  obtain ⟨-, -, -, ⟨data, hfound, hshown⟩, -⟩ := dataUnder_describePlatform Boot.silentHost
    (fun _ => .sparse Boot.boardTables) Boot.smallInfo ()
    (show HobList.create (.fill 1024 0xaa) 0xd00000 0x800000 0x4d00000 = .ok _ from rfl)
    hearlier hok
  exact ⟨hok, data, hfound, hshown.pmEvent, hshown.pmControl, hshown.tpm20, hshown.tpm12⟩

end Handoff

end BootHandoff
