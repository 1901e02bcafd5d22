/-
  How much room the hand-off needs. Every entry of the memory map takes 96 bytes at most, counted
  over both passes; the blocks with a GUID take 304 and those of the payload 160; the table and the
  closing block of a list take 64. As the map has no more than 128 entries, 12816 bytes are room
  for any machine (`run_describe_room`): a hand-off into a window of that size ends with a value or
  with a failure of its own, never for want of room.
-/
import BootHandoff.Proofs.Boot.Halting
import BootHandoff.Proofs.Coreboot.Limits
import BootHandoff.Proofs.Coreboot.Printing
import BootHandoff.Proofs.Handoff.Course
import BootHandoff.Proofs.Handoff.Exhaustion

namespace BootHandoff

open Hob (totalSize)
open HobList (Takes)
open Procedure (Ends Host StopCause)

variable {σ : Type}

/-! ## The room that blocks take -/

namespace Hob

theorem totalSize_append (hobs more : List Hob) :
    totalSize (hobs ++ more) = totalSize hobs + totalSize more := by
  induction hobs with
  | nil => exact (Nat.zero_add _).symm
  | cons hob hobs ih => rw [List.cons_append, totalSize, totalSize, ih, Nat.add_assoc]

end Hob

namespace Handoff

/-- An entry of the memory map takes room for two blocks, in one of the two passes. -/
theorem totalSize_region_le (r : Region) (tolud : Tolud) (pcieBase : Address) :
    totalSize (dramHobs r) + totalSize (reservedHobs tolud pcieBase r) ≤ 96 := by
  unfold dramHobs reservedHobs
  cases r.type <;> simp [totalSize, Hob.size_resource, Hob.size_allocation]

theorem totalSize_map_le (map : List Region) (tolud : Tolud) (pcieBase : Address) :
    totalSize (map.flatMap dramHobs) + totalSize (map.flatMap (reservedHobs tolud pcieBase)) ≤
      96 * map.length := by
  induction map with
  | nil => exact Nat.le_refl 0
  | cons r map ih =>
    have hfirst := totalSize_region_le r tolud pcieBase
    rw [List.flatMap_cons, List.flatMap_cons, Hob.totalSize_append, Hob.totalSize_append,
      List.length_cons]
    omega

theorem totalSize_graphicsHobs_le (framebuffer : Option Coreboot.Framebuffer) :
    totalSize (graphicsHobs framebuffer) ≤ 72 := by
  rw [graphicsHobs]
  cases framebuffer.bind DisplayMode.ofFramebuffer? with
  | none => exact Nat.zero_le _
  | some mode => simp [totalSize, Hob.size_guid, alignLength]

theorem totalSize_locationHobs (t : TableLocations) : totalSize (locationHobs t) = 136 := by
  simp [locationHobs, totalSize, Hob.size_guid, alignLength]

theorem totalSize_payloadHobs (settings : Settings) (addressBits : UInt8) :
    totalSize (payloadHobs settings addressBits) = 160 := by
  simp [payloadHobs, totalSize, Hob.size_resource, Hob.size_allocation, Hob.size_cpu]

/-- All blocks of the platform together. -/
theorem totalSize_platform_le (info : Coreboot.Info) (board : BoardInfo) :
    totalSize (bootLoaderHobs info) + 136 + totalSize (surveyedHobs info board) ≤
      96 * info.memoryMap.length + 304 := by
  have hmap := totalSize_map_le info.memoryMap (Tolud.estimate info.memoryMap) board.pcieBase
  have hgraphics := totalSize_graphicsHobs_le info.framebuffer
  rw [bootLoaderHobs, surveyedHobs, Hob.totalSize_append, totalSize, size_boardHob]
  omega

theorem totalSize_bootLoaderHobs_le (info : Coreboot.Info) :
    totalSize (bootLoaderHobs info) + 136 ≤ 96 * info.memoryMap.length + 304 := by
  have hmap := totalSize_map_le info.memoryMap (Tolud.estimate info.memoryMap) 0
  have hgraphics := totalSize_graphicsHobs_le info.framebuffer
  rw [bootLoaderHobs, Hob.totalSize_append]
  omega

theorem size_surveyedHobs (info : Coreboot.Info) (board : BoardInfo) :
    ∀ hob ∈ surveyedHobs info board, hob.size ≤ 96 := by
  intro hob hmem
  rcases List.mem_cons.mp hmem with rfl | hmem
  · exact Nat.le_of_eq (size_boardHob board)
  · exact size_reservedHobs_le _ _ _ hob hmem

/-! ## The hand-off into a list with room -/

/-- Where there is room for them the list takes all of some short blocks. -/
theorem exists_deliver_of_room {l : HobList} {hobs : List Hob}
    (hshort : ∀ hob ∈ hobs, hob.size ≤ 96) (hroom : totalSize hobs ≤ l.available) :
    ∃ m, Sink.hobList.deliver l hobs = (m, none) :=
  HobList.exists_deliver_of_le (fun hob h => Nat.le_trans (hshort hob h) (by decide)) hroom

theorem not_refused_of_room {l m : HobList} {hobs : List Hob} {e : HobError}
    (hshort : ∀ hob ∈ hobs, hob.size ≤ 96) (hroom : totalSize hobs ≤ l.available) :
    Sink.hobList.deliver l hobs ≠ (m, some e) := by
  obtain ⟨m', hd⟩ := exists_deliver_of_room hshort hroom
  rw [hd]
  rintro ⟨⟩

theorem faultOf_ne_refused {ε : Type} (fault : Fault ε) (e : HobError) :
    Procedure.faultOf fault ≠ .cause (.refused e) := by
  cases fault <;> rintro ⟨⟩

section

variable {memory : HobList → Memory} {info : Coreboot.Info} {l l₁ l₂ m : HobList}
  {locations : TableLocations} {rsdp : Acpi.Rsdp}

theorem Announces.takes (h : Announces Sink.hobList memory info l l₁ l₂ locations rsdp) :
    Takes l (totalSize (bootLoaderHobs info) + 136) l₂ := by
  have hdescribed := HobList.takes_of_deliver h.described
  have hannounced := HobList.takes_of_deliver h.announced
  rw [totalSize_locationHobs] at hannounced
  exact hdescribed.trans hannounced

/-- With room for all blocks of the platform none is refused, on whatever course. -/
theorem Course.takes {reads : List (PortWidth × UInt16)}
    {outcome : Except (Fault (StopCause Acpi.AcpiError)) Summary}
    (h : Course Sink.hobList memory info l reads m outcome)
    (hroom : 96 * info.memoryMap.length + 304 ≤ l.available) :
    (∃ n ≤ 96 * info.memoryMap.length + 304, Takes l n m) ∧
      ∀ e, outcome ≠ .error (.cause (.refused e)) := by
  have hloader := totalSize_bootLoaderHobs_le info
  cases h with
  | crowded hdescribed =>
    exact absurd hdescribed (not_refused_of_room (size_bootLoaderHobs info) (by omega))
  | unlocated hdescribed hmissing =>
    have htakes := HobList.takes_of_deliver hdescribed
    exact ⟨⟨_, by omega, htakes⟩, fun e he => faultOf_ne_refused _ e (Except.error.inj he)⟩
  | @unannounced l₁ _ locations _ _ hlocates hannounced =>
    have hleft := (HobList.takes_of_deliver hlocates.described).available_add
    have hshort : ∀ hob ∈ locationHobs locations, hob.size ≤ 96 := fun hob hmem =>
      Nat.le_trans (size_locationHobs locations hob hmem) (by decide)
    have hneeded : totalSize (locationHobs locations) ≤ l₁.available := by
      rw [totalSize_locationHobs]
      omega
    exact absurd hannounced (not_refused_of_room hshort hneeded)
  | unsurveyed hannounces hmissing =>
    exact ⟨⟨_, hloader, hannounces.takes⟩,
      fun e he => faultOf_ne_refused _ e (Except.error.inj he)⟩
  | @unfinished _ l₂ _ _ _ board _ _ hsurveys hfinished =>
    have hleft := hsurveys.toAnnounces.takes.available_add
    have hneeded : totalSize (surveyedHobs info board) ≤ l₂.available := by
      have hall := totalSize_platform_le info board
      omega
    exact absurd hfinished (not_refused_of_room (size_surveyedHobs info board) hneeded)
  | @finished _ _ _ _ _ board _ hsurveys hfinished =>
    have htakes := hsurveys.toAnnounces.takes.trans (HobList.takes_of_deliver hfinished)
    exact ⟨⟨_, totalSize_platform_le info board, htakes⟩, fun e he => by cases he⟩

end

end Handoff

namespace Boot

open Handoff

theorem exists_ends_describe_of_room (memory : HobList → Memory) (settings : Settings)
    (addressBits : UInt8) (info : Coreboot.Info) {l : HobList}
    (hroom : 96 * info.memoryMap.length + 464 ≤ l.available) :
    ∃ reads m outcome, Ends Sink.hobList memory (describe settings addressBits info) l reads m
      outcome ∧ (∃ n ≤ 96 * info.memoryMap.length + 464, Takes l n m) ∧
        ∀ e, outcome ≠ .error (.cause (.refused e)) := by
  obtain ⟨reads, m, outcome, hcourse⟩ := exists_course Sink.hobList memory info l
  obtain ⟨⟨n, hn, htakes⟩, hrefused⟩ := hcourse.takes (by omega)
  cases outcome with
  | error fault =>
    exact ⟨reads, m, _, ends_describe_error hcourse.ends, ⟨n, by omega, htakes⟩, hrefused⟩
  | ok summary =>
    have hleft := htakes.available_add
    have hshort : ∀ hob ∈ payloadHobs settings addressBits, hob.size ≤ 96 := fun hob hmem =>
      Nat.le_trans (size_payloadHobs settings addressBits hob hmem) (by decide)
    have hsize := totalSize_payloadHobs settings addressBits
    obtain ⟨m', hpayload⟩ := exists_deliver_of_room (l := m) hshort (by omega)
    have hall := htakes.trans (HobList.takes_of_deliver hpayload)
    exact ⟨reads, m', _, ends_describe hcourse.ends hpayload, ⟨_, by omega, hall⟩,
      fun e he => by cases he⟩

/-- With room for the blocks of the payload as well the whole hand-off is not refused anything. -/
theorem run_describe_of_room (host : Host σ) (memory : HobList → Memory) (settings : Settings)
    (addressBits : UInt8) (info : Coreboot.Info) (s : σ) {l : HobList}
    (hroom : 96 * info.memoryMap.length + 464 ≤ l.available) :
    let run := (describe settings addressBits info).run host Sink.hobList memory s l
    (∀ e, run.outcome ≠ .error (.cause (.refused e))) ∧
      run.sink.bytes.length ≤ l.bytes.length + 96 * info.memoryMap.length + 464 := by
  intro run
  obtain ⟨reads, m, outcome, hends, ⟨n, hn, htakes⟩, hrefused⟩ :=
    exists_ends_describe_of_room memory settings addressBits info hroom
  obtain ⟨hsink, houtcome⟩ := Procedure.run_of_ends hends host s
  rw [show run.sink = m from hsink, show run.outcome = outcome from houtcome,
    htakes.length_bytes]
  exact ⟨hrefused, by omega⟩

/-! ## The boot -/

/-- A recorder without a capacity refuses nothing. -/
theorem outcome_run_recorder_ne_refused {ε α : Type} (p : Procedure ε α) (host : Host σ)
    (memory : List Hob → Memory) (s : σ) (held : List Hob) (e : HobError) :
    (p.run host (Sink.recorder none) memory s held).outcome ≠ .error (.cause (.refused e)) := by
  induction p generalizing s held with
  | done a => rintro ⟨⟩
  | stop fault =>
    intro h
    exact faultOf_ne_refused fault e (Except.error.inj h)
  | note r next ih => exact ih _ _
  | readPort width port next ih => exact ih _ _ _
  | withMemory next ih => exact ih _ _ _
  | publish hob next ih => exact ih s (held ++ [hob])

/-- The list of a boot is started in a window of the size that is set, unless an address would be
    too large. -/
theorem newList_of_minWindow_le (settings : Settings) (mem : Memory)
    (hsize : HobList.minWindow ≤ settings.hobWindowSize.toNat) :
    newList settings mem = .error .overflow ∨
      ∃ list, newList settings mem = .ok list ∧
        list.available = settings.hobWindowSize.toNat - 64 := by
  unfold newList
  split
  · rename_i base top _ _
    let window := Window.ofMemory mem base settings.hobWindowSize.toNat
    have hwindow : window.size = settings.hobWindowSize.toNat := rfl
    have hholds : HobList.minWindow ≤ window.size := hsize
    rcases HobList.create_of_minWindow_le hholds base settings.imageBase top with
      hcreate | ⟨list, hcreate⟩
    · exact .inl hcreate
    · refine .inr ⟨list, hcreate, ?_⟩
      rw [HobList.available_of_create hcreate, hwindow]
  · exact .inl rfl

theorem refused_of_faultOf {fault : Fault (StopCause Acpi.AcpiError)} {e : HobError}
    (h : faultOf BootError.ofStop fault = .cause (.hob e)) : fault = .cause (.refused e) := by
  rcases fault with - | (e' | e')
  · cases h
  · cases h
    rfl
  · cases h

/-- A boot with a large enough window does not fail for want of room. -/
theorem outcome_build_ne_hob (bus : Bus σ) (mem : Memory) (settings : Settings)
    (addressBits : UInt8) (info : Coreboot.Info) (s : Console × σ)
    (hmap : info.memoryMap.length ≤ 128) (hsize : 12816 ≤ settings.hobWindowSize.toNat)
    (e : HobError) :
    (build bus mem settings addressBits info s).outcome ≠ .error (.cause (.hob e)) := by
  intro h
  unfold build at h
  dsimp only at h
  split at h
  · rename_i fault hannounced
    rw [refused_of_faultOf (Except.error.inj h)] at hannounced
    exact outcome_run_recorder_ne_refused _ _ _ _ _ e hannounced
  · rcases newList_of_minWindow_le settings mem (Nat.le_trans (by decide) hsize) with
      hlist | ⟨list, hlist, hroom⟩
    · rw [hlist] at h
      cases h
    · rw [hlist] at h
      dsimp only at h
      split at h
      · rename_i fault hdescribed
        rw [refused_of_faultOf (Except.error.inj h)] at hdescribed
        exact (run_describe_of_room _ _ _ _ _ _ (by omega)).1 e hdescribed
      · cases h

theorem length_bytes_of_create {window : Window} {base memoryBottom memoryTop : Address}
    {start : HobList} (h : HobList.create window base memoryBottom memoryTop = .ok start) :
    start.bytes.length = 64 := by
  rw [HobList.length_bytes, (HobList.holds_create h).closing_eq]
  rfl

/-- What a boot that halts reports is how building the list ended. -/
theorem exists_build_of_runFromTables {bus : Bus σ} {mem : Memory} {settings : Settings}
    {addressBits : UInt8} {tables : Except Coreboot.TableError Coreboot.Info} {s : σ}
    {halted : Halted σ} {e : BootError}
    (h : runFromTables bus mem settings addressBits tables s = some halted)
    (he : halted.outcome = .error e) :
    ∃ t, (buildFromTables bus mem settings addressBits tables t).outcome = .error (.cause e) := by
  obtain ⟨started, -, -, houtcome, -⟩ := exists_built_of_runFromTables h
  rw [he] at houtcome
  exact ⟨_, houtcome⟩

/-- **Room for any machine.** Whatever the tables of the boot loader say, a window of 12816 bytes is
    room for the list: 64 bytes for its table and the closing block, 96 for each of at most 128
    entries of the memory map, 304 for the blocks with a GUID and 160 for those of the payload. So
    no boot whose window is set to that size or more, as it is by default, fails for want of it. -/
theorem run_describe_room (mem : Memory) (pointer : Address) (settings : Settings)
    (addressBits : UInt8) :
    (∀ info, (Coreboot.Info.read mem pointer).outcome = .ok info →
      info.memoryMap.length ≤ 128 ∧
      ∀ (host : Host σ) (s : σ) (memory : HobList → Memory) (window : Window)
        (base memoryBottom memoryTop : Address),
        12816 ≤ window.size → base.toNat + window.size < 2 ^ 64 →
        ∃ start, HobList.create window base memoryBottom memoryTop = .ok start ∧
          let run := (describe settings addressBits info).run host Sink.hobList memory s start
          (∀ e, run.outcome ≠ .error (.cause (.refused e))) ∧
            run.sink.bytes.length ≤ 64 + 96 * info.memoryMap.length + 304 + 160) ∧
    ∀ (bus : Bus σ) (s : σ) (halted : Halted σ), 12816 ≤ settings.hobWindowSize.toNat →
      run bus mem settings addressBits pointer s = some halted →
      ∀ e, halted.outcome ≠ .error (.hob e) := by
  constructor
  · intro info hread
    have hmap := Coreboot.length_memoryMap_of_read hread
    refine ⟨hmap, ?_⟩
    intro host s memory window base memoryBottom memoryTop hsize hfit
    obtain ⟨start, hstart⟩ := HobList.exists_create (Nat.le_trans (by decide) hsize) hfit
      memoryBottom memoryTop
    have havailable := HobList.available_of_create hstart
    have hlength := length_bytes_of_create hstart
    obtain ⟨hrefused, hbytes⟩ := run_describe_of_room host memory settings addressBits info s
      (show 96 * info.memoryMap.length + 464 ≤ start.available by omega)
    exact ⟨start, hstart, hrefused, by omega⟩
  · intro bus s halted hsize hrun e he
    unfold run at hrun
    split at hrun
    · cases hrun
    · obtain ⟨t, hbuild⟩ := exists_build_of_runFromTables hrun he
      cases hbuild
    · rename_i info hread
      obtain ⟨t, hbuild⟩ := exists_build_of_runFromTables hrun he
      exact outcome_build_ne_hob bus mem settings addressBits info t
        (Coreboot.length_memoryMap_of_read hread) hsize e hbuild

example : 12816 ≤ ({} : Settings).hobWindowSize.toNat := by decide

/-- The memory of a machine with the most that the tables of the boot loader can say: 128 ranges of
    ACPI data and a framebuffer. -/
def fullMemory : Memory :=
  let header : Bytes := Coreboot.signature ++ Bytes.ofWord32 24 ++ Bytes.zeros 4
    ++ Bytes.ofWord32 2621 ++ Bytes.zeros 8 ++ Bytes.ofWord32 0x01 ++ Bytes.ofWord32 2568
  let range := Coreboot.RangeEntry.encode ⟨0x100000, 0x1000, 3⟩
  let records := Coreboot.encodeRecords
    [.framebuffer ⟨0xc0000000, 1024, 768, 4096, 32, ⟨16, 8⟩, ⟨8, 8⟩, ⟨0, 8⟩, ⟨24, 8⟩⟩ [],
      .acpiRsdp 0xf0000 []]
  Memory.sparse (boardTables ++ [.ofArray 0x10000 header.toArray,
    ⟨0x10020, 2560, fun i => range.getD (i % 20) 0⟩, .ofArray 0x10a20 records.toArray])

/-- What the tables of that machine say. -/
def fullInfo : Coreboot.Info :=
  { smallInfo with memoryMap := List.replicate 128 ⟨0x100000, 0x1000, .acpi⟩ }

/-- The hand-off of that machine takes all of a window of 12816 bytes. -/
theorem run_describe_room_full :
    (Coreboot.Info.read fullMemory 0x10000).outcome = .ok fullInfo ∧
      ∃ start, HobList.create (.fill 12816 0xaa) 0xd00000 0x800000 0x4d00000 = .ok start ∧
        let run := (describe {} 39 fullInfo).run silentHost Sink.hobList (fun _ => fullMemory) ()
          start
        (∀ e, run.outcome ≠ .error (.cause (.refused e))) ∧ run.sink.bytes.length = 12816 := by
  have hread : (Coreboot.Info.read fullMemory 0x10000).outcome = .ok fullInfo := by
    decide +kernel
  obtain ⟨hroom, -⟩ := run_describe_room (σ := Unit) fullMemory 0x10000 {} 39
  obtain ⟨-, hlist⟩ := hroom fullInfo hread
  obtain ⟨start, hstart, hrefused, -⟩ := hlist silentHost () (fun _ => fullMemory)
    (.fill 12816 0xaa) 0xd00000 0x800000 0x4d00000 (Nat.le_refl _) (by decide)
  refine ⟨hread, start, hstart, hrefused, ?_⟩
  cases hstart
  rw [HobList.length_bytes]
  decide +kernel

end Boot

end BootHandoff
