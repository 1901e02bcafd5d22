/-
  Every table that is announced is there. The locations of the tables are published only after the
  root pointer was found and checked, at the one address that the boot loader prefers, so that
  whoever is told of a root pointer finds an intact one (`published_describePlatform`). If there is
  no such address, or what lies there is refused, nothing is announced, and no other address is
  tried.
-/
import BootHandoff.Proofs.Acpi.RootPointer
import BootHandoff.Proofs.Handoff.Decoding
import BootHandoff.Proofs.Memory.Holding
import BootHandoff.Proofs.Procedure.Tracing

namespace BootHandoff

open Acpi (AcpiError RootPointerAt Rsdp)
open Coreboot (CbmemArea)
open Procedure (Host StopCause)

/-! ## The search for the tables -/

namespace TableLocations

variable {mem : Memory} {info : Coreboot.Info} {address : Address} {locations : TableLocations}
  {rsdp : Rsdp}

theorem find_of_none (h : rsdpAddress? info = none) :
    (find mem info).outcome = .error (.cause .noRsdp) := by
  rw [find, h]
  rfl

theorem find_of_error {fault : Fault AcpiError} (h : rsdpAddress? info = some address)
    (hrefused : (Rsdp.readChecked mem address).outcome = .error fault) :
    (find mem info).outcome = .error fault := by
  rw [find, h]
  dsimp only
  rw [Logged.outcome_bind, hrefused]
  rfl

theorem exists_of_find (h : (find mem info).outcome = .ok (locations, rsdp)) :
    ∃ address, rsdpAddress? info = some address ∧
      (Rsdp.readChecked mem address).outcome = .ok rsdp ∧ locations = ofRsdp info rsdp := by
  cases haddress : rsdpAddress? info with
  | none =>
    rw [find_of_none haddress] at h
    cases h
  | some address =>
    rw [find, haddress] at h
    obtain ⟨found, hread, h⟩ := Logged.outcome_bind_eq_ok_iff.mp h
    rw [Logged.outcome_note_bind, Logged.outcome_note_bind] at h
    cases h
    exact ⟨address, rfl, hread, rfl⟩

/-- What is found in a coherent memory is an intact root pointer, at the preferred address. -/
theorem rootPointerAt_of_find (hc : mem.Coherent)
    (h : (find mem info).outcome = .ok (locations, rsdp)) :
    rsdpAddress? info = some locations.acpiBase ∧
      RootPointerAt mem locations.acpiBase locations.acpiSize.toNat := by
  obtain ⟨address, haddress, hread, rfl⟩ := exists_of_find h
  obtain ⟨hbase, hintact⟩ := Rsdp.rootPointerAt_of_readChecked hc hread
  rw [show (ofRsdp info rsdp).acpiBase = address from hbase]
  exact ⟨haddress, hintact⟩

/-- With the root pointer goes the first area of the SMBIOS tables. -/
theorem smbios_of_find (h : (find mem info).outcome = .ok (locations, rsdp)) :
    (∀ area, info.cbmemArea? CbmemArea.smbios = some area →
      locations.smbiosBase = area.address ∧ locations.smbiosSize = area.size) ∧
    (info.cbmemArea? CbmemArea.smbios = none →
      locations.smbiosBase = 0 ∧ locations.smbiosSize = 0) := by
  obtain ⟨-, -, -, rfl⟩ := exists_of_find h
  unfold ofRsdp
  constructor
  · intro area harea
    rw [harea]
    exact ⟨rfl, rfl⟩
  · intro hnone
    rw [hnone]
    exact ⟨rfl, rfl⟩

end TableLocations

namespace Handoff

variable {κ σ : Type} {sink : Sink κ} {memory : κ → Memory} {info : Coreboot.Info} {k : κ}

/-! ## The blocks that announce tables -/

/-- The names of the blocks that announce tables. -/
def announcements : List Guid :=
  [Guid.systemTableInfo, Guid.universalSmbiosTable, Guid.universalAcpiTable]

section

variable {name : Guid} {data : Bytes}

/-- The boot loader's facts announce no tables. -/
theorem announcement_notMem_bootLoaderHobs (h : name ∈ announcements) :
    Hob.guid name data ∉ bootLoaderHobs info := by
  intro hmem
  rcases List.mem_append.mp hmem with hmem | hmem
  · exact guid_notMem_dramHobs _ _ hmem
  · obtain ⟨mode, -, hhob⟩ := List.mem_map.mp hmem
    injection hhob with hname
    rw [← hname] at h
    exact absurd h (by decide +kernel)

theorem announcement_notMem_surveyedHobs (h : name ∈ announcements) {board : BoardInfo} :
    Hob.guid name data ∉ surveyedHobs info board := by
  intro hmem
  rcases List.mem_cons.mp hmem with hhob | hmem
  · injection hhob with hname
    rw [hname] at h
    exact absurd h (by decide +kernel)
  · exact guid_notMem_reservedHobs _ _ _ _ hmem

/-- What is read from a block that announces tables. -/
theorem shownIn_of_mem_locationHobs {locations : TableLocations}
    (h : Hob.guid name data ∈ locationHobs locations) :
    (name = Guid.systemTableInfo → locations.ShownIn data) ∧
      (name = Guid.universalSmbiosTable → TableLocations.UniversalIn locations.smbiosBase data) ∧
      (name = Guid.universalAcpiTable → TableLocations.UniversalIn locations.acpiBase data) := by
  have hdistinct : announcements.Nodup := by decide +kernel
  simp only [announcements, List.nodup_cons, List.mem_cons, List.not_mem_nil, or_false,
    not_or] at hdistinct
  obtain ⟨⟨hsmbios, hacpi⟩, hother, -⟩ := hdistinct
  simp only [locationHobs, List.mem_cons, Hob.guid.injEq, List.not_mem_nil, or_false] at h
  rcases h with ⟨rfl, rfl⟩ | ⟨rfl, rfl⟩ | ⟨rfl, rfl⟩
  · exact ⟨fun _ => TableLocations.shownIn_encode _, fun h => absurd h hsmbios,
      fun h => absurd h hacpi⟩
  · exact ⟨fun h => absurd h.symm hsmbios,
      fun _ => TableLocations.universalIn_encodeUniversal _, fun h => absurd h hother⟩
  · exact ⟨fun h => absurd h.symm hacpi, fun h => absurd h.symm hother,
      fun _ => TableLocations.universalIn_encodeUniversal _⟩

end

/-! ## What is published on the way -/

/-- The root pointer is found once or never. -/
theorem Locates.unique {k₁ k₂ : κ} {locations locations' : TableLocations} {rsdp rsdp' : Rsdp}
    (h : Locates sink memory info k k₁ locations rsdp)
    (h' : Locates sink memory info k k₂ locations' rsdp') : locations = locations' := by
  have hreached : (k₁, none) = (k₂, none) := h.described.symm.trans h'.described
  obtain rfl : k₁ = k₂ := congrArg Prod.fst hreached
  have hfound := h.found.symm.trans h'.found
  cases hfound
  rfl

/-- The way of a traced run is that of the run. -/
theorem Locates.of_traced {t t₁ : κ × List Hob} {locations : TableLocations} {rsdp : Rsdp}
    (h : Locates sink.traced (fun t => memory t.1) info t t₁ locations rsdp) :
    Locates sink memory info t.1 t₁.1 locations rsdp :=
  ⟨(Sink.deliver_of_traced h.described).1, h.found⟩

section

variable {t t₁ t₂ : κ × List Hob} {locations : TableLocations} {rsdp : Rsdp}
  {refusal : Option HobError} {name : Guid} {data : Bytes}

theorem announcement_notMem_of_described (hname : name ∈ announcements)
    (h : sink.traced.deliver (k, []) (bootLoaderHobs info) = (t, refusal)) :
    Hob.guid name data ∉ t.2 := by
  intro hmem
  exact announcement_notMem_bootLoaderHobs hname (Sink.subset_of_deliver_traced h hmem)

theorem announcement_of_announced (hname : name ∈ announcements)
    (hlocates : Locates sink.traced (fun t => memory t.1) info (k, []) t₁ locations rsdp)
    (h : sink.traced.deliver t₁ (locationHobs locations) = (t, refusal))
    (hmem : Hob.guid name data ∈ t.2) : Hob.guid name data ∈ locationHobs locations := by
  rcases List.mem_append.mp (Sink.subset_of_deliver_traced h hmem) with hmem | hmem
  · exact absurd hmem (announcement_notMem_of_described hname hlocates.described)
  · exact hmem

theorem announcement_of_finished (hname : name ∈ announcements) {board : BoardInfo}
    (h : sink.traced.deliver t₂ (surveyedHobs info board) = (t, refusal))
    (hmem : Hob.guid name data ∈ t.2) : Hob.guid name data ∈ t₂.2 := by
  rcases List.mem_append.mp (Sink.subset_of_deliver_traced h hmem) with hmem | hmem
  · exact hmem
  · exact absurd hmem (announcement_notMem_surveyedHobs hname)

variable {reads : List (PortWidth × UInt16)}
  {outcome : Except (Fault (StopCause AcpiError)) Summary}

/-- What announces tables announces those that were found. -/
theorem Course.locates_of_mem
    (h : Course sink.traced (fun t => memory t.1) info (k, []) reads t outcome)
    (hname : name ∈ announcements) (hmem : Hob.guid name data ∈ t.2) :
    ∃ k₁ locations rsdp, Locates sink memory info k k₁ locations rsdp ∧
      Hob.guid name data ∈ locationHobs locations := by
  cases h with
  | crowded hdescribed =>
    exact absurd hmem (announcement_notMem_of_described hname hdescribed)
  | unlocated hdescribed =>
    exact absurd hmem (announcement_notMem_of_described hname hdescribed)
  | unannounced hlocates hannounced =>
    exact ⟨_, _, _, hlocates.of_traced, announcement_of_announced hname hlocates hannounced hmem⟩
  | unsurveyed hannounces =>
    exact ⟨_, _, _, hannounces.toLocates.of_traced,
      announcement_of_announced hname hannounces.toLocates hannounces.announced hmem⟩
  | unfinished hsurveys hfinished =>
    have hmem := announcement_of_finished hname hfinished hmem
    exact ⟨_, _, _, hsurveys.toLocates.of_traced,
      announcement_of_announced hname hsurveys.toLocates hsurveys.announced hmem⟩
  | finished hsurveys hfinished =>
    have hmem := announcement_of_finished hname hfinished hmem
    exact ⟨_, _, _, hsurveys.toLocates.of_traced,
      announcement_of_announced hname hsurveys.toLocates hsurveys.announced hmem⟩

/-- Whatever announces tables announces the same ones. -/
theorem Course.mem_locationHobs
    (h : Course sink.traced (fun t => memory t.1) info (k, []) reads t outcome) {k₁ : κ}
    (hlocates : Locates sink memory info k k₁ locations rsdp) (hname : name ∈ announcements)
    (hmem : Hob.guid name data ∈ t.2) : Hob.guid name data ∈ locationHobs locations := by
  obtain ⟨k₂, locations', rsdp', hlocates', hlocation⟩ := h.locates_of_mem hname hmem
  rw [hlocates.unique hlocates']
  exact hlocation

/-- The tables that were found are announced, unless the sink refuses a block. -/
theorem Course.locationHobs_subset
    (h : Course sink.traced (fun t => memory t.1) info (k, []) reads t outcome)
    (haccepted : ∀ e, outcome ≠ .error (.cause (.refused e))) {k₁ : κ}
    (hlocates : Locates sink memory info k k₁ locations rsdp) : locationHobs locations ⊆ t.2 := by
  cases h with
  | crowded => exact absurd rfl (haccepted _)
  | unannounced => exact absurd rfl (haccepted _)
  | unfinished => exact absurd rfl (haccepted _)
  | unlocated hdescribed hmissing =>
    have hreached : (t.1, none) = (k₁, none) :=
      (Sink.deliver_of_traced hdescribed).1.symm.trans hlocates.described
    rw [show t.1 = k₁ from congrArg Prod.fst hreached, hlocates.found] at hmissing
    cases hmissing
  | unsurveyed hannounces =>
    rw [hlocates.unique hannounces.toLocates.of_traced]
    exact (List.append_subset.mp (Sink.append_subset_of_deliver_traced hannounces.announced)).2
  | finished hsurveys hfinished =>
    rw [hlocates.unique hsurveys.toLocates.of_traced]
    have hannounced := Sink.append_subset_of_deliver_traced hsurveys.announced
    have hkept := Sink.append_subset_of_deliver_traced hfinished
    intro hob hmem
    exact (List.append_subset.mp hkept).1 ((List.append_subset.mp hannounced).2 hmem)

end

/-! ## The run -/

/-- The blocks that the description of the platform publishes are those of a course. -/
theorem course_published (host : Host σ) (sink : Sink κ) (memory : κ → Memory)
    (info : Coreboot.Info) (s : σ) (k : κ) :
    ∃ reads t, (describePlatform info).published host sink memory s k = t.2 ∧
      Course sink.traced (fun t => memory t.1) info (k, []) reads t
        ((describePlatform info).run host sink memory s k).outcome := by
  obtain ⟨reads, hcourse⟩ := course_run host sink.traced (fun t => memory t.1) info s (k, [])
  obtain ⟨-, -, houtcome⟩ := Procedure.run_traced (describePlatform info) host sink memory s k []
  rw [houtcome] at hcourse
  exact ⟨reads, _, rfl, hcourse⟩

/-- Where no tables are found none are announced, and that is how the run ends if it comes to the
    search. -/
theorem published_of_find_error (host : Host σ) (s : σ) {fault : Fault AcpiError}
    (h : (TableLocations.find (memory (sink.deliver k (bootLoaderHobs info)).1) info).outcome =
      .error fault) :
    (∀ name ∈ announcements, ∀ data,
      Hob.guid name data ∉ (describePlatform info).published host sink memory s k) ∧
    ((sink.deliver k (bootLoaderHobs info)).2 = none →
      ((describePlatform info).run host sink memory s k).outcome =
        .error (Procedure.faultOf fault)) := by
  constructor
  · intro name hname data hmem
    obtain ⟨reads, t, hpublished, hcourse⟩ := course_published host sink memory info s k
    rw [hpublished] at hmem
    obtain ⟨k₁, locations, rsdp, hlocates, -⟩ := hcourse.locates_of_mem hname hmem
    rw [hlocates.described, hlocates.found] at h
    cases h
  · intro hnone
    have hdescribed : sink.deliver k (bootLoaderHobs info) =
        ((sink.deliver k (bootLoaderHobs info)).1, none) := Prod.ext rfl hnone
    exact (Procedure.run_of_ends (Course.unlocated hdescribed h).ends host s).2

/-- **Every announced table is there.** Let reads of memory that overlap agree. If the location of
    the tables is published then the ACPI part of it is the address that the boot loader prefers
    and an intact root pointer lies there, the SMBIOS part is the first area of CBMEM that holds
    such tables, and the two other blocks give the same addresses. If there is no preferred
    address, or if the root pointer there is refused, then none of the three blocks is published,
    and this is how the run ends unless the sink has refused a block before. -/
theorem published_describePlatform (host : Host σ) (sink : Sink κ) {memory : κ → Memory}
    (hc : ∀ k, (memory k).Coherent) (info : Coreboot.Info) (s : σ) (k : κ) :
    let run := (describePlatform info).run host sink memory s k
    let published := (describePlatform info).published host sink memory s k
    let reached := sink.deliver k (bootLoaderHobs info)
    let area? (id : UInt32) := info.cbmem.find? fun area => area.id = id
    let preferred := info.acpiRsdp.or ((area? 0x41435049).map (·.address))
    (∀ data, Hob.guid Guid.systemTableInfo data ∈ published →
      ∃ t : TableLocations, t.ShownIn data ∧ preferred = some t.acpiBase ∧
        RootPointerAt (memory reached.1) t.acpiBase t.acpiSize.toNat ∧
        (∀ area, area? 0x534d4254 = some area →
          t.smbiosBase = area.address ∧ t.smbiosSize = area.size) ∧
        (area? 0x534d4254 = none → t.smbiosBase = 0 ∧ t.smbiosSize = 0) ∧
        (∀ data, Hob.guid Guid.universalAcpiTable data ∈ published →
          TableLocations.UniversalIn t.acpiBase data) ∧
        (∀ data, Hob.guid Guid.universalSmbiosTable data ∈ published →
          TableLocations.UniversalIn t.smbiosBase data) ∧
        ((∀ e, run.outcome ≠ .error (.cause (.refused e))) →
          (∃ data, Hob.guid Guid.universalAcpiTable data ∈ published) ∧
          ∃ data, Hob.guid Guid.universalSmbiosTable data ∈ published)) ∧
    (preferred = none →
      (∀ name ∈ announcements, ∀ data, Hob.guid name data ∉ published) ∧
      (reached.2 = none → run.outcome = .error (.cause (.failed .noRsdp)))) ∧
    (∀ address fault, preferred = some address →
      (Rsdp.readChecked (memory reached.1) address).outcome = .error fault →
      (∀ name ∈ announcements, ∀ data, Hob.guid name data ∉ published) ∧
      ∃ e, fault = .cause e ∧ (e = .invalidRsdp ∨ ∃ m, e = .badAddress m) ∧
        (reached.2 = none → run.outcome = .error (.cause (.failed e)))) := by
  intro run published reached area? preferred
  refine ⟨?_, ?_, ?_⟩
  · intro data hmem
    obtain ⟨reads, last, hpublished, hcourse⟩ := course_published host sink memory info s k
    rw [show published = last.2 from hpublished] at hmem ⊢
    obtain ⟨k₁, locations, rsdp, hlocates, hdata⟩ := hcourse.locates_of_mem (by decide +kernel) hmem
    have hread {name : Guid} {data : Bytes} (hname : name ∈ announcements)
        (hmem : Hob.guid name data ∈ last.2) :=
      shownIn_of_mem_locationHobs (hcourse.mem_locationHobs hlocates hname hmem)
    obtain ⟨haddress, hintact⟩ := TableLocations.rootPointerAt_of_find (hc k₁) hlocates.found
    obtain ⟨hsmbios, hnoSmbios⟩ := TableLocations.smbios_of_find hlocates.found
    have hreached : reached.1 = k₁ := congrArg Prod.fst hlocates.described
    rw [hreached]
    refine ⟨locations, (shownIn_of_mem_locationHobs hdata).1 rfl, haddress, hintact, hsmbios,
      hnoSmbios, ?_, ?_, ?_⟩
    · intro data hmem
      exact (hread (by decide +kernel) hmem).2.2 rfl
    · intro data hmem
      exact (hread (by decide +kernel) hmem).2.1 rfl
    · intro haccepted
      have hall := hcourse.locationHobs_subset haccepted hlocates
      constructor
      · exact ⟨_, hall (.tail _ (.tail _ (.head _)))⟩
      · exact ⟨_, hall (.tail _ (.head _))⟩
  · intro hnone
    exact published_of_find_error host s (TableLocations.find_of_none hnone)
  · intro address fault hsome hrefused
    obtain ⟨e, rfl, he⟩ := Rsdp.failsBy_readChecked fault hrefused
    have hfind := TableLocations.find_of_error hsome hrefused
    obtain ⟨hquiet, hend⟩ := published_of_find_error host s hfind
    exact ⟨hquiet, e, rfl, he, hend⟩

/-- The machine with tables announces its root pointer, which has the size of an extended one. -/
theorem published_describePlatform_board :
    let mem := Memory.sparse Boot.boardTables
    let published := (describePlatform Boot.smallInfo).published Boot.silentHost
      (Sink.recorder none) (fun _ => mem) () []
    Hob.guid Guid.systemTableInfo (TableLocations.encode ⟨0xf0000, 36, 0, 0⟩) ∈ published ∧
      RootPointerAt mem 0xf0000 36 := by
  intro mem published
  have hc : mem.Coherent := Memory.coherent_sparse (by decide +kernel)
  have hmem : Hob.guid Guid.systemTableInfo (TableLocations.encode ⟨0xf0000, 36, 0, 0⟩) ∈
      published := by decide +kernel
  refine ⟨hmem, ?_⟩
  obtain ⟨hannounced, -, -⟩ := published_describePlatform Boot.silentHost (Sink.recorder none)
    (fun _ => hc) Boot.smallInfo () []
  obtain ⟨t, hshown, hbase, hintact, -⟩ := hannounced _ hmem
  have hbase : t.acpiBase = 0xf0000 := (Option.some.inj hbase).symm
  have hsize : t.acpiSize = 36 := hshown.acpiSize.symm.trans (by decide +kernel)
  rw [hbase, hsize] at hintact
  exact hintact

-- An intact root pointer in CBMEM is no help where the preferred address has none.
example :
    let info := { Boot.smallInfo with
      acpiRsdp := some 0xf0004
      cbmem := [⟨Coreboot.CbmemArea.acpi, 0xf0000, 36⟩] }
    ((describePlatform info).run Boot.silentHost (Sink.recorder none)
      (fun _ => .sparse Boot.boardTables) () []).outcome =
        .error (.cause (.failed .invalidRsdp)) := by
  decide +kernel

end Handoff

end BootHandoff
