/-
  A hand-off whose sink runs out of room. What the hand-off sends does not depend on where it goes,
  and every block of it is short enough for its header (`exists_sends_describe`), so that room is
  all that can be missing. `run_describe_exhausted`: with little room the sink ends up with the
  first blocks of a run with room for all, up to the first that does not fit, and the run ends with
  the refusal of that block, whatever failures would have come later.
-/
import BootHandoff.Memory.Extent
import BootHandoff.Proofs.Handoff.Order
import BootHandoff.Proofs.Hob.Decoding
import BootHandoff.Proofs.Hob.Filling

namespace BootHandoff

open Procedure (Sends)

/-! ## The sizes of the blocks -/

namespace Handoff

theorem size_dramHobs (r : Region) : ∀ hob ∈ dramHobs r, hob.size = 48 := by
  unfold dramHobs
  cases r.type <;> simp [Hob.size_resource, Hob.size_allocation]

theorem size_reservedHobs (tolud : Tolud) (pcieBase : Address) (r : Region) :
    ∀ hob ∈ reservedHobs tolud pcieBase r, hob.size = 48 := by
  unfold reservedHobs
  cases r.type <;> simp [Hob.size_resource, Hob.size_allocation]

theorem size_graphicsHobs (framebuffer : Option Coreboot.Framebuffer) :
    ∀ hob ∈ graphicsHobs framebuffer, hob.size = 72 := by
  intro hob h
  obtain ⟨mode, -, rfl⟩ := List.mem_map.mp h
  rw [Hob.size_guid, DisplayMode.length_encode]
  rfl

theorem size_locationHobs (t : TableLocations) : ∀ hob ∈ locationHobs t, hob.size ≤ 56 := by
  simp [locationHobs, Hob.size_guid, alignLength]

theorem size_boardHob (b : BoardInfo) : (boardHob b).size = 96 := by
  rw [boardHob, Hob.size_guid, BoardInfo.length_encode]
  rfl

theorem size_payloadHobs (settings : Settings) (addressBits : UInt8) :
    ∀ hob ∈ payloadHobs settings addressBits, hob.size ≤ 48 := by
  simp [payloadHobs, Hob.size_resource, Hob.size_allocation, Hob.size_cpu]

theorem size_bootLoaderHobs (info : Coreboot.Info) :
    ∀ hob ∈ bootLoaderHobs info, hob.size ≤ 96 := by
  intro hob h
  rcases List.mem_append.mp h with h | h
  · obtain ⟨r, -, h⟩ := List.mem_flatMap.mp h
    have := size_dramHobs r hob h
    omega
  · have := size_graphicsHobs info.framebuffer hob h
    omega

theorem size_reservedHobs_le (map : List Region) (tolud : Tolud) (pcieBase : Address) :
    ∀ hob ∈ map.flatMap (reservedHobs tolud pcieBase), hob.size ≤ 96 := by
  intro hob h
  obtain ⟨r, -, h⟩ := List.mem_flatMap.mp h
  have := size_reservedHobs tolud pcieBase r hob h
  omega

end Handoff

/-! ## The runs -/

namespace Boot

open Handoff

variable {σ : Type} (mem : Memory)

/-- What the hand-off sends and how it ends is settled by memory and its arguments, and the blocks
    are short. -/
theorem exists_sends_describe (settings : Settings) (addressBits : UInt8) (info : Coreboot.Info) :
    ∃ hobs outcome, Sends mem (describe settings addressBits info) hobs outcome ∧
      ∀ hob ∈ hobs, hob.size ≤ 96 := by
  have hloader := size_bootLoaderHobs info
  cases hfind : (TableLocations.find mem info).outcome with
  | error fault =>
    exact ⟨_, _, sends_describe_error mem (sends_describePlatform_of_find_error mem hfind),
      hloader⟩
  | ok found =>
    obtain ⟨locations, rsdp⟩ := found
    have hlocations : ∀ hob ∈ locationHobs locations, hob.size ≤ 96 := fun hob h =>
      Nat.le_trans (size_locationHobs locations hob h) (by decide)
    cases hboard : (BoardInfo.find mem rsdp).outcome with
    | error fault =>
      exact ⟨_, _, sends_describe_error mem
          (sends_describePlatform_of_board_error mem hfind hboard),
        List.forall_mem_append.mpr ⟨hloader, hlocations⟩⟩
    | ok found =>
      obtain ⟨board, fadt⟩ := found
      have hpayload : ∀ hob ∈ payloadHobs settings addressBits, hob.size ≤ 96 := fun hob h =>
        Nat.le_trans (size_payloadHobs settings addressBits hob h) (by decide)
      refine ⟨_, _, sends_describe mem settings addressBits
        (sends_describePlatform_of_board mem hfind hboard), ?_⟩
      refine List.forall_mem_append.mpr ⟨List.forall_mem_append.mpr ⟨hloader,
        List.forall_mem_append.mpr ⟨hlocations, List.forall_mem_cons.mpr ⟨?_, ?_⟩⟩⟩, hpayload⟩
      · exact Nat.le_of_eq (size_boardHob board)
      · exact size_reservedHobs_le _ _ _

/-- **Exhaustion only truncates.** Let `hobs` be what a sink that never refuses receives. A sink
    with places for `c` blocks, and a list in a window, receive the first of them, as many as have
    room, and nothing after the first that has none; the run ends as the full run if nothing is
    left out, else with the refusal. -/
theorem run_describe_exhausted (host : Procedure.Host σ) (settings : Settings)
    (addressBits : UInt8) (info : Coreboot.Info) (s : σ) :
    let full := (describe settings addressBits info).run host (Sink.recorder none)
      (fun _ => mem) s []
    let hobs := full.sink
    (∀ c : Nat,
      let cut := (describe settings addressBits info).run host (Sink.recorder (some c))
        (fun _ => mem) s []
      cut.sink = hobs.take c ∧
        cut.outcome = if c < hobs.length then
          .error (.cause (.refused (.outOfResources (c + 1) c))) else full.outcome) ∧
    ∀ (window : Window) (base memoryBottom memoryTop : Address) (start : HobList),
      HobList.create window base memoryBottom memoryTop = .ok start →
      let cut := (describe settings addressBits info).run host Sink.hobList
        (fun _ => mem) s start
      let room := window.size - 64
      let k := Hob.fitCount room hobs
      let left := room - Hob.totalSize (hobs.take k)
      cut.sink = start.offerAll (hobs.take k) ∧
        cut.sink.items = (HobType.handoff, cut.sink.phit.encode) ::
          (hobs.take k).map (fun hob => (hob.type, hob.encode)) ∧
        (∀ i < k, ∀ hob, hobs[i]? = some hob →
          hob.size ≤ room - Hob.totalSize (hobs.take i)) ∧
        match hobs[k]? with
        | none => k = hobs.length ∧ cut.outcome = full.outcome
        | some next => left < next.size ∧
          cut.outcome = .error (.cause (.refused (.outOfResources next.size left))) := by
  intro full hobs
  obtain ⟨sent, outcome, hsends, hshort⟩ := exists_sends_describe mem settings addressBits info
  have hfull := Procedure.run_of_sends hsends host (Sink.recorder none) s []
  rw [Sink.deliver_recorder, List.nil_append] at hfull
  obtain ⟨hhobs, houtcome⟩ : hobs = sent ∧ full.outcome = outcome.mapError Procedure.faultOf := hfull
  rw [houtcome, hhobs]
  constructor
  · intro c cut
    have hcut := Procedure.run_of_sends hsends host (Sink.recorder (some c)) s []
    rw [Sink.deliver_recorder_some sent (Nat.zero_le c), List.nil_append, List.length_nil,
      Nat.sub_zero, Nat.zero_add] at hcut
    refine ⟨hcut.1, hcut.2.trans ?_⟩
    split <;> rfl
  · intro window base memoryBottom memoryTop start hstart cut room k left
    have hroom : start.available = room := HobList.available_of_create hstart
    have hmax : ∀ hob ∈ sent, hob.size ≤ maxHobSize := fun hob h =>
      Nat.le_trans (hshort hob h) (by decide)
    have hdeliver := HobList.deliver_hobList (l := start) hmax
    rw [hroom] at hdeliver
    obtain ⟨haccepted, hdeliver⟩ := hdeliver
    have hcut := Procedure.run_of_sends hsends host Sink.hobList s start
    rw [hdeliver] at hcut
    obtain ⟨hsink, hend⟩ : cut.sink = start.offerAll (sent.take k) ∧
      cut.outcome = Procedure.endOfRun (sent[k]?.map fun next =>
        .outOfResources next.size left) outcome := hcut
    have hholds := HobList.holds_offerAll hstart (sent.take k)
    rw [show start.accepted (sent.take k) = sent.take k from haccepted, ← hsink] at hholds
    refine ⟨hsink, hholds.items_eq, fun i hi hob => Hob.size_le_of_lt_fitCount hi, ?_⟩
    cases hnext : sent[k]? with
    | none =>
      rw [hnext] at hend
      exact ⟨Nat.le_antisymm (Hob.fitCount_le_length room sent)
        (List.getElem?_eq_none_iff.mp hnext), hend⟩
    | some next =>
      rw [hnext] at hend
      exact ⟨Hob.lt_size_of_getElem?_fitCount hnext, hend⟩

/-- A host that keeps no log and reads every port as zero. -/
def silentHost : Procedure.Host Unit := ⟨fun _ s => s, fun _ _ s => (0, s)⟩

/-- An ACPI 1.0 root pointer that names no root table. -/
def bareRootPointer : Bytes :=
  [0x52, 0x53, 0x44, 0x20, 0x50, 0x54, 0x52, 0x20, 0xe1] ++ Bytes.zeros 11

/-- A root pointer to an XSDT at an address, of which its bytes and a checksum are given. -/
def extendedRootPointer (xsdt : Bytes) (checksum : UInt8) : Bytes :=
  [0x52, 0x53, 0x44, 0x20, 0x50, 0x54, 0x52, 0x20, 0xdf] ++ Bytes.zeros 6 ++ [2] ++ Bytes.zeros 4
    ++ Bytes.ofWord32 36 ++ xsdt ++ [checksum] ++ Bytes.zeros 3

/-- A machine with one range of RAM and a framebuffer. -/
def smallInfo : Coreboot.Info where
  memoryMap := [⟨0, 0x1000, .ram⟩]
  framebuffer := some ⟨0xc0000000, 1024, 768, 4096, 32, ⟨16, 8⟩, ⟨8, 8⟩, ⟨0, 8⟩, ⟨24, 8⟩⟩
  acpiRsdp := some 0xf0000

/-- The ACPI tables of a machine, which say something else in each field of the board
    information. -/
def boardTables : List Extent :=
  let xsdt : Bytes := Bytes.ofAscii "XSDT" ++ Bytes.ofWord32 60 ++ Bytes.zeros 28
    ++ Bytes.ofWord64 0x2000 ++ Bytes.ofWord64 0x3000 ++ Bytes.ofWord64 0x4000
  let fadt : Bytes := Bytes.ofAscii "FACP" ++ Bytes.ofWord32 129 ++ Bytes.zeros 48
    ++ Bytes.ofWord32 0x600 ++ Bytes.zeros 4 ++ Bytes.ofWord32 0x604 ++ Bytes.zeros 8
    ++ Bytes.ofWord32 0x608 ++ Bytes.ofWord32 0x620 ++ Bytes.zeros 5 ++ [2, 0, 0, 8]
    ++ Bytes.zeros 27 ++ Bytes.ofWord64 0xcf9 ++ [6]
  let mcfg : Bytes := Bytes.ofAscii "MCFG" ++ Bytes.ofWord32 60 ++ Bytes.zeros 36
    ++ Bytes.ofWord64 0xe0000000 ++ [0, 0, 0, 0xff] ++ Bytes.zeros 4
  let tpm2 : Bytes := Bytes.ofAscii "TPM2" ++ Bytes.ofWord32 36 ++ Bytes.zeros 28
  [.ofArray 0xf0000 (extendedRootPointer (Bytes.ofWord64 0x1000) 0xcc).toArray,
    .ofArray 0x1000 xsdt.toArray, .ofArray 0x2000 fadt.toArray, .ofArray 0x3000 mcfg.toArray,
    .ofArray 0x4000 tpm2.toArray]

/-- The list has room for the RAM and the framebuffer. The block of the table locations is refused;
    the two blocks after it, for which there would be room, are not written, and the missing FADT
    is not what the run ends with. -/
theorem run_describe_exhausted_locations :
    let mem := Memory.sparse [.ofArray 0xf0000 bareRootPointer.toArray]
    let full := (describe {} 39 smallInfo).run silentHost (Sink.recorder none) (fun _ => mem) () []
    full.sink.map Hob.size = [48, 72, 56, 40, 40] ∧
      full.outcome = .error (.cause (.failed .fadtNotFound)) ∧
      ∃ start, HobList.create (.fill 234 0xaa) 0xd00000 0x800000 0x4d00000 = .ok start ∧
        let cut := (describe {} 39 smallInfo).run silentHost Sink.hobList (fun _ => mem) () start
        cut.sink.items.map (fun item => (item.1, item.2.length)) = [(1, 56), (3, 48), (4, 72)] ∧
        cut.outcome = .error (.cause (.refused (.outOfResources 56 50))) := by
  intro mem full
  have hsizes : full.sink.map Hob.size = [48, 72, 56, 40, 40] := by decide +kernel
  refine ⟨hsizes, by decide +kernel, _, rfl, ?_⟩
  obtain ⟨-, hlist⟩ := run_describe_exhausted mem silentHost {} 39 smallInfo ()
  obtain ⟨-, hitems, -, hend⟩ := hlist (.fill 234 0xaa) 0xd00000 0x800000 0x4d00000 _ rfl
  have hnext : full.sink[Hob.fitCount ((Window.fill 234 0xaa).size - 64) full.sink]? =
      some (.guid Guid.systemTableInfo (TableLocations.encode ⟨0xf0000, 20, 0, 0⟩)) := by
    decide +kernel
  rw [hnext] at hend
  constructor
  · refine (congrArg (List.map fun item => (item.1, item.2.length)) hitems).trans ?_
    decide +kernel
  · refine hend.2.trans ?_
    decide +kernel

end Boot

end BootHandoff
