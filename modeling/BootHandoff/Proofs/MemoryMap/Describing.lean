/-
  What the two passes say of each entry of the map. `deal_usable_reserved`: an entry of the map
  takes its description from the pass it belongs to, and when the map is through, both passes are
  used up; so no description is lost, doubled or out of order. `reserved_append_estimate`: with more
  entries at the end of the map the top of DRAM can only go up, and of the earlier entries at most
  some device windows become reserved memory, never the other way.
-/
import BootHandoff.MemoryMap.Classification
import BootHandoff.Proofs.MemoryMap.Raising
import Mathlib.Data.List.Forall2

namespace BootHandoff.MemoryMap

variable {tolud later : Tolud} {pcieBase : Address} {r : Region} {map : List Region}

/-! ## One description for each entry -/

/-- Walks a map and takes, for each DRAM entry, the next description of the first list, and for each
    other entry the next one of the second list. There is no result if a list runs out on the way
    or is not used up at the end. -/
def deal : List Region → List Descriptor → List Descriptor → Option (List Descriptor)
  | [], dram, others => if dram = [] ∧ others = [] then some [] else none
  | r :: map, dram, others =>
    if r.type = .ram ∨ r.type = .acpi ∨ r.type = .nvs then
      dram.head?.bind fun d => (deal map dram.tail others).map (d :: ·)
    else
      others.head?.bind fun d => (deal map dram others.tail).map (d :: ·)

theorem deal_cons_of_dram (h : r.type = .ram ∨ r.type = .acpi ∨ r.type = .nvs) (d : Descriptor)
    (dram others : List Descriptor) :
    deal (r :: map) (d :: dram) others = (deal map dram others).map (d :: ·) := by
  rw [deal, if_pos h]
  rfl

theorem deal_cons_of_other (h : ¬ (r.type = .ram ∨ r.type = .acpi ∨ r.type = .nvs))
    (d : Descriptor) (dram others : List Descriptor) :
    deal (r :: map) dram (d :: others) = (deal map dram others).map (d :: ·) := by
  rw [deal, if_neg h]
  rfl

/-- The types that must stay allocated, with the reason. -/
def allocations : List (MemoryType × Allocation) :=
  [(.acpi, .acpiReclaim), (.nvs, .acpiNvs), (.unusable, .unusable), (.disabled, .unusable),
    (.persistent, .persistent)]

/-- What a description has to say of an entry of the map. -/
structure Describes (tolud : Tolud) (pcieBase : Address) (r : Region) (d : Descriptor) : Prop where
  base_eq : d.base = r.start
  size_eq : d.size = r.size
  systemMemory_iff : d.kind = .systemMemory ↔ r.type = .ram ∨ r.type = .acpi ∨ r.type = .nvs
  memoryMappedIo_iff : d.kind = .memoryMappedIo ↔
    ¬ (r.type = .ram ∨ r.type = .acpi ∨ r.type = .nvs) ∧
      (r.start = pcieBase ∨ (tolud.address ≤ r.start ∧ r.start < fourGiB))
  reserved_iff : d.kind = .reserved ↔
    ¬ (r.type = .ram ∨ r.type = .acpi ∨ r.type = .nvs) ∧
      ¬ (r.start = pcieBase ∨ (tolud.address ≤ r.start ∧ r.start < fourGiB))
  attributes_eq : d.attributes = Attributes.memoryMap
  allocation_iff : ∀ a, d.allocation = some a ↔ (r.type, a) ∈ allocations

theorem describes_dram (tolud : Tolud) (pcieBase : Address) (h : r.type.isDram = true) :
    Describes tolud pcieBase r (describeDram r) where
  base_eq := rfl
  size_eq := rfl
  systemMemory_iff := iff_of_true rfl (MemoryType.isDram_iff.1 h)
  memoryMappedIo_iff := iff_of_false nofun fun hnot => hnot.1 (MemoryType.isDram_iff.1 h)
  reserved_iff := iff_of_false nofun fun hnot => hnot.1 (MemoryType.isDram_iff.1 h)
  attributes_eq := rfl
  allocation_iff a := by
    show dramAllocation r.type = some a ↔ _
    revert h
    cases r.type <;> cases a <;> decide

theorem describes_reserved (tolud : Tolud) (pcieBase : Address) (h : r.type.isDram = false) :
    Describes tolud pcieBase r (describeReserved tolud pcieBase r) := by
  have hother := MemoryType.isDram_eq_false_iff.1 h
  exact {
    base_eq := rfl
    size_eq := rfl
    systemMemory_iff := iff_of_false reservedKind_ne_systemMemory hother
    memoryMappedIo_iff :=
      reservedKind_eq_memoryMappedIo_iff.trans (and_iff_right hother).symm
    reserved_iff := reservedKind_eq_reserved_iff.trans (and_iff_right hother).symm
    attributes_eq := rfl
    allocation_iff := fun a => by
      show reservedAllocation r.type = some a ↔ _
      revert h
      cases r.type <;> cases a <;> decide }

/-- **The passes share out the map.** Dealt out along the map, the two passes are used up exactly,
    and each entry gets a description of its own. -/
theorem deal_usable_reserved (map : List Region) (tolud : Tolud) (pcieBase : Address) :
    ∃ described, deal map (usable map) (reserved map tolud pcieBase) = some described ∧
      List.Forall₂ (Describes tolud pcieBase) map described := by
  induction map with
  | nil => exact ⟨[], rfl, .nil⟩
  | cons r map ih =>
    obtain ⟨described, hdeal, hdescribes⟩ := ih
    rw [usable_cons, reserved_cons]
    cases hdram : r.type.isDram with
    | true =>
      refine ⟨describeDram r :: described, ?_,
        .cons (describes_dram tolud pcieBase hdram) hdescribes⟩
      rw [if_pos rfl, if_pos rfl, deal_cons_of_dram (MemoryType.isDram_iff.1 hdram), hdeal]
      rfl
    | false =>
      refine ⟨describeReserved tolud pcieBase r :: described, ?_,
        .cons (describes_reserved tolud pcieBase hdram) hdescribes⟩
      rw [if_neg Bool.false_ne_true, if_neg Bool.false_ne_true,
        deal_cons_of_other (MemoryType.isDram_eq_false_iff.1 hdram), hdeal]
      rfl

/-! ## More entries -/

/-- A description stays as it is, or it was of a device window and is now of reserved memory. -/
def Settles (d e : Descriptor) : Prop :=
  e = d ∨ (d.kind = .memoryMappedIo ∧ e = { d with kind := .reserved })

theorem Settles.eq_of_reserved {d e : Descriptor} (h : Settles d e) (hkind : d.kind = .reserved) :
    e = d := by
  rcases h with h | ⟨hwindow, -⟩
  · exact h
  · rw [hkind] at hwindow
    cases hwindow

/-- The top has risen past the start of a region that is not the configuration window. -/
def Passed (tolud later : Tolud) (pcieBase start : Address) : Prop :=
  start ≠ pcieBase ∧ tolud.address ≤ start ∧ start < later.address

/-- What the top has risen past was a device window and is now reserved memory. -/
theorem reservedKind_of_passed {start : Address} (hlater : later.address ≤ fourGiB)
    (h : Passed tolud later pcieBase start) :
    reservedKind tolud pcieBase start = .memoryMappedIo ∧
      reservedKind later pcieBase start = .reserved := by
  obtain ⟨hbase, hle, hlt⟩ := h
  rw [reservedKind_eq, reservedKind_eq]
  refine ⟨if_pos (Or.inr ⟨hle, UInt64.lt_of_lt_of_le hlt hlater⟩), if_neg ?_⟩
  intro h
  rcases h with heq | ⟨hnot, -⟩
  · exact hbase heq
  · exact UInt64.not_le.2 hlt hnot

/-- Everything else is what it was. -/
theorem reservedKind_of_not_passed {start : Address} (hle : tolud.address ≤ later.address)
    (h : ¬ Passed tolud later pcieBase start) :
    reservedKind later pcieBase start = reservedKind tolud pcieBase start := by
  rw [reservedKind_eq, reservedKind_eq]
  refine if_congr ⟨fun hwindow => ?_, fun hwindow => ?_⟩ rfl rfl
  · exact hwindow.imp_right fun hwindow => ⟨UInt64.le_trans hle hwindow.1, hwindow.2⟩
  · by_cases hbase : start = pcieBase
    · exact Or.inl hbase
    · obtain ⟨habove, hlow⟩ := hwindow.resolve_left hbase
      have hnot : ¬ start < later.address := fun hlt => h ⟨hbase, habove, hlt⟩
      exact Or.inr ⟨UInt64.not_lt.1 hnot, hlow⟩

theorem settles_describeReserved (hle : tolud.address ≤ later.address)
    (hlater : later.address ≤ fourGiB) (pcieBase : Address) (r : Region) :
    Settles (describeReserved tolud pcieBase r) (describeReserved later pcieBase r) ∧
      (describeReserved later pcieBase r ≠ describeReserved tolud pcieBase r ↔
        Passed tolud later pcieBase r.start) := by
  by_cases hpassed : Passed tolud later pcieBase r.start
  · obtain ⟨hwindow, hreserved⟩ := reservedKind_of_passed hlater hpassed
    have hnow : describeReserved later pcieBase r =
        { describeReserved tolud pcieBase r with kind := .reserved } := by
      rw [describeReserved, hreserved]
      rfl
    refine ⟨Or.inr ⟨hwindow, hnow⟩, iff_of_true (fun heq => ?_) hpassed⟩
    have hkinds : reservedKind later pcieBase r.start = reservedKind tolud pcieBase r.start :=
      congrArg Descriptor.kind heq
    rw [hwindow, hreserved] at hkinds
    cases hkinds
  · have hsame : describeReserved later pcieBase r = describeReserved tolud pcieBase r := by
      rw [describeReserved, reservedKind_of_not_passed hle hpassed]
      rfl
    exact ⟨Or.inl hsame, iff_of_false (fun hne => hne hsame) hpassed⟩

/-- **More entries turn no DRAM into a device.** The top for a longer map is at or above the top
    for the map itself and within 4 GiB. Of the entries of the map itself, those that it has risen
    past turn from device windows to reserved memory, and all others stay what they were. -/
theorem reserved_append_estimate (m n : List Region) (pcieBase : Address) :
    let tolud := Tolud.estimate m
    let later := Tolud.estimate (m ++ n)
    tolud.address ≤ later.address ∧ later.address ≤ fourGiB ∧
    reserved (m ++ n) later pcieBase =
      reserved m later pcieBase ++ reserved n later pcieBase ∧
    List.Forall₂ (fun d e => Settles d e ∧ (d.kind = .reserved → e.kind = .reserved) ∧
        (e ≠ d ↔ Passed tolud later pcieBase d.base))
      (reserved m tolud pcieBase) (reserved m later pcieBase) := by
  intro tolud later
  have hle : tolud.address ≤ later.address := Tolud.estimate_le_estimate_append m n
  have hlater : later.address ≤ fourGiB :=
    UInt64.le_iff_toNat_le.2 (Tolud.toNat_estimate_le (m ++ n))
  refine ⟨hle, hlater, reserved_append m n later pcieBase, ?_⟩
  rw [reserved, reserved, List.forall₂_map_left_iff, List.forall₂_map_right_iff, List.forall₂_same]
  intro r _
  obtain ⟨hsettles, hpassed⟩ := settles_describeReserved hle hlater pcieBase r
  refine ⟨hsettles, fun hkind => ?_, hpassed⟩
  rw [hsettles.eq_of_reserved hkind]
  exact hkind

/-- RAM that is listed behind a window and reaches past its start. -/
example :
    let window : Region := ⟨0x80000000, 0x1000, .reserved⟩
    let ram : Region := ⟨0, 0xc0000000, .ram⟩
    (reserved [window] (Tolud.estimate [window]) 0).map (·.kind) = [.memoryMappedIo] ∧
    (reserved [window, ram] (Tolud.estimate [window, ram]) 0).map (·.kind) = [.reserved] := by
  decide

end BootHandoff.MemoryMap
