/-
  Where the reader of the coreboot tables looks for the first header. `Bare` says that an area has
  no signature at any of its 16-byte steps, and a search comes back with nothing exactly from a
  bare area that ends before the address space does (`outcome_firstSignature_eq_none_iff`); what it
  finds carries the signature (`carriesSignature_of_locate`).

  The tables themselves fail only by a read (`failsByMemory_addTable`), so that the answer "no
  header" speaks of the search alone: `outcome_read_headerNotFound_iff`. A null pointer means the
  two areas in low memory; any other pointer means the page that starts there, and low memory is
  not looked at (`outcome_read_beside_lowTable`).
-/
import BootHandoff.Coreboot.Table
import BootHandoff.Memory.Extent
import BootHandoff.Proofs.Coreboot.Printing

namespace BootHandoff.Coreboot

open Logged

variable {mem : Memory} {α β : Type}

/-! ## Areas without a signature -/

/-- No address of an area carries the signature, of those that lie 16 bytes apart from its first
    byte on. -/
def Bare (mem : Memory) (first size : Nat) : Prop :=
  ∀ place : Address, first ≤ place.toNat → place.toNat < first + size →
    16 ∣ place.toNat - first → carriesSignature mem place = false

theorem bare_zero (first : Nat) : Bare mem first 0 := by
  intro place hfirst hlast
  omega

/-- An area is bare if its first address and the rest are. -/
theorem bare_succ_iff {address : Address} {steps : Nat} :
    Bare mem address.toNat (16 * (steps + 1)) ↔
      carriesSignature mem address = false ∧ Bare mem (address.toNat + 16) (16 * steps) := by
  constructor
  · intro h
    have hfirst := h address (Nat.le_refl _) (by omega) (by simp)
    exact ⟨hfirst, fun place hplace hlast hstep => h place (by omega) (by omega) (by omega)⟩
  · rintro ⟨hsig, hrest⟩ place hplace hlast hstep
    by_cases heq : place = address
    · rw [heq, hsig]
    · rw [← UInt64.toNat_inj] at heq
      exact hrest place (by omega) (by omega) (by omega)

/-- A search finds nothing exactly if it stays in the address space and sees no signature. -/
theorem outcome_firstSignature_eq_none_iff {base : Address} (steps offset : Nat) :
    (firstSignature mem base steps offset).outcome = .ok none ↔
      (0 < steps → base.toNat + offset + 16 * (steps - 1) < 2 ^ 64) ∧
        Bare mem (base.toNat + offset) (16 * steps) := by
  induction steps generalizing offset with
  | zero => exact iff_of_true rfl ⟨by simp, bare_zero _⟩
  | succ steps ih =>
    rw [firstSignature]
    by_cases hle : 2 ^ 64 ≤ base.toNat + offset
    · rw [Address.offset?_eq_none_iff.2 hle]
      refine iff_of_false (by rintro ⟨⟩) ?_
      rintro ⟨hroom, -⟩
      have := hroom (Nat.succ_pos _)
      omega
    · obtain ⟨address, haddress, hplace⟩ := Address.exists_offset? (Nat.lt_of_not_le hle)
      rw [outcome_sum_bind haddress, ← hplace, bare_succ_iff]
      cases hsig : carriesSignature mem address with
      | true =>
        rw [if_pos rfl]
        exact iff_of_false (by rintro ⟨⟩) (by simp)
      | false =>
        rw [if_neg Bool.false_ne_true, ih, ← Nat.add_assoc, ← hplace]
        have hlt := address.toNat_lt
        constructor
        · rintro ⟨hroom, hbare⟩
          refine ⟨fun _ => ?_, rfl, hbare⟩
          -- The last step is the first of all, or the last one of the rest.
          rcases Nat.eq_zero_or_pos steps with rfl | hsteps
          · simpa using hlt
          · have := hroom hsteps
            omega
        · rintro ⟨hroom, -, hbare⟩
          have := hroom (Nat.succ_pos _)
          exact ⟨fun _ => by omega, hbare⟩

/-- The areas in low memory are far from the end of the address space. -/
theorem outcome_searchArea_eq_none_iff (base : Address) (steps : Nat)
    (h : base.toNat + 16 * steps < 2 ^ 64) :
    (searchArea mem base (16 * steps)).outcome = .ok none ↔
      Bare mem base.toNat (16 * steps) := by
  rw [searchArea, Nat.mul_div_cancel_left steps (by decide), outcome_firstSignature_eq_none_iff]
  refine and_iff_right fun _ => ?_
  omega

/-- Near a pointer, that is in the page that starts there. -/
theorem outcome_headerNear_eq_none_iff {pointer : Address} :
    (headerNear mem pointer).outcome = .ok none ↔
      pointer.toNat + 0xff0 < 2 ^ 64 ∧ Bare mem pointer.toNat 0x1000 := by
  rw [headerNear]
  cases hsig : carriesSignature mem pointer with
  | true =>
    rw [if_pos rfl]
    refine iff_of_false (by rintro ⟨⟩) ?_
    rintro ⟨-, hbare⟩
    have := hbare pointer (Nat.le_refl _) (by omega) (by simp)
    exact Bool.false_ne_true (this.symm.trans hsig)
  | false =>
    rw [if_neg Bool.false_ne_true, searchArea, outcome_firstSignature_eq_none_iff]
    simp

theorem outcome_headerInLowMemory_eq_none_iff :
    (headerInLowMemory mem).outcome = .ok none ↔ Bare mem 0 0x1000 ∧ Bare mem 0xf0000 0x10000 := by
  have hlow : (searchArea mem 0 0x1000).outcome = .ok none ↔ Bare mem 0 0x1000 :=
    outcome_searchArea_eq_none_iff 0 0x100 (by decide)
  have hbios : (searchArea mem 0xf0000 0x10000).outcome = .ok none ↔ Bare mem 0xf0000 0x10000 :=
    outcome_searchArea_eq_none_iff 0xf0000 0x1000 (by decide)
  rw [← hlow, ← hbios, headerInLowMemory, outcome_bind]
  rcases (searchArea mem 0 0x1000).outcome with fault | _ | header
  · exact iff_of_false (by rintro ⟨⟩) (by simp)
  · show (searchArea mem 0xf0000 0x10000 >>= _).outcome = _ ↔ _
    rw [outcome_bind]
    rcases (searchArea mem 0xf0000 0x10000).outcome with fault | _ | header
    · exact iff_of_false (by rintro ⟨⟩) (by simp)
    · exact iff_of_true rfl ⟨rfl, rfl⟩
    · exact iff_of_false (by rintro ⟨⟩) (by simp)
  · exact iff_of_false (by rintro ⟨⟩) (by simp)

/-! ## The header that is found -/

theorem carriesSignature_of_firstSignature {base header : Address} {steps offset : Nat}
    (h : (firstSignature mem base steps offset).outcome = .ok (some header)) :
    carriesSignature mem header = true := by
  induction steps generalizing offset with
  | zero => cases h
  | succ steps ih =>
    obtain ⟨address, -, h⟩ := outcome_bind_eq_ok_iff.1 h
    split at h
    · rename_i hsig
      cases h
      exact hsig
    · exact ih h

theorem carriesSignature_of_headerNear {pointer header : Address}
    (h : (headerNear mem pointer).outcome = .ok (some header)) :
    carriesSignature mem header = true := by
  rw [headerNear] at h
  split at h
  · rename_i hsig
    cases h
    exact hsig
  · exact carriesSignature_of_firstSignature h

theorem carriesSignature_of_headerInLowMemory {header : Address}
    (h : (headerInLowMemory mem).outcome = .ok (some header)) :
    carriesSignature mem header = true := by
  obtain ⟨found, hlow, h⟩ := outcome_bind_eq_ok_iff.1 h
  cases found with
  | some low =>
    cases h
    exact carriesSignature_of_firstSignature hlow
  | none =>
    obtain ⟨found, hbios, h⟩ := outcome_bind_eq_ok_iff.1 h
    cases found with
    | some bios =>
      cases h
      exact carriesSignature_of_firstSignature hbios
    | none => cases h

/-- Wherever the reader starts, there is a signature. -/
theorem carriesSignature_of_locate {pointer header : Address}
    (h : (locate mem pointer).outcome = .ok (some header)) :
    carriesSignature mem header = true := by
  rw [locate] at h
  split at h
  · rw [outcome_note_bind] at h
    exact carriesSignature_of_headerInLowMemory h
  · exact carriesSignature_of_headerNear h

/-! ## Failures past the search -/

/-- Whatever a run fails of, it is a read of memory. -/
structure FailsByMemory (x : Reading α) : Prop where
  exists_memory : ∀ e, x.outcome = .error (.cause e) → ∃ cause, e = .memory cause

namespace FailsByMemory

theorem of_ok {x : Reading α} {a : α} (h : x.outcome = .ok a) : FailsByMemory x := by
  refine ⟨fun e he => ?_⟩
  rw [h] at he
  cases he

theorem pure (a : α) : FailsByMemory (Pure.pure a) := of_ok rfl

theorem note_pure (s : Source) (l : Level) (m : String) (a : α) :
    FailsByMemory (note s l m >>= fun _ => Pure.pure a) := of_ok rfl

theorem sum (x : Option α) : FailsByMemory (Logged.sum x) := by
  refine ⟨fun e he => ?_⟩
  cases x <;> cases he

theorem readBytes (address : Address) (length : Nat) :
    FailsByMemory (Coreboot.readBytes mem address length) := by
  refine ⟨fun e he => ?_⟩
  rw [Coreboot.readBytes, outcome_ofExcept] at he
  cases hread : mem.read address length with
  | error cause =>
    rw [hread] at he
    cases he
    exact ⟨cause, rfl⟩
  | ok bs =>
    rw [hread] at he
    cases he

theorem bind {x : Reading α} {f : α → Reading β} (hx : FailsByMemory x)
    (hf : ∀ a, FailsByMemory (f a)) : FailsByMemory (x >>= f) := by
  refine ⟨fun e he => ?_⟩
  rw [outcome_bind] at he
  cases hout : x.outcome with
  | error fault =>
    rw [hout] at he
    cases he
    exact hx.exists_memory e hout
  | ok a =>
    rw [hout] at he
    exact (hf a).exists_memory e he

theorem note_bind {s : Source} {l : Level} {m : String} {f : Unit → Reading β}
    (hf : FailsByMemory (f ())) : FailsByMemory (note s l m >>= f) :=
  (of_ok rfl).bind fun _ => hf

end FailsByMemory

theorem failsByMemory_firstSignature (base : Address) (steps offset : Nat) :
    FailsByMemory (firstSignature mem base steps offset) := by
  induction steps generalizing offset with
  | zero => exact .pure none
  | succ steps ih =>
    rw [firstSignature]
    refine (FailsByMemory.sum _).bind fun address => ?_
    split
    · exact .pure _
    · exact ih (offset + 16)

theorem failsByMemory_headerNear (pointer : Address) : FailsByMemory (headerNear mem pointer) := by
  rw [headerNear]
  split
  · exact .pure _
  · exact failsByMemory_firstSignature ..

theorem failsByMemory_headerInLowMemory : FailsByMemory (headerInLowMemory mem) := by
  refine (failsByMemory_firstSignature ..).bind fun found => ?_
  cases found with
  | some header => exact .note_pure ..
  | none =>
    refine (failsByMemory_firstSignature ..).bind fun found => ?_
    cases found with
    | some header => exact .note_pure ..
    | none => exact .pure none

theorem failsByMemory_locate (pointer : Address) : FailsByMemory (locate mem pointer) := by
  rw [locate]
  split
  · exact failsByMemory_headerInLowMemory.note_bind
  · exact failsByMemory_headerNear pointer

theorem failsByMemory_addRanges (data : Address) (count index : Nat) (info : Info) :
    FailsByMemory (addRanges mem data count index info) := by
  induction count generalizing index info with
  | zero => exact .pure info
  | succ count ih =>
    rw [addRanges]
    refine (FailsByMemory.sum _).bind fun address => ?_
    refine (FailsByMemory.readBytes ..).bind fun bs => .note_bind ?_
    split
    · exact ih ..
    · exact .note_pure ..

theorem failsByMemory_addMemory (address : Address) (size : Nat) (info : Info) :
    FailsByMemory (addMemory mem address size info) :=
  (FailsByMemory.sum _).bind fun _ => .note_bind (failsByMemory_addRanges ..)

theorem failsByMemory_addVersion (address : Address) (size : Nat) (info : Info) :
    FailsByMemory (addVersion mem address size info) := by
  refine (FailsByMemory.sum _).bind fun data => (FailsByMemory.readBytes ..).bind fun bs => ?_
  cases versionOfBytes? bs with
  | some version => exact .note_pure ..
  | none => exact .pure info

theorem failsByMemory_addCbmem (address : Address) (info : Info) :
    FailsByMemory (addCbmem mem address info) := by
  refine (FailsByMemory.readBytes ..).bind fun bs => .note_bind ?_
  split
  · exact .pure _
  · exact .note_pure ..

section

variable {onForward : Address → Info → Reading Info}
  (hforward : ∀ target info, FailsByMemory (onForward target info))

include hforward

theorem failsByMemory_addRecord (address : Address) (tag : UInt32) (size : Nat) (info : Info) :
    FailsByMemory (addRecord mem onForward address tag size info) := by
  rw [addRecord]
  cases RecordKind.ofTag tag with
  | memory => exact failsByMemory_addMemory ..
  | version => exact failsByMemory_addVersion ..
  | forward => exact (FailsByMemory.readBytes ..).bind fun bs => hforward _ info
  | cbmem => exact failsByMemory_addCbmem ..
  | serial | framebuffer | acpiRsdp =>
    exact (FailsByMemory.readBytes ..).bind fun bs => .note_pure ..
  | other => exact .note_pure ..

theorem failsByMemory_addRecords (start : Address) (bytes fuel offset : Nat) (info : Info) :
    FailsByMemory (addRecords mem onForward start bytes fuel offset info) := by
  induction fuel generalizing offset info with
  | zero => exact .pure info
  | succ fuel ih =>
    rw [addRecords]
    split
    · exact .pure info
    · refine (FailsByMemory.sum _).bind fun address => ?_
      refine (FailsByMemory.readBytes ..).bind fun head => ?_
      dsimp only
      split
      · exact .note_pure ..
      · refine (failsByMemory_addRecord hforward ..).bind fun known => ?_
        split
        · exact ih ..
        · exact .pure known

theorem failsByMemory_addTable (address : Address) (info : Info) :
    FailsByMemory (addTable mem onForward address info) := by
  refine (FailsByMemory.readBytes ..).bind fun header => .note_bind ?_
  exact (FailsByMemory.sum _).bind fun start => failsByMemory_addRecords hforward ..

end

theorem failsByMemory_followForward (target : Address) (info : Info) :
    FailsByMemory (followForward mem target info) := by
  have hignore : ∀ target info, FailsByMemory (ignoreForward target info) := fun _ _ =>
    .note_pure ..
  refine .note_bind ((failsByMemory_headerNear _).bind fun found => ?_)
  cases found with
  | some header => exact failsByMemory_addTable hignore ..
  | none => exact .note_pure ..

/-! ## The answer that there is no header -/

theorem outcome_locate_eq_none_iff {pointer : Address} :
    (locate mem pointer).outcome = .ok none ↔
      if pointer = 0 then Bare mem 0 0x1000 ∧ Bare mem 0xf0000 0x10000
      else pointer.toNat + 0xff0 < 2 ^ 64 ∧ Bare mem pointer.toNat 0x1000 := by
  rw [locate]
  split
  · rw [outcome_note_bind, outcome_headerInLowMemory_eq_none_iff]
  · exact outcome_headerNear_eq_none_iff

/-- Once a header is found, the reader fails by a read or for the want of a memory map. -/
theorem outcome_read_ne_headerNotFound {pointer header : Address}
    (h : (locate mem pointer).outcome = .ok (some header)) :
    (Info.read mem pointer).outcome ≠ .error (.cause .headerNotFound) := by
  have htable : FailsByMemory (addTable mem (followForward mem) header {}) :=
    failsByMemory_addTable failsByMemory_followForward header {}
  rw [Info.read, outcome_bind_of_ok h, outcome_bind]
  cases hinfo : (addTable mem (followForward mem) header {}).outcome with
  | error fault =>
    rintro ⟨⟩
    obtain ⟨cause, ⟨⟩⟩ := htable.exists_memory _ hinfo
  | ok info =>
    intro hnone
    change (if info.memoryMap.isEmpty then (Logged.fail .noMemoryMap : Reading Info)
      else pure info).outcome = _ at hnone
    split at hnone <;> cases hnone

/-- **No header.** Over every memory, a null pointer gives that answer exactly if the two areas in
    low memory are bare, and any other pointer exactly if the page from there on is bare and ends
    before the address space does. -/
theorem outcome_read_headerNotFound_iff (mem : Memory) (pointer : Address) :
    (Info.read mem pointer).outcome = .error (.cause .headerNotFound) ↔
      if pointer = 0 then Bare mem 0 0x1000 ∧ Bare mem 0xf0000 0x10000
      else pointer.toNat + 0xff0 < 2 ^ 64 ∧ Bare mem pointer.toNat 0x1000 := by
  rw [← outcome_locate_eq_none_iff]
  rcases hlocate : (locate mem pointer).outcome with fault | _ | header
  · refine iff_of_false ?_ (by rintro ⟨⟩)
    intro hnone
    rw [Info.read, outcome_bind, hlocate] at hnone
    obtain ⟨cause, ⟨⟩⟩ := (failsByMemory_locate pointer).exists_memory .headerNotFound
      (hlocate.trans (by cases hnone; rfl))
  · refine iff_of_true ?_ rfl
    rw [Info.read, outcome_bind_of_ok hlocate]
    rfl
  · exact iff_of_false (outcome_read_ne_headerNotFound hlocate) (by rintro ⟨⟩)

/-- A table with a range, where a null pointer finds it. -/
def lowTable : Table where
  headerChecksum := 0
  tableBytes := 28
  tableChecksum := 0
  tableEntries := 1
  records := [.memory [⟨0, 0xa0000, 1⟩] [] TableRecord.short_nil]
  stop := none
  size_le := by decide
  size_eq := by decide

/-- A memory with a table in low memory and nothing else. -/
def lowTableMemory : Memory := .sparse [.ofArray 0x500 lowTable.encode.toArray]

/-- From a pointer that is neither null nor right the table in low memory is not found, from a null
    pointer it is. -/
theorem outcome_read_beside_lowTable :
    carriesSignature lowTableMemory 0x500000 = false ∧
      carriesSignature lowTableMemory 0x500 = true ∧
      (Info.read lowTableMemory 0x500000).outcome = .error (.cause .headerNotFound) ∧
      (Info.read lowTableMemory 0).outcome = .ok { memoryMap := [⟨0, 0xa0000, .ram⟩] } :=
  ⟨by decide +kernel, by decide +kernel, rfl, rfl⟩

end BootHandoff.Coreboot
