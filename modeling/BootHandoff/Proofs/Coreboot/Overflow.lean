/-
  When the reader of the coreboot tables comes to a sum that is no address any more. Addresses in
  tables are not trusted, and a sum that leaves the address space stops the whole program, where a
  read of a bad address only fails. `overflows_read_iff` names the sums that can do so and the
  way to each of them:
  * a step of the search near a pointer, which goes past the end in the last page (`SearchWraps`);
  * the header of a table and the size it announces for itself (`TableWraps.start`);
  * the start of the records and an offset that the walk comes to (`WalkWraps.place`).
  The sums inside of records never do: the read of the record header, or of the range before,
  leaves room for them (`not_overflows_addRanges`, `overflows_addRecord`).

  `overflows_addRecords_succ` is one round of the walk, `overflows_addRecords` all of it, as steps
  of `WalkStep` from record to record. Where memory ends well below the top of the address space,
  only the search is left (`searchWraps_of_overflow`).
-/
import BootHandoff.Coreboot.Table
import BootHandoff.Memory.Extent
import BootHandoff.Proofs.Coreboot.Printing
import Mathlib.Logic.Relation

namespace BootHandoff

namespace Logged

variable {ε α β : Type}

/-- A run ends because a sum does not fit its word. -/
def Overflows (x : Logged ε α) : Prop := x.outcome = .error .overflow

theorem not_overflows_pure (a : α) : ¬ Overflows (pure a : Logged ε α) := by
  intro h
  cases h

theorem not_overflows_fail (e : ε) : ¬ Overflows (fail e : Logged ε α) := by
  intro h
  cases h

theorem overflows_bind {x : Logged ε α} {f : α → Logged ε β} :
    Overflows (x >>= f) ↔ Overflows x ∨ ∃ a, x.outcome = .ok a ∧ Overflows (f a) := by
  unfold Overflows
  rw [outcome_bind]
  cases x.outcome with
  | error fault => simp [bind, Except.bind]
  | ok a => simp [bind, Except.bind]

theorem overflows_note_bind {s : Source} {l : Level} {m : String} {f : Unit → Logged ε β} :
    Overflows (note s l m >>= f) ↔ Overflows (f ()) := by
  unfold Overflows
  rw [outcome_note_bind]

theorem not_overflows_note_pure (s : Source) (l : Level) (m : String) (a : α) :
    ¬ Overflows (note s l m >>= fun _ => pure a : Logged ε α) := by
  rw [overflows_note_bind]
  exact not_overflows_pure a

theorem overflows_offset_bind {a : Address} {n : Nat} {f : Address → Logged ε β} :
    Overflows (sum (a.offset? n) >>= f) ↔
      2 ^ 64 ≤ a.toNat + n ∨ ∃ place, a.offset? n = some place ∧ Overflows (f place) := by
  rw [overflows_bind, ← Address.offset?_eq_none_iff]
  cases a.offset? n with
  | none => simp [Overflows, sum]
  | some place => simp [Overflows, sum]

end Logged

namespace Coreboot

open Logged

variable {mem : Memory}

theorem overflows_readBytes_bind {α : Type} {address : Address} {length : Nat}
    {f : Bytes → Reading α} :
    Overflows (readBytes mem address length >>= f) ↔
      ∃ bs, mem.read address length = .ok bs ∧ Overflows (f bs) := by
  rw [readBytes]
  cases mem.read address length with
  | error e =>
    constructor
    · intro h
      cases h
    · rintro ⟨bs, hread, -⟩
      cases hread
  | ok bs =>
    constructor
    · intro h
      exact ⟨bs, rfl, h⟩
    · rintro ⟨_, hread, h⟩
      cases hread
      exact h

theorem not_overflows_readBytes_bind {α : Type} {address : Address} {length : Nat}
    {f : Bytes → Reading α} (h : ∀ bs, ¬ Overflows (f bs)) :
    ¬ Overflows (readBytes mem address length >>= f) := by
  rw [overflows_readBytes_bind]
  rintro ⟨bs, -, hover⟩
  exact h bs hover

/-! ## The search for a header -/

/-- No address from `first` on, in steps of 16 to the end of the address space, carries the
    signature. -/
def BareFrom (mem : Memory) (first : Nat) : Prop :=
  ∀ place : Address, first ≤ place.toNat → 16 ∣ place.toNat - first →
    carriesSignature mem place = false

theorem bareFrom_of_le {first : Nat} (h : 2 ^ 64 ≤ first) : BareFrom mem first := by
  intro place hfirst
  have := place.toNat_lt
  omega

theorem bareFrom_iff {address : Address} :
    BareFrom mem address.toNat ↔
      carriesSignature mem address = false ∧ BareFrom mem (address.toNat + 16) := by
  constructor
  · intro h
    exact ⟨h address (Nat.le_refl _) (by simp),
      fun place hfirst hstep => h place (by omega) (by omega)⟩
  · rintro ⟨hsig, hrest⟩ place hfirst hstep
    by_cases heq : place = address
    · rw [heq, hsig]
    · rw [← UInt64.toNat_inj] at heq
      exact hrest place (by omega) (by omega)

theorem overflows_firstSignature {base : Address} (steps offset : Nat) :
    Overflows (firstSignature mem base steps offset) ↔
      0 < steps ∧ 2 ^ 64 ≤ base.toNat + offset + 16 * (steps - 1) ∧
        BareFrom mem (base.toNat + offset) := by
  induction steps generalizing offset with
  | zero =>
    rw [firstSignature]
    exact iff_of_false (not_overflows_pure _) (by simp)
  | succ steps ih =>
    rw [firstSignature, overflows_offset_bind]
    by_cases hle : 2 ^ 64 ≤ base.toNat + offset
    · exact iff_of_true (.inl hle) ⟨by omega, by omega, bareFrom_of_le hle⟩
    · obtain ⟨address, haddress, hplace⟩ := Address.exists_offset? (Nat.lt_of_not_le hle)
      simp only [hle, false_or, haddress, Option.some.injEq, exists_eq_left']
      rw [← hplace, bareFrom_iff]
      cases hsig : carriesSignature mem address with
      | true =>
        rw [if_pos rfl]
        exact iff_of_false (not_overflows_pure _) (by simp)
      | false =>
        rw [if_neg Bool.false_ne_true, ih, ← Nat.add_assoc, ← hplace]
        constructor
        · rintro ⟨hsteps, hend, hbare⟩
          exact ⟨by omega, by omega, rfl, hbare⟩
        · rintro ⟨-, hend, -, hbare⟩
          exact ⟨by omega, by omega, hbare⟩

/-- The search from an address runs into the end of the address space: it is in the last page, and
    there is no signature on the way. -/
def SearchWraps (mem : Memory) (base : Address) : Prop :=
  2 ^ 64 ≤ base.toNat + 0xff0 ∧ BareFrom mem base.toNat

theorem overflows_headerNear {pointer : Address} :
    Overflows (headerNear mem pointer) ↔ SearchWraps mem pointer := by
  rw [headerNear, SearchWraps]
  cases hsig : carriesSignature mem pointer with
  | true =>
    rw [if_pos rfl, bareFrom_iff, hsig]
    exact iff_of_false (not_overflows_pure _) (by simp)
  | false =>
    rw [if_neg Bool.false_ne_true, searchArea, overflows_firstSignature]
    simp

theorem not_overflows_searchArea {base : Address} {size : Nat}
    (h : base.toNat + size < 2 ^ 64) : ¬ Overflows (searchArea mem base size) := by
  rw [searchArea, overflows_firstSignature]
  omega

/-- The areas in low memory end long before the address space does. -/
theorem not_overflows_headerInLowMemory : ¬ Overflows (headerInLowMemory mem) := by
  rw [headerInLowMemory, overflows_bind]
  rintro (hlow | ⟨found, -, hover⟩)
  · exact not_overflows_searchArea (by decide) hlow
  · cases found with
    | some header => exact not_overflows_note_pure _ _ _ _ hover
    | none =>
      rcases overflows_bind.1 hover with hbios | ⟨found, -, hover⟩
      · exact not_overflows_searchArea (by decide) hbios
      · cases found with
        | some header => exact not_overflows_note_pure _ _ _ _ hover
        | none => exact not_overflows_pure _ hover

theorem overflows_locate {pointer : Address} :
    Overflows (locate mem pointer) ↔ pointer ≠ 0 ∧ SearchWraps mem pointer := by
  rw [locate]
  split
  · rename_i hnull
    rw [overflows_note_bind]
    exact iff_of_false not_overflows_headerInLowMemory (by simp [hnull])
  · rename_i hpointer
    simp [overflows_headerNear, hpointer]

/-! ## Records -/

theorem not_overflows_addRanges {data : Address} (count index : Nat) (info : Info)
    (h : data.toNat + index * rangeSize < 2 ^ 64) :
    ¬ Overflows (addRanges mem data count index info) := by
  induction count generalizing index info with
  | zero => exact not_overflows_pure info
  | succ count ih =>
    rw [addRanges, overflows_offset_bind]
    rintro (hle | ⟨place, hplace, hover⟩)
    · omega
    · rw [overflows_readBytes_bind] at hover
      obtain ⟨bs, hread, hover⟩ := hover
      rw [overflows_note_bind] at hover
      -- The range that was read leaves room for the address after it.
      have hroom : data.toNat + (index + 1) * rangeSize < 2 ^ 64 := by
        have hend := Memory.lt_of_read hread
        rw [Address.offset?_eq_some_iff.1 hplace] at hend
        rwa [Nat.succ_mul, ← Nat.add_assoc]
      split at hover
      · exact ih _ _ hroom hover
      · exact not_overflows_note_pure _ _ _ _ hover

section

variable {address : Address} {info : Info}

theorem not_overflows_addMemory {size : Nat} (h : address.toNat + recordHeaderSize < 2 ^ 64) :
    ¬ Overflows (addMemory mem address size info) := by
  rw [addMemory, overflows_offset_bind]
  rintro (hle | ⟨place, hplace, hover⟩)
  · omega
  · rw [overflows_note_bind] at hover
    exact not_overflows_addRanges _ 0 info (by simpa using place.toNat_lt) hover

theorem not_overflows_addVersion {size : Nat} (h : address.toNat + recordHeaderSize < 2 ^ 64) :
    ¬ Overflows (addVersion mem address size info) := by
  rw [addVersion, overflows_offset_bind]
  rintro (hle | ⟨place, -, hover⟩)
  · omega
  · revert hover
    refine not_overflows_readBytes_bind fun bs => ?_
    cases versionOfBytes? bs with
    | none => exact not_overflows_pure info
    | some version => exact not_overflows_note_pure _ _ _ _

theorem not_overflows_addCbmem : ¬ Overflows (addCbmem mem address info) := by
  refine not_overflows_readBytes_bind fun bs => ?_
  rw [overflows_note_bind]
  split
  · exact not_overflows_pure _
  · exact not_overflows_note_pure _ _ _ _

/-- Once the header of a record has been read, no sum but those that follow from a forward record
    can leave the address space. -/
theorem overflows_addRecord {onForward : Address → Info → Reading Info} {tag : UInt32} {size : Nat}
    (h : address.toNat + recordHeaderSize < 2 ^ 64) :
    Overflows (addRecord mem onForward address tag size info) ↔
      RecordKind.ofTag tag = .forward ∧
        ∃ bs, mem.read address 16 = .ok bs ∧ Overflows (onForward (bs.word64 8) info) := by
  rw [addRecord]
  cases RecordKind.ofTag tag with
  | forward =>
    simp only [true_and]
    exact overflows_readBytes_bind
  | memory => exact iff_of_false (not_overflows_addMemory h) (by simp)
  | version => exact iff_of_false (not_overflows_addVersion h) (by simp)
  | cbmem => exact iff_of_false not_overflows_addCbmem (by simp)
  | serial | framebuffer | acpiRsdp =>
    exact iff_of_false (not_overflows_readBytes_bind fun bs => not_overflows_note_pure _ _ _ _)
      (by simp)
  | other => exact iff_of_false (not_overflows_note_pure _ _ _ _) (by simp)

end

/-! ## The walk of a table -/

/-- The table goes on at `offset`, with a record at `address` that announces a tag and a size of
    8 bytes or more. -/
structure RecordAt (mem : Memory) (start : Address) (bytes offset : Nat) (address : Address)
    (tag : UInt32) (size : Nat) : Prop where
  inside : offset < bytes
  place : start.offset? offset = some address
  header : ∃ head, mem.read address 8 = .ok head ∧ head.word32 0 = tag ∧
    (head.word32 4).toNat = size
  eight_le : 8 ≤ size

/-- Where a walk stands: the offset of the next record, and what is known before it. -/
structure WalkState where
  offset : Nat
  info : Info

/-- The walk takes in a record and goes on to the next. -/
inductive WalkStep (mem : Memory) (onForward : Address → Info → Reading Info) (start : Address)
    (bytes : Nat) : WalkState → WalkState → Prop
  | next {offset size : Nat} {address : Address} {tag : UInt32} {info known : Info}
      (record : RecordAt mem start bytes offset address tag size)
      (added : (addRecord mem onForward address tag size info).outcome = .ok known)
      (small : offset + size < 2 ^ 32) :
      WalkStep mem onForward start bytes ⟨offset, info⟩ ⟨offset + size, known⟩

/-- The next record lies past the end of the address space, or it is a forward record and what it
    leads to runs into that end. -/
inductive WalkWraps (mem : Memory) (wraps : Address → Info → Prop) (start : Address)
    (bytes : Nat) : WalkState → Prop
  | place {offset : Nat} {info : Info} (inside : offset < bytes)
      (past : 2 ^ 64 ≤ start.toNat + offset) : WalkWraps mem wraps start bytes ⟨offset, info⟩
  | forward {offset size : Nat} {address : Address} {info : Info} {bs : Bytes}
      (record : RecordAt mem start bytes offset address 0x11 size)
      (pointer : mem.read address 16 = .ok bs) (target : wraps (bs.word64 8) info) :
      WalkWraps mem wraps start bytes ⟨offset, info⟩

section

variable {onForward : Address → Info → Reading Info} {wraps : Address → Info → Prop}
  {start : Address} {bytes : Nat}

theorem WalkStep.inside {s t : WalkState} (h : WalkStep mem onForward start bytes s t) :
    s.offset < bytes := by
  obtain ⟨record, -, -⟩ := h
  exact record.inside

theorem WalkWraps.inside {s : WalkState} (h : WalkWraps mem wraps start bytes s) :
    s.offset < bytes := by
  cases h with
  | place inside _ => exact inside
  | forward record _ _ => exact record.inside

theorem RecordAt.lt {offset size : Nat} {address : Address} {tag : UInt32}
    (record : RecordAt mem start bytes offset address tag size) :
    address.toNat + recordHeaderSize < 2 ^ 64 := by
  obtain ⟨head, hread, -⟩ := record.header
  exact Memory.lt_of_read hread

theorem ofTag_eq_forward_iff {tag : UInt32} : RecordKind.ofTag tag = .forward ↔ tag = 0x11 := by
  constructor
  · intro h
    exact RecordKind.ofTag_inj (b := 0x11) h (by decide)
  · rintro rfl
    rfl

/-- A record that can be read is taken in, and then the walk goes on behind it. -/
theorem overflows_addRecords_of_recordAt {fuel offset size : Nat} {address : Address}
    {tag : UInt32} {info : Info} (record : RecordAt mem start bytes offset address tag size) :
    Overflows (addRecords mem onForward start bytes (fuel + 1) offset info) ↔
      Overflows (addRecord mem onForward address tag size info) ∨
        ∃ known, (addRecord mem onForward address tag size info).outcome = .ok known ∧
          offset + size < 2 ^ 32 ∧
            Overflows (addRecords mem onForward start bytes fuel (offset + size) known) := by
  obtain ⟨hinside, hplace, ⟨head, hhead, rfl, rfl⟩, hsize⟩ := record
  have hread : mem.read address recordHeaderSize = .ok head := hhead
  have hfull : ¬ (head.word32 4).toNat < recordHeaderSize := Nat.not_lt.mpr hsize
  have hrun : (addRecords mem onForward start bytes (fuel + 1) offset info).outcome =
      (addRecord mem onForward address (head.word32 0) (head.word32 4).toNat info >>= fun known =>
        if offset + (head.word32 4).toNat < 2 ^ 32 then
          addRecords mem onForward start bytes fuel (offset + (head.word32 4).toNat) known
        else pure known).outcome := by
    rw [addRecords, if_neg (Nat.not_le.mpr hinside), outcome_sum_bind hplace,
      outcome_readBytes_bind hread, if_neg hfull]
  rw [Overflows, hrun, ← Overflows, overflows_bind]
  refine or_congr_right (exists_congr fun known => and_congr_right fun _ => ?_)
  split
  · rename_i hsmall
    exact (and_iff_right hsmall).symm
  · rename_i hlarge
    exact iff_of_false (not_overflows_pure known) fun h => hlarge h.1

/-- Where the walk ends early, the end of the address space or a record was next. -/
theorem recordAt_of_overflows {fuel offset : Nat} {info : Info}
    (h : Overflows (addRecords mem onForward start bytes (fuel + 1) offset info)) :
    offset < bytes ∧ (2 ^ 64 ≤ start.toNat + offset ∨
      ∃ address tag size, RecordAt mem start bytes offset address tag size) := by
  rw [addRecords] at h
  split at h
  · exact absurd h (not_overflows_pure info)
  · rename_i hinside
    refine ⟨Nat.lt_of_not_le hinside, ?_⟩
    rw [overflows_offset_bind] at h
    obtain hpast | ⟨address, hplace, h⟩ := h
    · exact .inl hpast
    · rw [overflows_readBytes_bind] at h
      obtain ⟨head, hread, h⟩ := h
      refine .inr ⟨address, _, _, Nat.lt_of_not_le hinside, hplace, ⟨head, hread, rfl, rfl⟩, ?_⟩
      refine Nat.le_of_not_lt fun (hsize : (head.word32 4).toNat < recordHeaderSize) => ?_
      rw [if_pos hsize] at h
      exact not_overflows_note_pure _ _ _ _ h

/-- One round of the walk. -/
theorem overflows_addRecords_succ
    (hwraps : ∀ target info, Overflows (onForward target info) ↔ wraps target info)
    {fuel offset : Nat} {info : Info} :
    Overflows (addRecords mem onForward start bytes (fuel + 1) offset info) ↔
      WalkWraps mem wraps start bytes ⟨offset, info⟩ ∨
        ∃ s, WalkStep mem onForward start bytes ⟨offset, info⟩ s ∧
          Overflows (addRecords mem onForward start bytes fuel s.offset s.info) := by
  constructor
  · intro h
    obtain ⟨hinside, hpast | ⟨address, tag, size, record⟩⟩ := recordAt_of_overflows h
    · exact .inl (.place hinside hpast)
    · rw [overflows_addRecords_of_recordAt record,
        overflows_addRecord record.lt] at h
      obtain ⟨hkind, bs, hpointer, htarget⟩ | ⟨known, hadded, hsmall, h⟩ := h
      · obtain rfl := ofTag_eq_forward_iff.1 hkind
        exact .inl (.forward record hpointer ((hwraps _ _).1 htarget))
      · exact .inr ⟨⟨offset + size, known⟩, .next record hadded hsmall, h⟩
  · rintro (h | ⟨s, h, hover⟩)
    · cases h with
      | place hinside hpast =>
        rw [addRecords, if_neg (Nat.not_le.mpr hinside), overflows_offset_bind]
        exact .inl hpast
      | forward record hpointer htarget =>
        rw [overflows_addRecords_of_recordAt record, overflows_addRecord record.lt]
        exact .inl ⟨rfl, _, hpointer, (hwraps _ _).2 htarget⟩
    · cases h with
      | next record hadded hsmall =>
        rw [overflows_addRecords_of_recordAt record]
        exact .inr ⟨_, hadded, hsmall, hover⟩

/-- What holds somewhere on the way from `x` holds at `x` or on the way from the next step. -/
theorem exists_reflTransGen_iff {α : Type} {r : α → α → Prop} {P : α → Prop} {x : α} :
    (∃ y, Relation.ReflTransGen r x y ∧ P y) ↔
      P x ∨ ∃ z, r x z ∧ ∃ y, Relation.ReflTransGen r z y ∧ P y := by
  constructor
  · rintro ⟨y, hxy, hy⟩
    obtain rfl | ⟨z, hxz, hzy⟩ := hxy.cases_head
    · exact .inl hy
    · exact .inr ⟨z, hxz, y, hzy, hy⟩
  · rintro (hx | ⟨z, hxz, y, hzy, hy⟩)
    · exact ⟨x, .refl, hx⟩
    · exact ⟨y, .head hxz hzy, hy⟩

/-- **The walk of a table.** It overflows exactly if it comes to a record that lies past the end
    of the address space, or to a forward record that leads there. -/
theorem overflows_addRecords
    (hwraps : ∀ target info, Overflows (onForward target info) ↔ wraps target info)
    {fuel offset : Nat} {info : Info} (hfuel : bytes ≤ offset + 8 * fuel) :
    Overflows (addRecords mem onForward start bytes fuel offset info) ↔
      ∃ s, Relation.ReflTransGen (WalkStep mem onForward start bytes) ⟨offset, info⟩ s ∧
        WalkWraps mem wraps start bytes s := by
  rw [exists_reflTransGen_iff]
  induction fuel generalizing offset info with
  | zero =>
    refine iff_of_false (not_overflows_pure info) ?_
    rintro (h | ⟨s, h, -⟩)
    · exact Nat.not_lt.mpr hfuel h.inside
    · exact Nat.not_lt.mpr hfuel h.inside
  | succ fuel ih =>
    rw [overflows_addRecords_succ hwraps]
    refine or_congr_right (exists_congr fun s => and_congr_right fun hstep => ?_)
    rw [exists_reflTransGen_iff]
    -- A record takes 8 bytes or more, which is what one unit of fuel is for.
    cases hstep with
    | next record hadded hsmall =>
      have hle := record.eight_le
      refine ih ?_
      dsimp only
      omega

end

/-! ## Tables -/

/-- Reading the table at `address` comes to a sum that leaves the address space: that of the
    header and its size, or one in the walk of the records. -/
inductive TableWraps (mem : Memory) (onForward : Address → Info → Reading Info)
    (wraps : Address → Info → Prop) (address : Address) (info : Info) : Prop
  | start {header : Bytes} (read : mem.read address 24 = .ok header)
      (past : 2 ^ 64 ≤ address.toNat + (header.word32 4).toNat)
  | walk {header : Bytes} {start : Address} {s : WalkState}
      (read : mem.read address 24 = .ok header)
      (first : address.offset? (header.word32 4).toNat = some start)
      (way : Relation.ReflTransGen
        (WalkStep mem onForward start (header.word32 12).toNat) ⟨0, info⟩ s)
      (wrap : WalkWraps mem wraps start (header.word32 12).toNat s)

theorem overflows_addTable {onForward : Address → Info → Reading Info}
    {wraps : Address → Info → Prop}
    (hwraps : ∀ target info, Overflows (onForward target info) ↔ wraps target info)
    {address : Address} {info : Info} :
    Overflows (addTable mem onForward address info) ↔
      TableWraps mem onForward wraps address info := by
  rw [addTable, overflows_readBytes_bind]
  constructor
  · rintro ⟨header, hread, h⟩
    rw [overflows_note_bind, overflows_offset_bind] at h
    obtain hpast | ⟨start, hstart, h⟩ := h
    · exact .start hread hpast
    · rw [overflows_addRecords hwraps (by simp [recordHeaderSize]; omega)] at h
      obtain ⟨s, hway, hwrap⟩ := h
      exact .walk hread hstart hway hwrap
  · intro h
    cases h with
    | start hread hpast =>
      refine ⟨_, hread, ?_⟩
      rw [overflows_note_bind, overflows_offset_bind]
      exact .inl hpast
    | walk hread hstart hway hwrap =>
      refine ⟨_, hread, ?_⟩
      rw [overflows_note_bind, overflows_offset_bind]
      refine .inr ⟨_, hstart, ?_⟩
      rw [overflows_addRecords hwraps (by simp [recordHeaderSize]; omega)]
      exact ⟨_, hway, hwrap⟩

/-- The table that a forward record leads to, or the search for it, comes to the end of the address
    space. -/
def TargetWraps (mem : Memory) (target : Address) (info : Info) : Prop :=
  SearchWraps mem target ∨ ∃ header, (headerNear mem target).outcome = .ok (some header) ∧
    TableWraps mem ignoreForward (fun _ _ => False) header info

theorem overflows_followForward (target : Address) (info : Info) :
    Overflows (followForward mem target info) ↔ TargetWraps mem target info := by
  have hignored : ∀ target info, Overflows (ignoreForward target info) ↔ False := fun _ _ =>
    iff_of_false (not_overflows_note_pure _ _ _ _) id
  rw [followForward, overflows_note_bind, overflows_bind, overflows_headerNear]
  refine or_congr_right ?_
  constructor
  · rintro ⟨found, hfound, h⟩
    cases found with
    | none => exact absurd h (not_overflows_note_pure _ _ _ _)
    | some header => exact ⟨header, hfound, (overflows_addTable hignored).1 h⟩
  · rintro ⟨header, hfound, h⟩
    exact ⟨some header, hfound, (overflows_addTable hignored).2 h⟩

/-- Once the header of the first table is found, only the tables are left to read. -/
theorem overflows_addTable_bind (header : Address) :
    Overflows (do
      let info ← addTable mem (followForward mem) header {}
      if info.memoryMap.isEmpty then Logged.fail .noMemoryMap else pure info : Reading Info) ↔
      TableWraps mem (followForward mem) (TargetWraps mem) header {} := by
  rw [overflows_bind, overflows_addTable overflows_followForward]
  refine or_iff_left ?_
  rintro ⟨info, -, h⟩
  split at h
  · exact not_overflows_fail _ h
  · exact not_overflows_pure info h

/-- **Overflow of the table reader.** Over every memory and from every pointer, the reader ends
    with an overflow exactly if the search near the pointer does, or reading the table found there
    or one that it forwards to. -/
theorem overflows_read_iff (mem : Memory) (pointer : Address) :
    (Info.read mem pointer).outcome = .error .overflow ↔
      (pointer ≠ 0 ∧ SearchWraps mem pointer) ∨
        ∃ header, (locate mem pointer).outcome = .ok (some header) ∧
          TableWraps mem (followForward mem) (TargetWraps mem) header {} := by
  show Overflows (Info.read mem pointer) ↔ _
  rw [Info.read, overflows_bind, overflows_locate]
  refine or_congr_right ?_
  constructor
  · rintro ⟨found, hfound, h⟩
    cases found with
    | none => exact absurd h (not_overflows_fail _)
    | some header => exact ⟨header, hfound, (overflows_addTable_bind header).1 h⟩
  · rintro ⟨header, hfound, h⟩
    exact ⟨some header, hfound, (overflows_addTable_bind header).2 h⟩

/-- From the last address the search leaves the address space in its second step, with nothing in
    memory at all. -/
theorem outcome_read_last_address :
    (Info.read (Memory.sparse []) 0xffffffffffffffff).outcome = .error .overflow := by
  rfl

/-! ## Memory that ends below the top -/

section

variable (hlow : ∀ ⦃a n bs⦄, mem.fetch a n = some bs → a.toNat + 2 ^ 33 ≤ 2 ^ 64)

include hlow

theorem low_of_read {a : Address} {n : Nat} {bs : Bytes} (h : mem.read a n = .ok bs) :
    a.toNat + 2 ^ 33 ≤ 2 ^ 64 := hlow (Memory.read_eq_ok_iff.1 h).2.2

/-- Tables that far from the top have room for all their offsets, so that only forward records
    are left. -/
theorem TableWraps.exists_target {onForward : Address → Info → Reading Info}
    {wraps : Address → Info → Prop} {address : Address} {info : Info}
    (h : TableWraps mem onForward wraps address info) :
    ∃ place bs known, mem.read place 16 = .ok bs ∧ wraps (bs.word64 8) known := by
  cases h with
  | @start header hread hpast =>
    have hroom := low_of_read hlow hread
    have hsize := (header.word32 4).toNat_lt
    omega
  | @walk header start s hread hfirst hway hwrap =>
    have hroom := low_of_read hlow hread
    have hsize := (header.word32 4).toNat_lt
    have hbytes := (header.word32 12).toNat_lt
    have hstart := Address.offset?_eq_some_iff.1 hfirst
    cases hwrap with
    | place hinside hpast => omega
    | forward record hpointer htarget => exact ⟨_, _, _, hpointer, htarget⟩

/-- Where nothing can be read in the last 8 GiB of the address space, only the search can overflow:
    near the pointer itself, or near one that is read from memory. -/
theorem searchWraps_of_overflow {pointer : Address}
    (h : (Info.read mem pointer).outcome = .error .overflow) :
    SearchWraps mem pointer ∨
      ∃ place bs, mem.read place 16 = .ok bs ∧ SearchWraps mem (bs.word64 8) := by
  obtain hlocate | ⟨found, -, htable⟩ := overflows_bind.1 h
  · exact .inl (overflows_locate.1 hlocate).2
  · cases found with
    | none => exact absurd htable (not_overflows_fail _)
    | some header =>
      obtain ⟨place, bs, known, hread, hsearch | ⟨_, -, hnested⟩⟩ :=
        ((overflows_addTable_bind header).1 htable).exists_target hlow
      · exact .inr ⟨place, bs, hread, hsearch⟩
      · obtain ⟨_, _, _, _, hfalse⟩ := hnested.exists_target hlow
        exact hfalse.elim

end

end Coreboot

end BootHandoff
