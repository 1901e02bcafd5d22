/-
  The way of the reader through the coreboot tables. `ComesTo` names the offsets that the walk of a
  table comes to, `TableAt` the tables that a header announces, `Opens` the headers that the reader
  opens: that of the first table and those that its forward records lead to. What every record on
  the way preserves holds where the walk ends (`exists_of_outcome_addRecords`). For a given memory
  the way can be computed: `tableAt?` opens a table and `visits` lists the records that the walk of
  it comes to (`ComesTo.mem_visits`).
-/
import BootHandoff.Proofs.Coreboot.Overflow
import BootHandoff.Proofs.Coreboot.Search

namespace BootHandoff.Coreboot

open Logged

variable {mem : Memory}

/-- The walk of a table comes to the record at an offset. -/
inductive ComesTo (mem : Memory) (start : Address) (bytes : Nat) : Nat → Prop
  | first : ComesTo mem start bytes 0
  | next {offset size : Nat} {address : Address} {tag : UInt32}
      (here : ComesTo mem start bytes offset)
      (record : RecordAt mem start bytes offset address tag size)
      (small : offset + size < 2 ^ 32) : ComesTo mem start bytes (offset + size)

/-- The header at an address can be read, and announces records from `start` on that take `bytes`
    bytes. -/
structure TableAt (mem : Memory) (header start : Address) (bytes : Nat) : Prop where
  fields : ∃ bs, mem.read header 24 = .ok bs ∧ header.offset? (bs.word32 4).toNat = some start ∧
    (bs.word32 12).toNat = bytes

/-- The record at `address`, in the table at `header`, forwards to `target`. -/
inductive Forwards (mem : Memory) (header address : Address) : Address → Prop
  | record {start : Address} {bytes offset size : Nat} {bs : Bytes}
      (table : TableAt mem header start bytes) (here : ComesTo mem start bytes offset)
      (record : RecordAt mem start bytes offset address 0x11 size)
      (pointer : mem.read address 16 = .ok bs) : Forwards mem header address (bs.word64 8)

/-- A table that the reader opens: the first one, or one that the first one forwards to. -/
inductive Opens (mem : Memory) (pointer : Address) : Address → Prop
  | first {header : Address} (found : (locate mem pointer).outcome = .ok (some header)) :
      Opens mem pointer header
  | forwarded {first address target header : Address}
      (located : (locate mem pointer).outcome = .ok (some first))
      (forward : Forwards mem first address target)
      (found : (headerNear mem target).outcome = .ok (some header)) : Opens mem pointer header

theorem Opens.carriesSignature {pointer header : Address} (h : Opens mem pointer header) :
    carriesSignature mem header = true := by
  cases h with
  | first found => exact carriesSignature_of_locate found
  | forwarded _ _ found => exact carriesSignature_of_headerNear found

/-- An invariant of the walk: what each record on the way preserves holds at its end, wherever that
    is. -/
theorem exists_of_outcome_addRecords {onForward : Address → Info → Reading Info} {start : Address}
    {bytes : Nat} {P : Nat → Info → Prop}
    (hstep : ∀ {offset size address tag info known}, ComesTo mem start bytes offset →
      RecordAt mem start bytes offset address tag size →
        (addRecord mem onForward address tag size info).outcome = .ok known →
          P offset info → P (offset + size) known)
    {fuel offset : Nat} {info result : Info} (here : ComesTo mem start bytes offset)
    (hinfo : P offset info)
    (h : (addRecords mem onForward start bytes fuel offset info).outcome = .ok result) :
    ∃ last, P last result := by
  induction fuel generalizing offset info with
  | zero =>
    cases h
    exact ⟨offset, hinfo⟩
  | succ fuel ih =>
    rw [addRecords] at h
    split at h
    · cases h
      exact ⟨offset, hinfo⟩
    · rename_i hinside
      obtain ⟨address, hplace, h⟩ := outcome_bind_eq_ok_iff.1 h
      rw [outcome_sum_eq_ok_iff] at hplace
      obtain ⟨head, hread, h⟩ := outcome_bind_eq_ok_iff.1 h
      rw [outcome_readBytes_eq_ok_iff] at hread
      dsimp only at h
      split at h
      · cases h
        exact ⟨offset, hinfo⟩
      · rename_i hsize
        have record : RecordAt mem start bytes offset address (head.word32 0)
            (head.word32 4).toNat :=
          ⟨Nat.lt_of_not_le hinside, hplace, ⟨head, hread, rfl, rfl⟩, Nat.le_of_not_lt hsize⟩
        obtain ⟨known, hadded, h⟩ := outcome_bind_eq_ok_iff.1 h
        have hknown := hstep here record hadded hinfo
        split at h
        · rename_i hsmall
          exact ih (.next here record hsmall) hknown h
        · cases h
          exact ⟨_, hknown⟩

/-! ## The way computed -/

/-- The table that the header at an address announces: where its records start, and how many bytes
    they take. -/
def tableAt? (mem : Memory) (header : Address) : Option (Address × Nat) := do
  let bs ← (mem.read header 24).toOption
  let start ← header.offset? (bs.word32 4).toNat
  pure (start, (bs.word32 12).toNat)

theorem TableAt.tableAt?_eq {header start : Address} {bytes : Nat}
    (h : TableAt mem header start bytes) : tableAt? mem header = some (start, bytes) := by
  obtain ⟨bs, hread, hstart, rfl⟩ := h.fields
  rw [tableAt?, hread, Except.toOption, Option.bind_eq_bind, Option.bind_some, hstart]
  rfl

/-- A record on the way: its offset in the table, its address, its tag and its size. -/
structure Visit where
  offset : Nat
  address : Address
  tag : UInt32
  size : Nat
deriving DecidableEq

/-- The record at an offset of a table. -/
def visitAt? (mem : Memory) (start : Address) (bytes offset : Nat) : Option Visit := do
  let address ← start.offset? offset
  let head ← (mem.read address 8).toOption
  if offset < bytes ∧ 8 ≤ (head.word32 4).toNat then
    some ⟨offset, address, head.word32 0, (head.word32 4).toNat⟩
  else none

theorem RecordAt.visitAt?_eq {start address : Address} {bytes offset size : Nat} {tag : UInt32}
    (h : RecordAt mem start bytes offset address tag size) :
    visitAt? mem start bytes offset = some ⟨offset, address, tag, size⟩ := by
  obtain ⟨head, hread, rfl, rfl⟩ := h.header
  rw [visitAt?, h.place, Option.bind_eq_bind, Option.bind_some, hread, Except.toOption,
    Option.bind_eq_bind, Option.bind_some, if_pos ⟨h.inside, h.eight_le⟩]

/-- At most so many records from an offset on. -/
def visitsFrom (mem : Memory) (start : Address) (bytes : Nat) : Nat → Nat → List Visit
  | 0, _ => []
  | fuel + 1, offset =>
    match visitAt? mem start bytes offset with
    | none => []
    | some v => v :: visitsFrom mem start bytes fuel (offset + v.size)

/-- All records of a table. -/
def visits (mem : Memory) (start : Address) (bytes : Nat) : List Visit :=
  visitsFrom mem start bytes bytes 0

theorem visitsFrom_of_recordAt {start address : Address} {bytes offset size fuel : Nat}
    {tag : UInt32} (h : RecordAt mem start bytes offset address tag size)
    (hfuel : bytes ≤ offset + fuel) :
    ∃ fuel', bytes ≤ offset + size + fuel' ∧ visitsFrom mem start bytes fuel offset =
      ⟨offset, address, tag, size⟩ :: visitsFrom mem start bytes fuel' (offset + size) := by
  have hinside := h.inside
  have hsize := h.eight_le
  cases fuel with
  | zero => omega
  | succ fuel => exact ⟨fuel, by omega, by rw [visitsFrom, h.visitAt?_eq]⟩

/-- What is left of the records where the walk has come to. -/
theorem ComesTo.visitsFrom_suffix {start : Address} {bytes offset : Nat}
    (here : ComesTo mem start bytes offset) :
    ∃ fuel, bytes ≤ offset + fuel ∧
      visitsFrom mem start bytes fuel offset <:+ visits mem start bytes := by
  induction here with
  | first => exact ⟨bytes, Nat.le_add_left .., List.suffix_rfl⟩
  | next here record _ ih =>
    obtain ⟨fuel, hfuel, hsuffix⟩ := ih
    obtain ⟨fuel', hfuel', hvisits⟩ := visitsFrom_of_recordAt record hfuel
    exact ⟨fuel', hfuel', (hvisits ▸ List.suffix_cons ..).trans hsuffix⟩

theorem ComesTo.mem_visits {start address : Address} {bytes offset size : Nat} {tag : UInt32}
    (here : ComesTo mem start bytes offset)
    (record : RecordAt mem start bytes offset address tag size) :
    ⟨offset, address, tag, size⟩ ∈ visits mem start bytes := by
  obtain ⟨fuel, hfuel, hsuffix⟩ := here.visitsFrom_suffix
  obtain ⟨fuel', -, hvisits⟩ := visitsFrom_of_recordAt record hfuel
  rw [hvisits] at hsuffix
  exact hsuffix.subset (List.mem_cons_self ..)

end BootHandoff.Coreboot
