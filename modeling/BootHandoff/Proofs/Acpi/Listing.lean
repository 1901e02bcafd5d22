/-
  What the root tables list, said of the memory alone. `rootWords?` is the row of words behind
  the header of a root table and `listed?` the tables that its non-null entries lead to, both
  without a value where something of it cannot be read. The walk of the reader keeps only the
  tables it looks for, and it goes on while it reads; `reads_rsdp_listing` says that it ends with
  what the listed tables amount to, and fails exactly where they have no value.

  `Reads x value?` ties a run of the reader to such a value and composes like the run
  (`Reads.bind`), so that each step of the walk needs one lemma.
-/
import BootHandoff.Acpi.RootTable

namespace BootHandoff.Acpi

variable {α β : Type}

/-! ## Runs that only read -/

/-- A run ends with the value, or with a failed read where there is none. -/
def Reads (x : Survey α) : Option α → Prop
  | some a => x.outcome = .ok a
  | none => ∃ e, x.outcome = .error (.cause (.badAddress e))

namespace Reads

variable {x : Survey α} {f : α → Survey β} {value? : Option α} {g : α → Option β}

theorem pure (a : α) : Reads (Pure.pure a : Survey α) (some a) := Logged.outcome_pure a

theorem bind_of_some {a : α} (hx : Reads x (some a)) {result? : Option β}
    (hf : Reads (f a) result?) : Reads (x >>= f) result? := by
  unfold Reads at hf ⊢
  rwa [Logged.outcome_bind_of_ok hx f]

theorem bind (hx : Reads x value?) (hf : ∀ a, value? = some a → Reads (f a) (g a)) :
    Reads (x >>= f) (value? >>= g) := by
  cases value? with
  | none =>
    obtain ⟨e, he⟩ := hx
    exact ⟨e, by rw [Logged.outcome_bind, he]; rfl⟩
  | some a => exact bind_of_some hx (hf a rfl)

/-- What a run logs does not change how it ends. -/
theorem note_bind {next : Survey α} (h : Reads next value?) (source : Source) (level : Level)
    (message : String) : Reads (Logged.note source level message >>= fun _ => next) value? :=
  bind_of_some (Logged.outcome_note source level message) h

theorem forM_note_bind {ι : Type} {next : Survey α} (h : Reads next value?) (items : List ι)
    (source : Source) (level : Level) (message : ι → String) :
    Reads ((items.forM fun i => Logged.note source level (message i)) >>= fun _ => next)
      value? := by
  induction items with
  | nil => exact h
  | cons i items ih =>
    rw [List.forM, bind_assoc]
    exact ih.note_bind ..

/-- A run that gave a value gave the one it is tied to. -/
theorem eq_some {a : α} (h : Reads x value?) (hok : x.outcome = .ok a) : value? = some a := by
  unfold Reads at h
  cases value? with
  | none =>
    obtain ⟨e, he⟩ := h
    rw [he] at hok
    cases hok
  | some b =>
    rw [h] at hok
    cases hok
    rfl

end Reads

theorem length_of_read_toOption {mem : Memory} {a : Address} {n : Nat} {bs : Bytes}
    (h : (mem.read a n).toOption = some bs) : bs.length = n := by
  cases hread : mem.read a n with
  | error e => rw [hread] at h; cases h
  | ok cs =>
    rw [hread] at h
    cases h
    exact Memory.length_of_read hread

theorem reads_readBytes (mem : Memory) (a : Address) (n : Nat) :
    Reads (readBytes mem a n) (mem.read a n).toOption := by
  unfold Reads
  rw [readBytes, Logged.outcome_ofExcept]
  cases mem.read a n with
  | error e => exact ⟨e, rfl⟩
  | ok bs => rfl

/-- A sum that leaves the address space counts as a failed read. -/
theorem reads_offset {f : Address → Survey β} {g : Address → Option β} (a : Address) (n : Nat)
    (length : Nat) (hf : ∀ place, Reads (f place) (g place)) :
    Reads (match a.offset? n with
      | none => Logged.fail (.badAddress (.overflow a length))
      | some place => f place) (a.offset? n >>= g) := by
  cases a.offset? n with
  | none => exact ⟨_, rfl⟩
  | some place => exact hf place

/-! ## Listed tables -/

/-- A listed table: where it is, and the signature it carries. -/
structure Listed where
  address : Address
  signature : Bytes
deriving DecidableEq, Repr

/-- The table at an address, if its header can be read. -/
def tableAt? (mem : Memory) (address : Address) : Option Listed := do
  let header ← (mem.read address 36).toOption
  pure ⟨address, header.take 4⟩

/-- Entry `i` of the root table at an address, a little-endian word of `width` bytes. -/
def rootWord? (mem : Memory) (width : Nat) (root : Address) (i : Nat) : Option Address := do
  let place ← root.offset? (36 + i * width)
  let word ← (mem.read place width).toOption
  pure (UInt64.ofNat word.value)

/-- The entries of the root table at an address, none at address zero. -/
def rootWords? (mem : Memory) (width : Nat) (root : Address) : Option (List Address) :=
  if root = 0 then some []
  else do
    let header ← (mem.read root 36).toOption
    (List.range (((header.word32 4).toNat - 36) / width)).mapM (rootWord? mem width root)

/-- The tables that the non-null entries among these addresses lead to. -/
def tablesAt? (mem : Memory) (entries : List Address) : Option (List Listed) :=
  (entries.filter (· ≠ 0)).mapM (tableAt? mem)

/-- The tables that `count` entries from entry `index` on lead to. -/
def listedFrom? (mem : Memory) (width : Nat) (root : Address) (index count : Nat) :
    Option (List Listed) :=
  (List.range' index count).mapM (rootWord? mem width root) >>= tablesAt? mem

/-- The tables listed by the root table at an address. -/
def listed? (mem : Memory) (width : Nat) (root : Address) : Option (List Listed) :=
  rootWords? mem width root >>= tablesAt? mem

/-- The tables listed by the root tables of a root pointer, those of the XSDT first. -/
def Rsdp.listed? (mem : Memory) (rsdp : Rsdp) : Option (List Listed) := do
  let old ← Acpi.listed? mem 4 rsdp.rsdt.toUInt64
  let new ← Acpi.listed? mem 8 rsdp.xsdt
  pure (new ++ old)

/-- The first of the tables that carries a signature. -/
def firstWith? (signature : Bytes) (tables : List Listed) : Option Address :=
  (tables.find? (·.signature = signature)).map (·.address)

/-- Some of the tables carries a signature. -/
def carried (signature : Bytes) (tables : List Listed) : Bool :=
  tables.any (·.signature = signature)

namespace Listing

/-- What listed tables amount to. -/
def ofTables (tables : List Listed) : Listing where
  fadt := firstWith? Signature.fadt tables
  mcfg := firstWith? Signature.mcfg tables
  tpm2 := carried Signature.tpm2 tables
  tcpa := carried Signature.tcpa tables

/-- Two rows of tables in sequence: the second is looked at last. -/
theorem ofTables_append (xs ys : List Listed) :
    ofTables (xs ++ ys) = (ofTables ys).merge (ofTables xs) := by
  simp only [ofTables, merge, firstWith?, carried, List.find?_append, List.any_append,
    Option.map_or, Bool.or_comm]

theorem merge_empty (found : Listing) : found.merge {} = found := by
  simp [merge]

theorem merge_ofTables_nil (found : Listing) : (ofTables []).merge found = found := by
  simp [ofTables, merge, firstWith?, carried]

theorem merge_assoc (a b c : Listing) : (a.merge b).merge c = a.merge (b.merge c) := by
  simp only [merge, Option.or_assoc, Bool.or_assoc]

theorem signatures_nodup :
    [Signature.fadt, Signature.mcfg, Signature.tpm2, Signature.tcpa].Nodup := by decide

/-- Taking note of a table is merging what it amounts to alone. -/
theorem add_eq_merge (found : Listing) (t : Listed) :
    found.add t.signature t.address = (ofTables [t]).merge found := by
  have hnodup := signatures_nodup
  simp only [List.nodup_cons, List.mem_cons, List.not_mem_nil, or_false, not_or] at hnodup
  obtain ⟨⟨hfm, hf2, hfa⟩, ⟨hm2, hma⟩, h2a, -⟩ := hnodup
  by_cases hf : t.signature = Signature.fadt
  · simp [add, ofTables, merge, firstWith?, carried, hf, hfm, hf2, hfa]
  by_cases hm : t.signature = Signature.mcfg
  · simp [add, ofTables, merge, firstWith?, carried, hm, Ne.symm hfm, hm2, hma]
  by_cases h2 : t.signature = Signature.tpm2
  · simp [add, ofTables, merge, firstWith?, carried, h2, Ne.symm hf2, Ne.symm hm2, h2a]
  by_cases ha : t.signature = Signature.tcpa
  · simp [add, ofTables, merge, firstWith?, carried, ha, Ne.symm hfa, Ne.symm hma, Ne.symm h2a]
  · simp [add, ofTables, merge, firstWith?, carried, hf, hm, h2, ha]

/-- The first of some tables is taken note of before the others. -/
theorem merge_ofTables_cons (found : Listing) (t : Listed) (tables : List Listed) :
    (ofTables (t :: tables)).merge found =
      (ofTables tables).merge (found.add t.signature t.address) := by
  rw [add_eq_merge, ← merge_assoc, ← ofTables_append]
  rfl

end Listing

/-! ## The walk -/

variable (mem : Memory)

theorem reads_readHeader_bind {f : TableHeader → Survey β} {g : Listed → Option β} (a : Address)
    (hf : ∀ header, Reads (f header) (g ⟨a, header.signature⟩)) :
    Reads (readHeader mem a >>= f) (tableAt? mem a >>= g) := by
  rw [readHeader, tableAt?, bind_assoc, bind_assoc]
  refine (reads_readBytes mem a 36).bind fun header _ => ?_
  exact hf (TableHeader.ofBytes header)

namespace RootTable

theorem entryOfBytes_eq (kind : RootTable) {word : Bytes} (h : word.length = kind.entrySize) :
    kind.entryOfBytes word = UInt64.ofNat word.value := by
  have hslice : word.slice 0 kind.entrySize = word := by rw [← h, Bytes.slice_self]
  cases kind with
  | xsdt => rw [entryOfBytes, Bytes.word64, show (8 : Nat) = xsdt.entrySize from rfl, hslice]
  | rsdt =>
    have hlt : word.value < 2 ^ 32 := by
      have hvalue := Bytes.value_lt word
      rwa [h] at hvalue
    rw [entryOfBytes, Bytes.word32, show (4 : Nat) = rsdt.entrySize from rfl, hslice,
      ← UInt64.toNat_inj, UInt32.toNat_toUInt64, UInt32.toNat_ofNat_of_lt' hlt,
      Address.toNat_ofNat (by omega)]

theorem listedFrom?_succ (width : Nat) (root : Address) (index count : Nat) :
    listedFrom? mem width root index (count + 1) = (do
      let entry ← rootWord? mem width root index
      if entry = 0 then listedFrom? mem width root (index + 1) count
      else do
        let table ← tableAt? mem entry
        let tables ← listedFrom? mem width root (index + 1) count
        pure (table :: tables)) := by
  unfold listedFrom?
  rw [List.range'_succ, List.mapM_cons]
  cases rootWord? mem width root index with
  | none => rfl
  | some entry =>
    -- The tables are read after all entries here, and each after its own entry there.
    cases (List.range' (index + 1) count).mapM (rootWord? mem width root) with
    | none => by_cases h : entry = 0 <;> cases tableAt? mem entry <;> simp [h]
    | some entries => by_cases h : entry = 0 <;> simp [h, tablesAt?]

theorem reads_listEntries (kind : RootTable) (root : Address) (length count index : Nat)
    (found : Listing) :
    Reads (listEntries mem kind root length count index found) (do
      let tables ← listedFrom? mem kind.entrySize root index count
      pure ((Listing.ofTables tables).merge found)) := by
  induction count generalizing index found with
  | zero =>
    show Reads (pure found) (some ((Listing.ofTables []).merge found))
    rw [Listing.merge_ofTables_nil]
    exact Reads.pure found
  | succ count ih =>
    rw [listEntries, listedFrom?_succ]
    unfold rootWord?
    simp only [bind_assoc, pure_bind]
    refine reads_offset root _ length fun place => ?_
    refine (reads_readBytes mem place kind.entrySize).bind fun word hword => ?_
    have hlength := length_of_read_toOption hword
    rw [entryOfBytes_eq kind hlength]
    by_cases h : UInt64.ofNat word.value = 0
    · rw [if_pos h, if_pos h]
      exact ih (index + 1) found
    · rw [if_neg h, if_neg h, bind_assoc]
      refine reads_readHeader_bind mem _ fun header => ?_
      simp only [bind_assoc, pure_bind, Listing.merge_ofTables_cons]
      exact ih (index + 1) _

theorem reads_listing (kind : RootTable) {root : Address} (h : root ≠ 0) :
    Reads (listing mem kind root) (do
      let tables ← listed? mem kind.entrySize root
      pure (Listing.ofTables tables)) := by
  rw [listing, listed?, rootWords?, if_neg h, readHeader]
  simp only [bind_assoc, pure_bind]
  refine (reads_readBytes mem root 36).bind fun header _ => ?_
  refine Reads.note_bind ?_ ..
  have hwalk := reads_listEntries mem kind root (header.word32 4).toNat
    (((header.word32 4).toNat - 36) / kind.entrySize) 0 {}
  simp only [Listing.merge_empty, listedFrom?, ← List.range_eq_range', bind_assoc] at hwalk
  exact hwalk

theorem reads_listingIfPresent (kind : RootTable) (root : Address) :
    Reads (listingIfPresent mem kind root) (do
      let tables ← listed? mem kind.entrySize root
      pure (Listing.ofTables tables)) := by
  rw [listingIfPresent]
  split
  · rename_i h
    rw [listed?, rootWords?, if_pos h]
    exact Reads.pure (Listing.ofTables [])
  · rename_i h
    exact reads_listing mem kind h

end RootTable

/-- **The walk.** What the reader keeps of the root tables is what the listed tables amount to,
    and it fails exactly where something of them cannot be read. -/
theorem reads_rsdp_listing (rsdp : Rsdp) :
    Reads (rsdp.listing mem) (do
      let tables ← rsdp.listed? mem
      pure (Listing.ofTables tables)) := by
  rw [Rsdp.listing, Rsdp.listed?]
  have hold := RootTable.reads_listingIfPresent mem .rsdt rsdp.rsdt.toUInt64
  have hnew := RootTable.reads_listingIfPresent mem .xsdt rsdp.xsdt
  have hboth := hold.bind fun old _ => hnew.bind fun new _ => Reads.pure (old.merge new)
  simp only [bind_assoc, pure_bind, Listing.ofTables_append] at hboth ⊢
  exact hboth

end BootHandoff.Acpi
