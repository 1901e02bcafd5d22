/-
  Where the entries of the memory map come from. Each of them is the region at the place of some
  range in memory (`Gains`), and a `RangeSource` says besides by which forward record, if any, the
  reader came to the table of that range. The walk of a table moves on behind every record that it
  takes in, so that ranges reached the same way lie one behind the other (`RangeSource.Apart`).

  `exists_sources` puts this together: no range counts twice unless its table is reached in two
  ways, and for a given memory `stands` lists the ways. A table that two forward records lead to is
  reached in two: the reader does not keep in mind where it has been (`outcome_read_repeated`).
-/
import BootHandoff.Proofs.Coreboot.Collecting
import BootHandoff.Proofs.Coreboot.Walk

namespace BootHandoff.Coreboot

open Logged

variable {mem : Memory}

/-! ## Sources -/

/-- A range that was read: the forward record by which the reader came to its table, unless that is
    the first one, and its place. -/
structure RangeSource where
  via : Option Address
  place : Address

/-- Of two ranges reached the same way, the second lies behind the first. -/
def RangeSource.Apart (s t : RangeSource) : Prop :=
  s.via = t.via → s.place.toNat + rangeSize ≤ t.place.toNat

/-- The region whose range stands at a place. -/
def regionAt? (mem : Memory) (place : Address) : Option Region :=
  (mem.read place rangeSize).toOption.map regionOfBytes

/-- The entries that the map gains from `info` to `known` are the regions of the sources, in that
    order. -/
def Gains (mem : Memory) (info known : Info) (sources : List RangeSource) : Prop :=
  known.memoryMap.map some =
    info.memoryMap.map some ++ sources.map fun s => regionAt? mem s.place

theorem gains_nil {info known : Info} (h : known.memoryMap = info.memoryMap) :
    Gains mem info known [] := by
  unfold Gains
  rw [h, List.map_nil, List.append_nil]

theorem Gains.trans {info between known : Info} {sources more : List RangeSource}
    (h : Gains mem info between sources) (h' : Gains mem between known more) :
    Gains mem info known (sources ++ more) := by
  unfold Gains at *
  rw [h', h, List.map_append, List.append_assoc]

theorem gains_singleton {info : Info} {place : Address} {bs : Bytes} (via : Option Address)
    (hread : mem.read place rangeSize = .ok bs) :
    Gains mem info { info with memoryMap := info.memoryMap ++ [regionOfBytes bs] }
      [⟨via, place⟩] := by
  have hregion : regionAt? mem place = some (regionOfBytes bs) := by
    unfold regionAt?
    rw [hread]
    rfl
  unfold Gains
  rw [List.map_append, List.map_singleton, List.map_singleton, hregion]

/-- A range stands in a memory record of the table at `header`, among those that the size of the
    record has room for. -/
inductive RangeIn (mem : Memory) (header : Address) : Address → Prop
  | range {start address place : Address} {bytes offset size index : Nat}
      (table : TableAt mem header start bytes) (here : ComesTo mem start bytes offset)
      (record : RecordAt mem start bytes offset address 0x01 size)
      (counted : index < (size - recordHeaderSize) / rangeSize)
      (place_eq : place.toNat = address.toNat + recordHeaderSize + index * rangeSize) :
      RangeIn mem header place

/-! ## Records -/

theorem ofTag_eq_memory_iff {tag : UInt32} : RecordKind.ofTag tag = .memory ↔ tag = 0x01 := by
  constructor
  · intro h
    exact RecordKind.ofTag_inj (b := 0x01) h (by decide)
  · rintro rfl
    rfl

/-- The ranges of a memory record are taken in one after another. -/
theorem gains_addRanges {data : Address} {count index : Nat} {info known : Info}
    (via : Option Address)
    (h : (addRanges mem data count index info).outcome = .ok known) :
    ∃ sources, Gains mem info known sources ∧ sources.Pairwise RangeSource.Apart ∧
      ∀ s ∈ sources, s.via = via ∧ ∃ i, index ≤ i ∧ i < index + count ∧
        s.place.toNat = data.toNat + i * rangeSize := by
  induction count generalizing index info with
  | zero =>
    cases h
    exact ⟨[], gains_nil rfl, .nil, by simp⟩
  | succ count ih =>
    obtain ⟨place, hplace, h⟩ := outcome_bind_eq_ok_iff.1 h
    rw [outcome_sum_eq_ok_iff, Address.offset?_eq_some_iff] at hplace
    obtain ⟨bs, hread, h⟩ := outcome_bind_eq_ok_iff.1 h
    rw [outcome_readBytes_eq_ok_iff] at hread
    dsimp only at h
    rw [outcome_note_bind] at h
    split at h
    · obtain ⟨sources, hgains, hapart, hsources⟩ := ih h
      refine ⟨⟨via, place⟩ :: sources, (gains_singleton via hread).trans hgains, ?_, ?_⟩
      · refine List.pairwise_cons.2 ⟨?_, hapart⟩
        intro t ht _
        obtain ⟨-, i, hle, -, hi⟩ := hsources t ht
        have hmul := Nat.mul_le_mul_right rangeSize hle
        rw [Nat.succ_mul] at hmul
        dsimp only
        omega
      · intro s hs
        rcases List.mem_cons.1 hs with rfl | hs
        · exact ⟨rfl, index, Nat.le_refl _, by omega, hplace⟩
        · obtain ⟨hvia, i, hle, hlt, hi⟩ := hsources s hs
          exact ⟨hvia, i, by omega, by omega, hi⟩
    · rw [outcome_note_bind] at h
      cases h
      exact ⟨[], gains_nil rfl, .nil, by simp⟩

/-- Records without ranges leave the map alone. -/
theorem memoryMap_addRecord {onForward : Address → Info → Reading Info} {address : Address}
    {tag : UInt32} {size : Nat} {info known : Info}
    (hmemory : RecordKind.ofTag tag ≠ .memory) (hforward : RecordKind.ofTag tag ≠ .forward)
    (h : (addRecord mem onForward address tag size info).outcome = .ok known) :
    known.memoryMap = info.memoryMap := by
  unfold addRecord at h
  cases hkind : RecordKind.ofTag tag with
  | memory => exact absurd hkind hmemory
  | forward => exact absurd hkind hforward
  | version =>
    rw [hkind] at h
    obtain ⟨data, -, h⟩ := outcome_bind_eq_ok_iff.1 h
    obtain ⟨bs, -, h⟩ := outcome_bind_eq_ok_iff.1 h
    cases hversion : versionOfBytes? bs with
    | none =>
      rw [hversion] at h
      cases h
      rfl
    | some version =>
      rw [hversion] at h
      cases h
      rfl
  | cbmem =>
    rw [hkind] at h
    obtain ⟨bs, -, h⟩ := outcome_bind_eq_ok_iff.1 h
    dsimp only at h
    rw [outcome_note_bind] at h
    split at h
    · cases h
      rfl
    · cases h
      rfl
  | serial | framebuffer | acpiRsdp =>
    rw [hkind] at h
    obtain ⟨bs, -, h⟩ := outcome_bind_eq_ok_iff.1 h
    cases h
    rfl
  | other =>
    rw [hkind] at h
    cases h
    rfl

/-! ## Tables -/

section

variable (mem) (header : Address) (via : Option Address) (Led : RangeSource → Prop)

/-- A source that the walk of the table at `header`, reached by `via`, has gained before it comes to
    a place: a range of its own that ends there, or one that an earlier forward record led to. Only
    the first table follows its forward records. -/
inductive GainedBefore (limit : Nat) (s : RangeSource) : Prop
  | own (via_eq : s.via = via) (range : RangeIn mem header s.place)
      (le : s.place.toNat + rangeSize ≤ limit)
  | led {address : Address} (first : via = none) (via_eq : s.via = some address)
      (lt : address.toNat < limit) (led : Led s)

/-- The entries that a forward record adds come from ranges in the table that it leads to. -/
def ForwardGains (onForward : Address → Info → Reading Info) : Prop :=
  ∀ ⦃address target info known⦄, Forwards mem header address target →
    (onForward target info).outcome = .ok known →
      ∃ sources, Gains mem info known sources ∧ sources.Pairwise RangeSource.Apart ∧
        ∀ s ∈ sources, via = none ∧ s.via = some address ∧ Led s

end

section

variable {onForward : Address → Info → Reading Info} {header : Address} {via : Option Address}
  {Led : RangeSource → Prop}

theorem GainedBefore.mono {limit later : Nat} {s : RangeSource}
    (h : GainedBefore mem header via Led limit s) (hle : limit ≤ later) :
    GainedBefore mem header via Led later s := by
  cases h with
  | own hvia hrange hplace => exact .own hvia hrange (Nat.le_trans hplace hle)
  | led hfirst hvia hlt hled => exact .led hfirst hvia (Nat.lt_of_lt_of_le hlt hle) hled

/-- What a record gains lies between its start and its end, or is what its forward leads to. -/
theorem gains_addRecord (hforward : ForwardGains mem header via Led onForward)
    {start address : Address} {bytes offset size : Nat} {tag : UInt32} {info known : Info}
    (table : TableAt mem header start bytes) (here : ComesTo mem start bytes offset)
    (record : RecordAt mem start bytes offset address tag size)
    (h : (addRecord mem onForward address tag size info).outcome = .ok known) :
    ∃ sources, Gains mem info known sources ∧ sources.Pairwise RangeSource.Apart ∧
      ∀ s ∈ sources,
        (s.via = via ∧ RangeIn mem header s.place ∧ address.toNat ≤ s.place.toNat ∧
          s.place.toNat + rangeSize ≤ address.toNat + size) ∨
        (via = none ∧ s.via = some address ∧ Led s) := by
  by_cases hmemory : RecordKind.ofTag tag = .memory
  · obtain rfl := ofTag_eq_memory_iff.1 hmemory
    obtain ⟨data, hdata, h⟩ := outcome_bind_eq_ok_iff.1 h
    rw [outcome_sum_eq_ok_iff, Address.offset?_eq_some_iff] at hdata
    rw [outcome_note_bind] at h
    obtain ⟨sources, hgains, hapart, hsources⟩ := gains_addRanges via h
    refine ⟨sources, hgains, hapart, fun s hs => .inl ?_⟩
    obtain ⟨hvia, i, -, hlt, hplace⟩ := hsources s hs
    rw [Nat.zero_add] at hlt
    rw [hdata] at hplace
    have hroom := Nat.div_mul_le_self (size - recordHeaderSize) rangeSize
    have hmul := Nat.mul_le_mul_right rangeSize hlt
    rw [Nat.succ_mul] at hmul
    have hle : recordHeaderSize ≤ size := record.eight_le
    exact ⟨hvia, .range table here record hlt hplace, by omega, by omega⟩
  · by_cases hforwards : RecordKind.ofTag tag = .forward
    · obtain rfl := ofTag_eq_forward_iff.1 hforwards
      obtain ⟨bs, hread, h⟩ := outcome_bind_eq_ok_iff.1 h
      rw [outcome_readBytes_eq_ok_iff] at hread
      obtain ⟨sources, hgains, hapart, hsources⟩ := hforward (.record table here record hread) h
      exact ⟨sources, hgains, hapart, fun s hs => .inr (hsources s hs)⟩
    · exact ⟨[], gains_nil (memoryMap_addRecord hmemory hforwards h), .nil, by simp⟩

/-- The walk gains its sources in the order of the table. -/
theorem gains_addRecords (hforward : ForwardGains mem header via Led onForward)
    {start : Address} {bytes fuel : Nat} {info known : Info}
    (table : TableAt mem header start bytes)
    (h : (addRecords mem onForward start bytes fuel 0 info).outcome = .ok known) :
    ∃ sources, Gains mem info known sources ∧ sources.Pairwise RangeSource.Apart ∧
      ∃ limit, ∀ s ∈ sources, GainedBefore mem header via Led limit s := by
  have hstep : ∀ {offset size address tag between next}, ComesTo mem start bytes offset →
      RecordAt mem start bytes offset address tag size →
        (addRecord mem onForward address tag size between).outcome = .ok next →
          (∃ sources, Gains mem info between sources ∧ sources.Pairwise RangeSource.Apart ∧
            ∀ s ∈ sources, GainedBefore mem header via Led (start.toNat + offset) s) →
          ∃ sources, Gains mem info next sources ∧ sources.Pairwise RangeSource.Apart ∧
            ∀ s ∈ sources, GainedBefore mem header via Led (start.toNat + (offset + size)) s := by
    rintro offset size address tag between next here record hadded
      ⟨sources, hgains, hapart, hsources⟩
    obtain ⟨more, hgains', hapart', hmore⟩ := gains_addRecord hforward table here record hadded
    have haddress := Address.offset?_eq_some_iff.1 record.place
    have hsize := record.eight_le
    refine ⟨sources ++ more, hgains.trans hgains', List.pairwise_append.2 ⟨hapart, hapart', ?_⟩, ?_⟩
    · -- An earlier source ends where this record starts, or another forward record led to it.
      intro s hs t ht hvia
      cases hsources s hs with
      | own hown _ hle =>
        obtain ⟨-, -, hplace, -⟩ | ⟨hfirst, hforwarded, -⟩ := hmore t ht
        · omega
        · rw [hown, hfirst, hforwarded] at hvia
          cases hvia
      | led hfirst hled hlt _ =>
        obtain ⟨hown, -, -, -⟩ | ⟨-, hforwarded, -⟩ := hmore t ht
        · rw [hled, hown, hfirst] at hvia
          cases hvia
        · rw [hled, hforwarded] at hvia
          obtain rfl := Option.some.inj hvia
          omega
    · intro s hs
      rcases List.mem_append.1 hs with hs | hs
      · exact (hsources s hs).mono (by omega)
      · obtain ⟨hown, hrange, -, hle⟩ | ⟨hfirst, hforwarded, hled⟩ := hmore s hs
        · exact .own hown hrange (by omega)
        · exact .led hfirst hforwarded (by omega) hled
  obtain ⟨last, sources, hgains, hapart, hsources⟩ :=
    exists_of_outcome_addRecords hstep .first ⟨[], gains_nil rfl, .nil, by simp⟩ h
  exact ⟨sources, hgains, hapart, _, hsources⟩

theorem gains_addTable (hforward : ForwardGains mem header via Led onForward) {info known : Info}
    (h : (addTable mem onForward header info).outcome = .ok known) :
    ∃ sources, Gains mem info known sources ∧ sources.Pairwise RangeSource.Apart ∧
      ∃ limit, ∀ s ∈ sources, GainedBefore mem header via Led limit s := by
  obtain ⟨bs, hread, h⟩ := outcome_bind_eq_ok_iff.1 h
  rw [outcome_readBytes_eq_ok_iff] at hread
  dsimp only at h
  rw [outcome_note_bind] at h
  obtain ⟨start, hstart, h⟩ := outcome_bind_eq_ok_iff.1 h
  rw [outcome_sum_eq_ok_iff] at hstart
  exact gains_addRecords hforward ⟨bs, hread, hstart, rfl⟩ h

end

/-- A table reached by a forward record leads nowhere. -/
theorem forwardGains_ignoreForward (header : Address) (via : Option Address) :
    ForwardGains mem header via (fun _ => False) ignoreForward := by
  intro address target info known _ h
  cases h
  exact ⟨[], gains_nil rfl, .nil, by simp⟩

/-- A source in the table that a forward record of the table at `header` leads to. -/
inductive LedTo (mem : Memory) (header : Address) : RangeSource → Prop
  | range {address target next place : Address} (forward : Forwards mem header address target)
      (found : (headerNear mem target).outcome = .ok (some next)) (range : RangeIn mem next place) :
      LedTo mem header ⟨some address, place⟩

theorem forwardGains_followForward (header : Address) :
    ForwardGains mem header none (LedTo mem header) (followForward mem) := by
  intro address target info known hforward h
  rw [followForward, outcome_note_bind] at h
  obtain ⟨found, hfound, h⟩ := outcome_bind_eq_ok_iff.1 h
  cases found with
  | none =>
    cases h
    exact ⟨[], gains_nil rfl, .nil, by simp⟩
  | some next =>
    obtain ⟨sources, hgains, hapart, limit, hsources⟩ :=
      gains_addTable (forwardGains_ignoreForward next (some address)) h
    refine ⟨sources, hgains, hapart, fun s hs => ?_⟩
    cases hsources s hs with
    | led _ _ _ hled => exact hled.elim
    | own hvia hrange _ =>
      obtain ⟨via, place⟩ := s
      obtain rfl : via = some address := hvia
      exact ⟨rfl, rfl, .range hforward hfound hrange⟩

/-! ## The reader -/

/-- A range that the reader comes to, in the first table or in one that a forward record of it leads
    to. -/
inductive Stands (mem : Memory) (pointer : Address) : RangeSource → Prop
  | own {header place : Address} (located : (locate mem pointer).outcome = .ok (some header))
      (range : RangeIn mem header place) : Stands mem pointer ⟨none, place⟩
  | led {header : Address} {s : RangeSource}
      (located : (locate mem pointer).outcome = .ok (some header)) (led : LedTo mem header s) :
      Stands mem pointer s

/-! The ranges that the reader of a given memory comes to can be computed. -/

/-- The places of the ranges in the table at an address. -/
def rangesIn (mem : Memory) (header : Address) : List Address :=
  (tableAt? mem header).toList.flatMap fun table =>
    (visits mem table.1 table.2).flatMap fun v =>
      if v.tag = 0x01 then
        (List.range ((v.size - recordHeaderSize) / rangeSize)).map fun i =>
          UInt64.ofNat (v.address.toNat + recordHeaderSize + i * rangeSize)
      else []

theorem RangeIn.mem_rangesIn {header place : Address} (h : RangeIn mem header place) :
    place ∈ rangesIn mem header := by
  cases h with
  | range table here record counted place_eq =>
    refine List.mem_flatMap.2 ⟨_, Option.mem_toList.2 table.tableAt?_eq, ?_⟩
    refine List.mem_flatMap.2 ⟨_, here.mem_visits record, ?_⟩
    rw [if_pos rfl]
    refine List.mem_map.2 ⟨_, List.mem_range.2 counted, ?_⟩
    rw [← place_eq, UInt64.ofNat_toNat]

/-- The forward records of the table at an address, with where they lead. -/
def forwardsIn (mem : Memory) (header : Address) : List (Address × Address) :=
  (tableAt? mem header).toList.flatMap fun table =>
    (visits mem table.1 table.2).flatMap fun v =>
      if v.tag = 0x11 then
        (mem.read v.address 16).toOption.toList.map fun bs => (v.address, bs.word64 8)
      else []

theorem Forwards.mem_forwardsIn {header address target : Address}
    (h : Forwards mem header address target) : (address, target) ∈ forwardsIn mem header := by
  cases h with
  | record table here record pointer =>
    refine List.mem_flatMap.2 ⟨_, Option.mem_toList.2 table.tableAt?_eq, ?_⟩
    refine List.mem_flatMap.2 ⟨_, here.mem_visits record, ?_⟩
    rw [if_pos rfl, pointer]
    exact List.mem_singleton.2 rfl

/-- The header that a search has come to, if it has come to one. -/
def found? (search : Reading (Option Address)) : Option Address := search.outcome.toOption.join

/-- The ranges that the reader comes to. -/
def stands (mem : Memory) (pointer : Address) : List RangeSource :=
  (found? (locate mem pointer)).toList.flatMap fun header =>
    (rangesIn mem header).map (RangeSource.mk none) ++
      (forwardsIn mem header).flatMap fun forward =>
        (found? (headerNear mem forward.2)).toList.flatMap fun next =>
          (rangesIn mem next).map (RangeSource.mk (some forward.1))

theorem mem_toList_found? {search : Reading (Option Address)} {header : Address}
    (h : search.outcome = .ok (some header)) : header ∈ (found? search).toList := by
  rw [found?, h]
  exact List.mem_singleton.2 rfl

theorem Stands.mem_stands {pointer : Address} {s : RangeSource} (h : Stands mem pointer s) :
    s ∈ stands mem pointer := by
  cases h with
  | own located range =>
    refine List.mem_flatMap.2 ⟨_, mem_toList_found? located, List.mem_append_left _ ?_⟩
    exact List.mem_map.2 ⟨_, range.mem_rangesIn, rfl⟩
  | led located led =>
    obtain ⟨forward, found, range⟩ := led
    refine List.mem_flatMap.2 ⟨_, mem_toList_found? located, List.mem_append_right _ ?_⟩
    refine List.mem_flatMap.2 ⟨_, forward.mem_forwardsIn, ?_⟩
    refine List.mem_flatMap.2 ⟨_, mem_toList_found? found, ?_⟩
    exact List.mem_map.2 ⟨_, range.mem_rangesIn, rfl⟩

/-- **Sources of the memory map.** Whatever the reader gives, its memory map is the row of the
    regions of some ranges that it comes to, in which ranges reached the same way lie one behind the
    other. If no range is reached in two ways, none counts twice. -/
theorem exists_sources {pointer : Address} {info : Info}
    (h : (Info.read mem pointer).outcome = .ok info) :
    ∃ sources : List RangeSource,
      info.memoryMap.map some = sources.map (fun s => regionAt? mem s.place) ∧
        (∀ s ∈ sources, Stands mem pointer s) ∧ sources.Pairwise RangeSource.Apart ∧
          ((∀ s t, Stands mem pointer s → Stands mem pointer t → s.place = t.place →
              s.via = t.via) →
            (sources.map RangeSource.place).Nodup) := by
  obtain ⟨found, hfound, h⟩ := outcome_bind_eq_ok_iff.1 h
  cases found with
  | none => cases h
  | some header =>
    obtain ⟨known, hknown, h⟩ := outcome_bind_eq_ok_iff.1 h
    have hinfo : known = info := by
      split at h
      · cases h
      · cases h
        rfl
    subst hinfo
    obtain ⟨sources, hgains, hapart, limit, hsources⟩ :=
      gains_addTable (forwardGains_followForward header) hknown
    have hstands : ∀ s ∈ sources, Stands mem pointer s := by
      intro s hs
      cases hsources s hs with
      | own hvia hrange _ =>
        obtain ⟨via, place⟩ := s
        obtain rfl : via = none := hvia
        exact .own hfound hrange
      | led _ _ _ hled => exact .led hfound hled
    refine ⟨sources, hgains, hstands, hapart, fun hway => ?_⟩
    refine List.pairwise_map.2 (hapart.imp_of_mem fun hs ht hlt heq => ?_)
    have hplace := hlt (hway _ _ (hstands _ hs) (hstands _ ht) heq)
    rw [heq, rangeSize] at hplace
    omega

/-- A table with two ranges that forwards to 0x2000. -/
def splitTable : Table where
  headerChecksum := 0
  tableBytes := 64
  tableChecksum := 0
  tableEntries := 2
  records := [.memory [⟨0, 0xa0000, 1⟩, ⟨0xf0000, 0x10000, 2⟩] [] TableRecord.short_nil,
    .forward 0x2000 []]
  stop := none
  size_le := by decide
  size_eq := by decide

/-- A memory with that table, and one with a range where it leads. -/
def splitMemory : Memory :=
  .sparse [.ofArray 0x1000 splitTable.encode.toArray, .ofArray 0x2000 lowTable.encode.toArray]

/-- The table at 0x2000 is reached in one way, and each of the three ranges counts once, though two
    of them are the same. -/
theorem exists_sources_splitMemory :
    (Info.read splitMemory 0x1000).outcome =
        .ok { memoryMap := [⟨0, 0xa0000, .ram⟩, ⟨0xf0000, 0x10000, .reserved⟩, ⟨0, 0xa0000, .ram⟩] } ∧
      ∃ sources : List RangeSource,
        [some ⟨0, 0xa0000, .ram⟩, some ⟨0xf0000, 0x10000, .reserved⟩, some ⟨0, 0xa0000, .ram⟩] =
            sources.map (fun s => regionAt? splitMemory s.place) ∧
          (sources.map RangeSource.place).Nodup := by
  have hread : (Info.read splitMemory 0x1000).outcome = .ok { memoryMap :=
      [⟨0, 0xa0000, .ram⟩, ⟨0xf0000, 0x10000, .reserved⟩, ⟨0, 0xa0000, .ram⟩] } := rfl
  have hway : ∀ s ∈ stands splitMemory 0x1000, ∀ t ∈ stands splitMemory 0x1000,
      s.place = t.place → s.via = t.via := by decide +kernel
  obtain ⟨sources, hmap, -, -, hnodup⟩ := exists_sources hread
  exact ⟨hread, sources, hmap, hnodup fun s t hs ht => hway s hs.mem_stands t ht.mem_stands⟩

/-- A table without ranges that forwards twice to the same place. -/
def repeatedTable : Table where
  headerChecksum := 0
  tableBytes := 32
  tableChecksum := 0
  tableEntries := 2
  records := [.forward 0x2000 [], .forward 0x2000 []]
  stop := none
  size_le := by decide
  size_eq := by decide

/-- A memory with that table, and one with a single range where it leads. -/
def repeatedMemory : Memory :=
  .sparse [.ofArray 0x1000 repeatedTable.encode.toArray, .ofArray 0x2000 lowTable.encode.toArray]

/-- There is one range in the two tables, and two entries in the memory map. -/
theorem outcome_read_repeated :
    (repeatedTable.records ++ lowTable.records).flatMap TableRecord.regions =
        [⟨0, 0xa0000, .ram⟩] ∧
      (Info.read repeatedMemory 0x1000).outcome =
        .ok { memoryMap := [⟨0, 0xa0000, .ram⟩, ⟨0, 0xa0000, .ram⟩] } :=
  ⟨rfl, rfl⟩

end BootHandoff.Coreboot
