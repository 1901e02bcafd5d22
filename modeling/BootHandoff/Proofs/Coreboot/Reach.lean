/-
  Which bytes the reader of the coreboot tables depends on. `Touches` names them for one table: the
  24 bytes of its header and, for every record that the walk comes to (`ComesTo`), the bytes of its
  size or those of the layout of its kind, whichever are more. `Opens` names the tables: the first
  one and those that its forward records lead to.

  `read_congr` is the law for two memories. If they agree on those bytes, and on where signatures
  are found, the reader does the same in both, to the last line of its log. Where every record with
  the layout of its kind ends inside the table (`Fits`), those bytes are all inside of what the
  header declares; for a given memory `ReachesBelow` and `EndsInside` compute how far they go and
  whether the records end there. Otherwise they need not be: no kind of record compares its size
  with its layout, and a console whose record is cut short is read from the bytes behind the table
  (`outcome_read_shortConsole`).
-/
import BootHandoff.Proofs.Coreboot.Search
import BootHandoff.Proofs.Coreboot.Walk
import BootHandoff.Proofs.Memory.Agreement
import BootHandoff.Proofs.Memory.Holding

namespace BootHandoff.Coreboot

variable {mem other : Memory}

/-! ## Bytes -/

/-- The bytes that a record takes or, if these are more, those that the layout of its kind
    takes. -/
def recordExtent (tag : UInt32) (size : Nat) : Nat := max size (RecordKind.ofTag tag).layoutSize

/-- A byte that reading the table at `header` depends on. -/
inductive Touches (mem : Memory) (header : Address) : Nat → Prop
  | header {x : Nat} (le : header.toNat ≤ x) (lt : x < header.toNat + 24) : Touches mem header x
  | recordHeader {start address : Address} {bytes offset x : Nat}
      (table : TableAt mem header start bytes) (here : ComesTo mem start bytes offset)
      (inside : offset < bytes) (place : start.offset? offset = some address)
      (le : address.toNat ≤ x) (lt : x < address.toNat + 8) : Touches mem header x
  | record {start address : Address} {bytes offset size x : Nat} {tag : UInt32}
      (table : TableAt mem header start bytes) (here : ComesTo mem start bytes offset)
      (record : RecordAt mem start bytes offset address tag size)
      (le : address.toNat ≤ x) (lt : x < address.toNat + recordExtent tag size) :
      Touches mem header x

/-- A byte that the reader depends on, beyond the signatures that it searches for. -/
def Reached (mem : Memory) (pointer : Address) (x : Nat) : Prop :=
  ∃ header, Opens mem pointer header ∧ Touches mem header x

/-- A byte of the header of a table or of the records that the header declares. -/
inductive DeclaredBy (mem : Memory) (header : Address) : Nat → Prop
  | header {x : Nat} (le : header.toNat ≤ x) (lt : x < header.toNat + 24) : DeclaredBy mem header x
  | records {start : Address} {bytes x : Nat} (table : TableAt mem header start bytes)
      (le : start.toNat ≤ x) (lt : x < start.toNat + bytes) : DeclaredBy mem header x

/-- A byte of a table that the reader opens, as far as the table's header declares it. -/
def Declared (mem : Memory) (pointer : Address) (x : Nat) : Prop :=
  ∃ header, Opens mem pointer header ∧ DeclaredBy mem header x

/-- Every record that the walk comes to ends inside the table, with the layout of its kind. -/
structure Fits (mem : Memory) (header : Address) : Prop where
  recordHeader : ∀ ⦃start bytes offset⦄, TableAt mem header start bytes →
    ComesTo mem start bytes offset → offset < bytes → offset + 8 ≤ bytes
  record : ∀ ⦃start bytes offset address tag size⦄, TableAt mem header start bytes →
    ComesTo mem start bytes offset → RecordAt mem start bytes offset address tag size →
      offset + recordExtent tag size ≤ bytes

theorem Fits.declaredBy {header : Address} (h : Fits mem header) {x : Nat}
    (hx : Touches mem header x) : DeclaredBy mem header x := by
  cases hx with
  | header hle hlt => exact .header hle hlt
  | recordHeader table here inside place hle hlt =>
    have hplace := Address.offset?_eq_some_iff.1 place
    have hfits := h.recordHeader table here inside
    exact .records table (by omega) (by omega)
  | record table here record hle hlt =>
    have hplace := Address.offset?_eq_some_iff.1 record.place
    have hfits := h.record table here record
    exact .records table (by omega) (by omega)

/-- Where the records fit, what the reader depends on is what the headers declare. -/
theorem declared_of_reached {pointer : Address}
    (hfits : ∀ header, Opens mem pointer header → Fits mem header) {x : Nat}
    (hx : Reached mem pointer x) : Declared mem pointer x := by
  obtain ⟨header, hopens, htouches⟩ := hx
  exact ⟨header, hopens, (hfits header hopens).declaredBy htouches⟩

/-! ## Bounds that can be computed -/

/-- All that reading the table at an address depends on lies below a limit. -/
def ReachesBelow (mem : Memory) (limit : Nat) (header : Address) : Prop :=
  header.toNat + 24 ≤ limit ∧ ∀ table ∈ tableAt? mem header,
    table.1.toNat + table.2 + 8 ≤ limit ∧
      ∀ v ∈ visits mem table.1 table.2, v.address.toNat + recordExtent v.tag v.size ≤ limit

instance (mem : Memory) (limit : Nat) (header : Address) :
    Decidable (ReachesBelow mem limit header) := inferInstanceAs (Decidable (_ ∧ _))

theorem Touches.lt {header : Address} {limit x : Nat} (h : ReachesBelow mem limit header)
    (hx : Touches mem header x) : x < limit := by
  obtain ⟨hheader, htable⟩ := h
  cases hx with
  | header hle hlt => omega
  | recordHeader table here inside place hle hlt =>
    obtain ⟨hend, -⟩ := htable _ table.tableAt?_eq
    have hplace := Address.offset?_eq_some_iff.1 place
    dsimp only at hend
    omega
  | record table here record hle hlt =>
    obtain ⟨-, hvisits⟩ := htable _ table.tableAt?_eq
    exact Nat.lt_of_lt_of_le hlt (hvisits _ (here.mem_visits record))

theorem lt_of_reached {pointer : Address} {limit x : Nat}
    (h : ∀ header, Opens mem pointer header → ReachesBelow mem limit header)
    (hx : Reached mem pointer x) : x < limit := by
  obtain ⟨header, hopens, htouches⟩ := hx
  exact htouches.lt (h header hopens)

/-- All that the header at an address declares lies below a limit. -/
def DeclaresBelow (mem : Memory) (limit : Nat) (header : Address) : Prop :=
  header.toNat + 24 ≤ limit ∧
    ∀ table ∈ tableAt? mem header, table.1.toNat + table.2 ≤ limit

instance (mem : Memory) (limit : Nat) (header : Address) :
    Decidable (DeclaresBelow mem limit header) := inferInstanceAs (Decidable (_ ∧ _))

theorem lt_of_declared {pointer : Address} {limit x : Nat}
    (h : ∀ header, Opens mem pointer header → DeclaresBelow mem limit header)
    (hx : Declared mem pointer x) : x < limit := by
  obtain ⟨header, hopens, hdeclared⟩ := hx
  obtain ⟨hheader, htable⟩ := h header hopens
  cases hdeclared with
  | header hle hlt => omega
  | records table hle hlt => exact Nat.lt_of_lt_of_le hlt (htable _ table.tableAt?_eq)

/-- Each record of the table at an address ends inside of it, and so does the header of the next
    one. -/
def EndsInside (mem : Memory) (header : Address) : Prop :=
  ∀ table ∈ tableAt? mem header, (0 < table.2 → 8 ≤ table.2) ∧
    ∀ v ∈ visits mem table.1 table.2, v.offset + recordExtent v.tag v.size ≤ table.2 ∧
      (v.offset + v.size < table.2 → v.offset + v.size + 8 ≤ table.2)

instance (mem : Memory) (header : Address) : Decidable (EndsInside mem header) :=
  inferInstanceAs (Decidable (∀ table ∈ tableAt? mem header, _ ∧ _))

theorem fits_of_endsInside {header : Address} (h : EndsInside mem header) : Fits mem header := by
  constructor
  · intro start bytes offset table here inside
    obtain ⟨hfirst, hvisits⟩ := h _ table.tableAt?_eq
    cases here with
    | first =>
      have hbytes : 8 ≤ bytes := hfirst inside
      omega
    | next here record _ => exact (hvisits _ (here.mem_visits record)).2 inside
  · intro start bytes offset address tag size table here record
    exact ((h _ table.tableAt?_eq).2 _ (here.mem_visits record)).1

/-! ## The search -/

section

variable (hsig : ∀ a, carriesSignature other a = carriesSignature mem a)

include hsig

theorem firstSignature_congr (base : Address) (steps offset : Nat) :
    firstSignature other base steps offset = firstSignature mem base steps offset := by
  induction steps generalizing offset with
  | zero => rfl
  | succ steps ih =>
    unfold firstSignature
    simp only [hsig, ih]

theorem searchArea_congr (base : Address) (size : Nat) :
    searchArea other base size = searchArea mem base size :=
  firstSignature_congr hsig base _ 0

theorem headerNear_congr (pointer : Address) : headerNear other pointer = headerNear mem pointer := by
  unfold headerNear
  rw [hsig, searchArea_congr hsig]

theorem locate_congr (pointer : Address) : locate other pointer = locate mem pointer := by
  unfold locate headerInLowMemory
  rw [headerNear_congr hsig, searchArea_congr hsig, searchArea_congr hsig]

end

/-! ## Records -/

theorem offset_bind_congr {β : Type} {a : Address} {n : Nat} {f g : Address → Reading β}
    (h : ∀ place, a.offset? n = some place → f place = g place) :
    (Logged.sum (a.offset? n) >>= f) = (Logged.sum (a.offset? n) >>= g) := by
  exact Logged.bind_congr_of_ok fun place hplace => h place (Logged.outcome_sum_eq_ok_iff.1 hplace)

section

variable {inside : Nat → Prop} (h : mem.Agree other inside)

include h

theorem readBytes_bind_congr {α : Type} {a : Address} {n : Nat} {f g : Bytes → Reading α}
    (hinside : ∀ x, a.toNat ≤ x → x < a.toNat + n → inside x)
    (hrest : ∀ bs, mem.read a n = .ok bs → f bs = g bs) :
    (readBytes other a n >>= f) = (readBytes mem a n >>= g) := by
  have hread : readBytes other a n = readBytes mem a n := by
    unfold readBytes
    rw [h.read_eq hinside]
  rw [hread]
  exact Logged.bind_congr_of_ok fun bs hbs => hrest bs (outcome_readBytes_eq_ok_iff.1 hbs)

theorem addRanges_congr (data : Address) (count index : Nat) (info : Info)
    (hinside : ∀ x, data.toNat ≤ x → x < data.toNat + (index + count) * rangeSize → inside x) :
    addRanges other data count index info = addRanges mem data count index info := by
  induction count generalizing index info with
  | zero => rfl
  | succ count ih =>
    refine offset_bind_congr fun address hplace => ?_
    have haddress := Address.offset?_eq_some_iff.1 hplace
    have hrange : ∀ x, address.toNat ≤ x → x < address.toNat + rangeSize → inside x := by
      intro x hle hlt
      simp only [rangeSize] at haddress hlt hinside
      exact hinside x (by omega) (by omega)
    refine readBytes_bind_congr h hrange fun bs _ => ?_
    have hrest := fun known => ih (index + 1) known fun x hle hlt =>
      hinside x hle (by rwa [Nat.add_right_comm, Nat.add_assoc] at hlt)
    simp only [hrest]

/-- A memory record looks at the ranges that its size has room for. -/
theorem addMemory_congr (address : Address) (size : Nat) (info : Info)
    (hinside : ∀ x, address.toNat ≤ x → x < address.toNat + size → inside x) :
    addMemory other address size info = addMemory mem address size info := by
  refine offset_bind_congr fun data hplace => ?_
  have hdata := Address.offset?_eq_some_iff.1 hplace
  have hroom := Nat.div_mul_le_self (size - recordHeaderSize) rangeSize
  rw [addRanges_congr h data _ 0 info]
  intro x hle hlt
  rw [Nat.zero_add] at hlt
  exact hinside x (by omega) (by omega)

/-- A version record looks at the text that its size has room for. -/
theorem addVersion_congr (address : Address) (size : Nat) (info : Info)
    (hinside : ∀ x, address.toNat ≤ x → x < address.toNat + size → inside x) :
    addVersion other address size info = addVersion mem address size info := by
  refine offset_bind_congr fun data hplace => ?_
  have hdata := Address.offset?_eq_some_iff.1 hplace
  have htext := Nat.min_le_left (size - recordHeaderSize) maxVersionBytes
  exact readBytes_bind_congr h (fun x hle hlt => hinside x (by omega) (by omega)) fun _ _ => rfl

/-- A record is read inside of its extent, but for what a forward record leads to. -/
theorem addRecord_congr {onForward onForward' : Address → Info → Reading Info} (address : Address)
    (tag : UInt32) (size : Nat) (info : Info)
    (hinside : ∀ x, address.toNat ≤ x → x < address.toNat + recordExtent tag size → inside x)
    (hforward : tag = 0x11 → ∀ bs, mem.read address 16 = .ok bs →
      onForward' (bs.word64 8) info = onForward (bs.word64 8) info) :
    addRecord other onForward' address tag size info =
      addRecord mem onForward address tag size info := by
  have hsize : ∀ x, address.toNat ≤ x → x < address.toNat + size → inside x := fun x hle hlt =>
    hinside x hle (by rw [recordExtent]; omega)
  have hlayout : ∀ kind, RecordKind.ofTag tag = kind → ∀ x, address.toNat ≤ x →
      x < address.toNat + kind.layoutSize → inside x := by
    rintro _ rfl x hle hlt
    exact hinside x hle (by rw [recordExtent]; omega)
  unfold addRecord
  cases hkind : RecordKind.ofTag tag with
  | memory => exact addMemory_congr h address size info hsize
  | version => exact addVersion_congr h address size info hsize
  | serial => exact readBytes_bind_congr h (hlayout _ hkind) fun _ _ => rfl
  | framebuffer => exact readBytes_bind_congr h (hlayout _ hkind) fun _ _ => rfl
  | cbmem => exact readBytes_bind_congr h (hlayout _ hkind) fun _ _ => rfl
  | acpiRsdp => exact readBytes_bind_congr h (hlayout _ hkind) fun _ _ => rfl
  | forward =>
    exact readBytes_bind_congr h (hlayout _ hkind) (hforward (ofTag_eq_forward_iff.1 hkind))
  | other => rfl

/-! ## Tables -/

section

variable {onForward onForward' : Address → Info → Reading Info}

/-- The walk depends on the records that it comes to. -/
theorem addRecords_congr {start : Address} {bytes : Nat}
    (hhead : ∀ {offset address}, ComesTo mem start bytes offset → offset < bytes →
      start.offset? offset = some address →
        ∀ x, address.toNat ≤ x → x < address.toNat + 8 → inside x)
    (hrecord : ∀ {offset address tag size}, ComesTo mem start bytes offset →
      RecordAt mem start bytes offset address tag size →
        ∀ x, address.toNat ≤ x → x < address.toNat + recordExtent tag size → inside x)
    (hforward : ∀ {offset address size bs}, ComesTo mem start bytes offset →
      RecordAt mem start bytes offset address 0x11 size → mem.read address 16 = .ok bs →
        ∀ info, onForward' (bs.word64 8) info = onForward (bs.word64 8) info)
    {offset : Nat} (here : ComesTo mem start bytes offset) (fuel : Nat) (info : Info) :
    addRecords other onForward' start bytes fuel offset info =
      addRecords mem onForward start bytes fuel offset info := by
  induction fuel generalizing offset info with
  | zero => rfl
  | succ fuel ih =>
    unfold addRecords
    split
    · rfl
    · rename_i hinside
      have hlt := Nat.lt_of_not_le hinside
      refine offset_bind_congr fun address hplace => ?_
      refine readBytes_bind_congr h (hhead here hlt hplace) fun head hread => ?_
      dsimp only
      split
      · rfl
      · rename_i hsize
        have record : RecordAt mem start bytes offset address (head.word32 0)
            (head.word32 4).toNat :=
          ⟨hlt, hplace, ⟨head, hread, rfl, rfl⟩, Nat.le_of_not_lt hsize⟩
        have hpointers : head.word32 0 = 0x11 → ∀ bs, mem.read address 16 = .ok bs →
            onForward' (bs.word64 8) info = onForward (bs.word64 8) info := by
          intro htag bs hpointer
          rw [htag] at record
          exact hforward here record hpointer info
        rw [addRecord_congr h address _ _ info (hrecord here record) hpointers]
        refine Logged.bind_congr_of_ok fun known _ => ?_
        split
        · rename_i hsmall
          exact ih (.next here record hsmall) known
        · rfl

theorem addTable_congr {header : Address} (info : Info)
    (htouches : ∀ x, Touches mem header x → inside x)
    (hforward : ∀ address target, Forwards mem header address target →
      ∀ info, onForward' target info = onForward target info) :
    addTable other onForward' header info = addTable mem onForward header info := by
  refine readBytes_bind_congr h (fun x hle hlt => htouches x (.header hle hlt)) fun bs hread => ?_
  refine Logged.bind_congr_of_ok fun _ _ => offset_bind_congr fun start hstart => ?_
  have table : TableAt mem header start (bs.word32 12).toNat := ⟨bs, hread, hstart, rfl⟩
  refine addRecords_congr h ?_ ?_ ?_ .first _ info
  · intro offset address here hinside hplace x hle hlt
    exact htouches x (.recordHeader table here hinside hplace hle hlt)
  · intro offset address tag size here record x hle hlt
    exact htouches x (.record table here record hle hlt)
  · intro offset address size bs here record hpointer
    exact hforward _ _ (.record table here record hpointer)

end

/-- The nested tables ignore their forward records, wherever these point. -/
theorem followForward_congr (hsig : ∀ a, carriesSignature other a = carriesSignature mem a)
    {target : Address} (info : Info)
    (htouches : ∀ header, (headerNear mem target).outcome = .ok (some header) →
      ∀ x, Touches mem header x → inside x) :
    followForward other target info = followForward mem target info := by
  unfold followForward
  rw [headerNear_congr hsig]
  refine Logged.bind_congr_of_ok fun _ _ => Logged.bind_congr_of_ok fun found hfound => ?_
  cases found with
  | none => rfl
  | some header => exact addTable_congr h info (htouches header hfound) fun _ _ _ _ => rfl

end

/-! ## The reader -/

theorem read_eq_of_agree (hsig : ∀ a, carriesSignature other a = carriesSignature mem a)
    {pointer : Address} (h : mem.Agree other (Reached mem pointer)) :
    Info.read other pointer = Info.read mem pointer := by
  unfold Info.read
  rw [locate_congr hsig]
  refine Logged.bind_congr_of_ok fun found hfound => ?_
  cases found with
  | none => rfl
  | some header =>
    have htouches : ∀ x, Touches mem header x → Reached mem pointer x := fun x hx =>
      ⟨header, .first hfound, hx⟩
    have htable : addTable other (followForward other) header {} =
        addTable mem (followForward mem) header {} :=
      addTable_congr h {} htouches fun address target hforward info =>
        followForward_congr h hsig info fun next hnext x hx =>
          ⟨next, .forwarded hfound hforward hnext, hx⟩
    dsimp only
    rw [htable]

/-- **What the reader depends on.** In two memories of which the same can be read, with signatures
    at the same places, the reader does the same if the headers of the tables and the extents of
    their records are the same; where every record fits into its table it is enough that the headers
    and the bytes that they declare are. -/
theorem read_congr (hsig : ∀ a, carriesSignature other a = carriesSignature mem a)
    (pointer : Address) :
    (mem.Agree other (Reached mem pointer) → Info.read other pointer = Info.read mem pointer) ∧
      ((∀ header, Opens mem pointer header → Fits mem header) →
        mem.Agree other (Declared mem pointer) →
          Info.read other pointer = Info.read mem pointer) := by
  refine ⟨read_eq_of_agree hsig, fun hfits h => read_eq_of_agree hsig ?_⟩
  exact h.mono fun x hx => declared_of_reached hfits hx

/-! ## Bytes behind a table -/

/-- A memory with a table at 0x500, given by its bytes, and some more bytes behind it. -/
def withBehind (table behind : Bytes) : Memory :=
  .sparse [.ofArray 0x500 (table ++ behind).toArray]

section

variable {table behind behind' : Bytes}

theorem fetch_withBehind (a : Address) (n : Nat) :
    (withBehind table behind).fetch a n =
      if 0x500 ≤ a.toNat ∧ a.toNat + n ≤ 0x500 + (table.length + behind.length) then
        some ((Extent.ofArray 0x500 (table ++ behind).toArray).slice a n)
      else none := by
  have hcovers : (Extent.ofArray 0x500 (table ++ behind).toArray).covers a n =
      decide (0x500 ≤ a.toNat ∧ a.toNat + n ≤ 0x500 + (table.length + behind.length)) := by
    simp [Extent.covers, Extent.ofArray]
  show (List.find? _ [_]).map _ = _
  rw [List.find?_singleton, hcovers]
  split <;> simp_all

/-- What lies behind a table is no matter at the places before it. -/
theorem agree_withBehind {inside : Nat → Prop} {limit : Nat}
    (hlength : behind'.length = behind.length) (hlimit : limit ≤ 0x500 + table.length)
    (hinside : ∀ x, inside x → x < limit) :
    (withBehind table behind).Agree (withBehind table behind') inside := by
  refine ⟨fun a n => ?_, fun a n bs cs hbs hcs i hi hplace => ?_⟩
  · rw [fetch_withBehind, fetch_withBehind, hlength]
    split <;> rfl
  · rw [fetch_withBehind] at hbs hcs
    split at hbs
    · rename_i hrange
      rw [hlength, if_pos hrange] at hcs
      obtain rfl := Option.some.inj hbs
      obtain rfl := Option.some.inj hcs
      have hlt := hinside _ hplace
      have hk : a.toNat - 0x500 + i < table.length := by omega
      rw [Extent.getElem?_slice hi, Extent.getElem?_slice hi]
      show some ((table ++ behind).toArray.getD (a.toNat - 0x500 + i) 0) =
        some ((table ++ behind').toArray.getD (a.toNat - 0x500 + i) 0)
      simp [Array.getD, List.getElem_append_left hk, hk, Nat.lt_add_right]
    · cases hbs

theorem exists_ofNat_of_range {a : Address} {n : Nat} (hfirst : 0x500 ≤ a.toNat)
    (hlast : a.toNat + 4 ≤ 0x500 + n) : ∃ k < n, a = UInt64.ofNat (0x500 + k) := by
  refine ⟨a.toNat - 0x500, by omega, ?_⟩
  rw [Nat.add_sub_cancel' hfirst, UInt64.ofNat_toNat]

theorem carriesSignature_of_fetch_eq_none {a : Address} (h : mem.fetch a 4 = none) :
    carriesSignature mem a = false := by
  unfold carriesSignature
  cases hread : mem.read a 4 with
  | error e => rfl
  | ok bs =>
    rw [(Memory.read_eq_ok_iff.1 hread).2.2] at h
    cases h

/-- Signatures are looked for where the bytes are. -/
theorem carriesSignature_withBehind (hlength : behind'.length = behind.length)
    (h : ∀ k < table.length + behind.length,
      carriesSignature (withBehind table behind') (UInt64.ofNat (0x500 + k)) =
        carriesSignature (withBehind table behind) (UInt64.ofNat (0x500 + k))) (a : Address) :
    carriesSignature (withBehind table behind') a =
      carriesSignature (withBehind table behind) a := by
  by_cases hrange : 0x500 ≤ a.toNat ∧ a.toNat + 4 ≤ 0x500 + (table.length + behind.length)
  · obtain ⟨k, hk, rfl⟩ := exists_ofNat_of_range hrange.1 hrange.2
    exact h k hk
  · rw [carriesSignature_of_fetch_eq_none (by rw [fetch_withBehind, hlength, if_neg hrange]),
      carriesSignature_of_fetch_eq_none (by rw [fetch_withBehind, if_neg hrange])]

/-- What is said of the places where signatures are is decided where the bytes are. -/
theorem of_carriesSignature_withBehind {P : Address → Prop}
    (h : ∀ k < table.length + behind.length,
      carriesSignature (withBehind table behind) (UInt64.ofNat (0x500 + k)) = true →
        P (UInt64.ofNat (0x500 + k)))
    {a : Address} (ha : carriesSignature (withBehind table behind) a = true) : P a := by
  by_cases hrange : 0x500 ≤ a.toNat ∧ a.toNat + 4 ≤ 0x500 + (table.length + behind.length)
  · obtain ⟨k, hk, rfl⟩ := exists_ofNat_of_range hrange.1 hrange.2
    exact h k hk ha
  · rw [carriesSignature_of_fetch_eq_none (by rw [fetch_withBehind, if_neg hrange])] at ha
    cases ha

end

/-- A table that forwards to the place behind it. -/
def leadingTable : Table where
  headerChecksum := 0
  tableBytes := 16
  tableChecksum := 0
  tableEntries := 1
  records := [.forward 0x528 []]
  stop := none
  size_le := by decide
  size_eq := by decide

/-- The table with the range of `lowTable` and a console whose record is cut short behind its
    header. -/
def shortConsole : Bytes :=
  signature ++ Bytes.ofWord32 24 ++ Bytes.ofWord32 0 ++ Bytes.ofWord32 36 ++ Bytes.ofWord32 0
    ++ Bytes.ofWord32 2 ++ lowTable.records.flatMap TableRecord.encode
    ++ Bytes.ofWord32 0x0f ++ Bytes.ofWord32 8

/-- The first table leads to the one with the short record, which is read to the end of its layout,
    and a byte behind that does not matter. Where the first table leads to one with a record that
    fits, no byte behind the tables does. -/
theorem read_congr_leadingTable :
    let short (b : UInt8) :=
      withBehind (leadingTable.encode ++ shortConsole ++ .replicate 20 1) [b]
    let whole (b : UInt8) := withBehind (leadingTable.encode ++ lowTable.encode) [b]
    ((short 0).Agree (short 1) (Reached (short 0) 0x500) ∧
      (Info.read (short 0) 0x500).outcome.toOption = some
        { memoryMap := [⟨0, 0xa0000, .ram⟩]
          serial := some ⟨0x01010101, 0x01010101, 0x01010101, 0x01010101, 0x01010101⟩ } ∧
      Info.read (short 1) 0x500 = Info.read (short 0) 0x500) ∧
    (∀ header, Opens (whole 0) 0x500 header → Fits (whole 0) header) ∧
      (whole 0).Agree (whole 1) (Declared (whole 0) 0x500) ∧
      Info.read (whole 1) 0x500 = Info.read (whole 0) 0x500 := by
  intro short whole
  constructor
  · have hreached : (short 0).Agree (short 1) (Reached (short 0) 0x500) := by
      have hbelow {header : Address} : carriesSignature (short 0) header = true →
          ReachesBelow (short 0) 0x578 header :=
        of_carriesSignature_withBehind (by decide +kernel)
      have hlimit : 0x578 ≤ 0x500 + (leadingTable.encode ++ shortConsole ++ .replicate 20 1).length :=
        by decide +kernel
      refine agree_withBehind rfl hlimit fun x hx => lt_of_reached (fun header hopens => ?_) hx
      exact hbelow hopens.carriesSignature
    have hsig : ∀ a, carriesSignature (short 1) a = carriesSignature (short 0) a :=
      carriesSignature_withBehind rfl (by decide +kernel)
    exact ⟨hreached, by decide +kernel, (read_congr hsig 0x500).1 hreached⟩
  · have hfits : ∀ header, Opens (whole 0) 0x500 header → Fits (whole 0) header := by
      intro header hopens
      have hends : carriesSignature (whole 0) header = true → EndsInside (whole 0) header :=
        of_carriesSignature_withBehind (by decide +kernel)
      exact fits_of_endsInside (hends hopens.carriesSignature)
    have hdeclared : (whole 0).Agree (whole 1) (Declared (whole 0) 0x500) := by
      have hbelow {header : Address} : carriesSignature (whole 0) header = true →
          DeclaresBelow (whole 0) 0x55c header :=
        of_carriesSignature_withBehind (by decide +kernel)
      have hlimit : 0x55c ≤ 0x500 + (leadingTable.encode ++ lowTable.encode).length := by
        decide +kernel
      refine agree_withBehind rfl hlimit fun x hx => lt_of_declared (fun header hopens => ?_) hx
      exact hbelow hopens.carriesSignature
    have hsig : ∀ a, carriesSignature (whole 1) a = carriesSignature (whole 0) a :=
      carriesSignature_withBehind rfl (by decide +kernel)
    exact ⟨hfits, hdeclared, (read_congr hsig 0x500).2 hfits hdeclared⟩

/-- Two memories that agree on all that the headers of the tables declare, where the reader gives
    two consoles: their bytes lie behind the table. -/
theorem outcome_read_shortConsole :
    (∀ a, carriesSignature (withBehind shortConsole (.replicate 20 1)) a =
        carriesSignature (withBehind shortConsole (.replicate 20 0)) a) ∧
      (withBehind shortConsole (.replicate 20 0)).Agree
        (withBehind shortConsole (.replicate 20 1))
        (Declared (withBehind shortConsole (.replicate 20 0)) 0x500) ∧
      (Info.read (withBehind shortConsole (.replicate 20 0)) 0x500).outcome =
        .ok { memoryMap := [⟨0, 0xa0000, .ram⟩], serial := some ⟨0, 0, 0, 0, 0⟩ } ∧
      (Info.read (withBehind shortConsole (.replicate 20 1)) 0x500).outcome =
        .ok { memoryMap := [⟨0, 0xa0000, .ram⟩]
              serial := some ⟨0x01010101, 0x01010101, 0x01010101, 0x01010101, 0x01010101⟩ } := by
  refine ⟨carriesSignature_withBehind rfl (by decide +kernel), ?_, rfl, rfl⟩
  have hlimit : 0x53c ≤ 0x500 + shortConsole.length := by decide +kernel
  refine agree_withBehind rfl hlimit fun x hx => lt_of_declared (fun header hopens => ?_) hx
  exact of_carriesSignature_withBehind (by decide +kernel) hopens.carriesSignature

end BootHandoff.Coreboot
