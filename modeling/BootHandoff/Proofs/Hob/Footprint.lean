/-
  What an append writes to the window, and what it leaves alone. It writes the table at the start,
  its own block and the closing block behind it, and no other byte (`Appended.byteAt_eq`); how it
  ends, and where, depends on the sizes of the window and of the blocks before it, and on no byte
  of the window (`Alike.append`).

  `offerAll_oblivious`: two lists in windows with different bytes cannot be told apart by their
  answers and by what is in them, and past the closing block each window is as it was.
  `append_offerAll`: which blocks a list accepts, and what an append changes.
-/
import BootHandoff.Proofs.Hob.Filling

namespace BootHandoff

namespace Hob

/-- The length of a block before it is rounded up. -/
def unpadded : Hob → Nat
  | resource .. => 48
  | allocation .. => 48
  | guid _ data => 24 + data.length
  | cpu .. => 16

theorem size_eq_unpadded (hob : Hob) : hob.size = (hob.unpadded + 7) / 8 * 8 := by
  cases hob with
  | resource kind attributes base length => rw [size_resource, unpadded]
  | allocation base length memoryType => rw [size_allocation, unpadded]
  | guid name data => rw [size_guid, unpadded, alignLength]
  | cpu memoryBits ioBits => rw [size_cpu, unpadded]

end Hob

namespace HobList

variable {l m : HobList} {hob : Hob} {hobs : List Hob}

/-- What a list answers to a block: its refusal, if it refuses it. -/
def refusal (l : HobList) (hob : Hob) : Option HobError :=
  match l.append hob with
  | .ok _ => none
  | .error e => some e

theorem refusal_of_ok (h : l.append hob = .ok m) : l.refusal hob = none := by rw [refusal, h]

theorem refusal_of_error {e : HobError} (h : l.append hob = .error e) :
    l.refusal hob = some e := by rw [refusal, h]

/-! ## The bytes that are left alone -/

/-- The blocks before the new one and the bytes past the closing block. -/
theorem Appended.byteAt_eq (h : Appended l hob m) {i : Nat} (hi : Phit.size ≤ i)
    (hout : i < l.closing ∨ m.closing + hobHeaderSize ≤ i) :
    m.window.byteAt i = l.window.byteAt i := by
  have hclosing := h.closing_eq
  have hphit : 0 + m.phit.encode.length ≤ i := by
    rw [Phit.length_encode]
    omega
  rw [h.window_eq, Window.byteAt_write_of_le hphit]
  rcases hout with hbefore | hpast
  · rw [Window.byteAt_write_of_lt (by omega), Window.byteAt_write_of_lt hbefore]
  · have hclosed : m.closing + closingHob.length ≤ i := hpast
    have hblock : l.closing + hob.encode.length ≤ i := by
      rw [Hob.length_encode]
      omega
    rw [Window.byteAt_write_of_le hclosed, Window.byteAt_write_of_le hblock]

theorem byteAt_create {window : Window} {base memoryBottom memoryTop : Address}
    (h : create window base memoryBottom memoryTop = .ok l) {i : Nat}
    (hi : l.closing + hobHeaderSize ≤ i) : l.window.byteAt i = window.byteAt i := by
  unfold create at h
  split at h
  · cases h
  · split at h
    · cases h
      have hclosed : Phit.size + closingHob.length ≤ i := hi
      rw [close, Window.byteAt_write_of_le (by rw [Phit.length_encode]; omega)]
      exact Window.byteAt_write_of_le hclosed
    · cases h

theorem closing_le_offer (l : HobList) (hob : Hob) : l.closing ≤ (l.offer hob).closing := by
  cases happend : l.append hob with
  | ok m =>
    rw [offer_of_ok happend, closing_of_append happend]
    exact Nat.le_add_right _ _
  | error e => exact Nat.le_of_eq (by rw [offer_of_error happend])

theorem closing_le_offerAll (l : HobList) (offered : List Hob) :
    l.closing ≤ (l.offerAll offered).closing := by
  induction offered generalizing l with
  | nil => exact Nat.le_refl _
  | cons hob offered ih => exact Nat.le_trans (closing_le_offer l hob) (ih _)

theorem byteAt_offer (hstart : Phit.size ≤ l.closing) {i : Nat}
    (hi : (l.offer hob).closing + hobHeaderSize ≤ i) :
    (l.offer hob).window.byteAt i = l.window.byteAt i := by
  cases happend : l.append hob with
  | ok m =>
    have ha := appended_of_append happend
    have hclosing := ha.closing_eq
    rw [offer_of_ok happend] at hi ⊢
    exact ha.byteAt_eq (by omega) (.inr hi)
  | error e => rw [offer_of_error happend]

/-- Past the closing block no offer has written anything. -/
theorem byteAt_offerAll (hstart : Phit.size ≤ l.closing) (offered : List Hob) {i : Nat}
    (hi : (l.offerAll offered).closing + hobHeaderSize ≤ i) :
    (l.offerAll offered).window.byteAt i = l.window.byteAt i := by
  induction offered generalizing l with
  | nil => rfl
  | cons hob offered ih =>
    have hlater := closing_le_offerAll (l.offer hob) offered
    have hoffer := closing_le_offer l hob
    rw [offerAll_cons] at hi ⊢
    rw [ih (by omega) hi]
    exact byteAt_offer hstart (by omega)

theorem phit_size_le_of_create {window : Window} {base memoryBottom memoryTop : Address}
    (h : create window base memoryBottom memoryTop = .ok l) (offered : List Hob) :
    Phit.size ≤ (l.offerAll offered).closing := by
  rw [(holds_offerAll h offered).closing_eq]
  exact Nat.le_add_right _ _

/-- Past the closing block the window is as it was before there was a list. -/
theorem byteAt_offerAll_create {window : Window} {base memoryBottom memoryTop : Address}
    (h : create window base memoryBottom memoryTop = .ok l) (offered : List Hob) {i : Nat}
    (hi : (l.offerAll offered).closing + hobHeaderSize ≤ i) :
    (l.offerAll offered).window.byteAt i = window.byteAt i := by
  have hgrown := closing_le_offerAll l offered
  have hstart : Phit.size ≤ l.closing := phit_size_le_of_create h []
  rw [byteAt_offerAll hstart offered hi]
  exact byteAt_create h (by omega)

/-! ## Two windows -/

/-- Two lists that differ in nothing but the bytes of their windows. -/
structure Alike (l m : HobList) : Prop extends SamePlace l m where
  closing_eq : m.closing = l.closing

theorem alike_of_create {window other : Window} (hsize : other.size = window.size)
    {base memoryBottom memoryTop : Address}
    (hl : create window base memoryBottom memoryTop = .ok l)
    (hm : create other base memoryBottom memoryTop = .ok m) : Alike l m := by
  obtain ⟨hbase, hlsize, hbottom, htop⟩ := place_of_create hl
  obtain ⟨hbase', hmsize, hbottom', htop'⟩ := place_of_create hm
  refine ⟨⟨hbase'.trans hbase.symm, ?_, hbottom'.trans hbottom.symm, htop'.trans htop.symm⟩, ?_⟩
  · rw [hmsize, hlsize, hsize]
  · rw [(holds_create hl).closing_eq, (holds_create hm).closing_eq]

namespace Alike

theorem phit_eq (h : Alike l m) : m.phit = l.phit := by
  simp only [phit, endAddress, h.base_eq, h.size_eq, h.memoryBottom_eq, h.memoryTop_eq,
    h.closing_eq]

theorem available_eq (h : Alike l m) : m.available = l.available := by
  rw [available, available, h.size_eq, h.closing_eq]

/-- Lists that are alike answer alike, and are alike afterwards. -/
theorem append (h : Alike l m) (hob : Hob) :
    (∃ l' m', l.append hob = .ok l' ∧ m.append hob = .ok m' ∧ Alike l' m') ∨
      ∃ e, l.append hob = .error e ∧ m.append hob = .error e := by
  by_cases hfits : hob.size ≤ l.available ∧ hob.size ≤ maxHobSize
  · obtain ⟨l', hl⟩ := append_of_le hfits.1 hfits.2
    obtain ⟨m', hm⟩ := append_of_le (h.available_eq ▸ hfits.1) hfits.2
    have hla := appended_of_append hl
    have hma := appended_of_append hm
    refine .inl ⟨l', m', hl, hm, ⟨⟨?_, ?_, ?_, ?_⟩, ?_⟩⟩
    · rw [hma.samePlace.base_eq, h.base_eq, hla.samePlace.base_eq]
    · rw [hma.samePlace.size_eq, h.size_eq, hla.samePlace.size_eq]
    · rw [hma.samePlace.memoryBottom_eq, h.memoryBottom_eq, hla.samePlace.memoryBottom_eq]
    · rw [hma.samePlace.memoryTop_eq, h.memoryTop_eq, hla.samePlace.memoryTop_eq]
    · rw [hma.closing_eq, h.closing_eq, hla.closing_eq]
  · refine .inr ⟨_, append_of_not_le hfits, ?_⟩
    rw [← h.available_eq] at hfits ⊢
    exact append_of_not_le hfits

theorem refusal_eq (h : Alike l m) (hob : Hob) : m.refusal hob = l.refusal hob := by
  rcases h.append hob with ⟨l', m', hl, hm, -⟩ | ⟨e, hl, hm⟩
  · rw [refusal_of_ok hl, refusal_of_ok hm]
  · rw [refusal_of_error hl, refusal_of_error hm]

theorem offerAll (h : Alike l m) (offered : List Hob) :
    Alike (l.offerAll offered) (m.offerAll offered) ∧ m.accepted offered = l.accepted offered := by
  induction offered generalizing l m with
  | nil => exact ⟨h, rfl⟩
  | cons hob offered ih =>
    rw [offerAll_cons, offerAll_cons]
    rcases h.append hob with ⟨l', m', hl, hm, halike⟩ | ⟨e, hl, hm⟩
    · obtain ⟨hrest, haccepted⟩ := ih halike
      rw [offer_of_ok hl, offer_of_ok hm, accepted_cons_of_ok hl, accepted_cons_of_ok hm, haccepted]
      exact ⟨hrest, rfl⟩
    · rw [offer_of_error hl, offer_of_error hm, accepted_cons_of_error hl,
        accepted_cons_of_error hm]
      exact ih h

variable (h : Alike l m) (hl : Holds l hobs) (hm : Holds m hobs)

include h hl hm

theorem bytes_eq : m.bytes = l.bytes := by
  rw [hm.bytes_eq, hl.bytes_eq, itemsOf, itemsOf, h.phit_eq]

theorem items_eq : m.items = l.items := by
  rw [items, items, hm.blocks, hl.blocks, itemsOf, itemsOf, h.phit_eq]

end Alike

/-- **Nothing of the old content of a window leaks.** Two windows of one size refuse a list alike,
    or two lists are started in them. After any offers these give the same answer to every next
    block, show the same bytes, table and items, and past the closing block each window holds what
    it held before there was a list. -/
theorem offerAll_oblivious (window other : Window) (base memoryBottom memoryTop : Address)
    (hsize : other.size = window.size) (hfit : base.toNat + window.size < 2 ^ 64) :
    (window.size < 64 → ∃ fault, create window base memoryBottom memoryTop = .error fault ∧
      create other base memoryBottom memoryTop = .error fault) ∧
    (64 ≤ window.size → ∃ start otherStart,
      create window base memoryBottom memoryTop = .ok start ∧
      create other base memoryBottom memoryTop = .ok otherStart ∧
      ∀ offered : List Hob,
        let list := start.offerAll offered
        let otherList := otherStart.offerAll offered
        (∀ hob, otherList.refusal hob = list.refusal hob) ∧
        otherList.bytes = list.bytes ∧ otherList.phit = list.phit ∧
        otherList.items = list.items ∧
        ∀ i, list.bytes.length ≤ i →
          list.window.byteAt i = window.byteAt i ∧
          otherList.window.byteAt i = other.byteAt i) := by
  constructor
  · intro hsmall
    refine ⟨_, create_of_lt_minWindow hsmall .., ?_⟩
    rw [← hsize] at hsmall ⊢
    exact create_of_lt_minWindow hsmall ..
  · intro hlarge
    obtain ⟨start, hstart⟩ := exists_create hlarge hfit memoryBottom memoryTop
    rw [← hsize] at hlarge hfit
    obtain ⟨otherStart, hother⟩ := exists_create hlarge hfit memoryBottom memoryTop
    refine ⟨start, otherStart, hstart, hother, fun offered => ?_⟩
    intro list otherList
    obtain ⟨halike, haccepted⟩ := (alike_of_create hsize hstart hother).offerAll offered
    have hholds : Holds list (start.accepted offered) := holds_offerAll hstart offered
    have hotherHolds : Holds otherList (start.accepted offered) :=
      haccepted ▸ holds_offerAll hother offered
    refine ⟨halike.refusal_eq, halike.bytes_eq hholds hotherHolds, halike.phit_eq,
      halike.items_eq hholds hotherHolds, fun i hi => ?_⟩
    have hpast : list.closing + hobHeaderSize ≤ i := length_bytes list ▸ hi
    exact ⟨byteAt_offerAll_create hstart offered hpast,
      byteAt_offerAll_create hother offered (halike.closing_eq ▸ hpast)⟩

/-- The windows differ in every byte. Of three offers the second is refused; the lists show the
    same bytes, and the eight bytes past them are as different as before. -/
theorem offerAll_oblivious_refused :
    ∃ start otherStart,
      create (.fill 112 0xaa) 0xd00000 0x800000 0x4d00000 = .ok start ∧
      create (.fill 112 0x55) 0xd00000 0x800000 0x4d00000 = .ok otherStart ∧
      let offered := [.cpu 39 16, .allocation 0 0x1000 4, .cpu 36 16]
      (start.offerAll offered).bytes.length = 96 ∧
      (otherStart.offerAll offered).bytes = (start.offerAll offered).bytes ∧
      (start.offerAll offered).window.byteAt 96 = 0xaa ∧
      (otherStart.offerAll offered).window.byteAt 96 = 0x55 := by
  obtain ⟨-, hlists⟩ := offerAll_oblivious (.fill 112 0xaa) (.fill 112 0x55) 0xd00000 0x800000
    0x4d00000 rfl (by decide)
  obtain ⟨start, otherStart, hstart, hother, hoffers⟩ := hlists (by decide)
  refine ⟨start, otherStart, hstart, hother, ?_⟩
  intro offered
  obtain ⟨-, hbytes, -, -, hpast⟩ := hoffers offered
  have hlength : (start.offerAll offered).bytes.length = 96 := by
    cases hstart
    decide +kernel
  exact ⟨hlength, hbytes, hpast 96 (Nat.le_of_eq hlength)⟩

/-! ## Accepted and refused blocks -/

/-- The length in the header of a block that was just appended. -/
theorem Holds.word16_length_append (h : Holds l hobs) (happend : l.append hob = .ok m) :
    (m.bytes.word16 (l.closing + 2)).toNat = hob.size := by
  have ha := appended_of_append happend
  have hframed : Hob.Framed (hob.type, hob.encode) :=
    Hob.framed_encode (Nat.lt_succ_of_le ha.size_le_max)
  have hbytes : m.bytes = Hob.row (m.itemsOf hobs) ++ (hob.encode ++ closingHob) := by
    rw [(h.append happend).bytes_eq, row_itemsOf, row_itemsOf, List.flatMap_append,
      List.flatMap_singleton, List.append_assoc, List.append_assoc, List.append_assoc]
  have hlength : (Hob.row (m.itemsOf hobs)).length = l.closing := by
    rw [h.closing_eq, row_itemsOf, List.length_append, Phit.length_encode]
  rw [hbytes, ← hlength, hframed.word16_length, Hob.length_encode]

/-- A block is taken exactly if it fits the room and the 16 bits of its header. -/
theorem exists_append_iff :
    (∃ m, l.append hob = .ok m) ↔ hob.size ≤ l.available ∧ hob.size ≤ maxHobSize := by
  constructor
  · rintro ⟨m, happend⟩
    have ha := appended_of_append happend
    exact ⟨ha.size_le_available, ha.size_le_max⟩
  · rintro ⟨hfit, hmax⟩
    exact append_of_le hfit hmax

theorem append_error {error : HobError} (h : l.append hob = .error error) :
    error = .outOfResources hob.size l.available := by
  have hnot : ¬ (hob.size ≤ l.available ∧ hob.size ≤ maxHobSize) := fun hfit => by
    obtain ⟨m, hm⟩ := exists_append_iff.mpr hfit
    rw [hm] at h
    cases h
  rw [append_of_not_le hnot] at h
  exact (Except.error.inj h).symm

/-- The blocks that were refused have left no trace: the list is the one that was offered the
    accepted blocks alone. -/
theorem offerAll_accepted (l : HobList) (offered : List Hob) :
    l.offerAll (l.accepted offered) = l.offerAll offered := by
  induction offered generalizing l with
  | nil => rfl
  | cons hob offered ih =>
    cases happend : l.append hob with
    | ok m => rw [accepted_cons_of_ok happend, offerAll_cons, offerAll_cons, offer_of_ok happend, ih]
    | error e => rw [accepted_cons_of_error happend, offerAll_cons, offer_of_error happend, ih]

theorem create_error_iff {window : Window} {base memoryBottom memoryTop : Address} {e : HobError} :
    create window base memoryBottom memoryTop = .error (.cause e) ↔
      window.size < minWindow ∧ e = .outOfResources minWindow window.size := by
  rcases Nat.lt_or_ge window.size minWindow with hsmall | hlarge
  · rw [create_of_lt_minWindow hsmall]
    constructor
    · intro h
      cases h
      exact ⟨hsmall, rfl⟩
    · rintro ⟨-, rfl⟩
      rfl
  · constructor
    · intro h
      rcases create_of_minWindow_le hlarge base memoryBottom memoryTop with hover | ⟨start, hok⟩
      · rw [hover] at h
        cases h
      · rw [hok] at h
        cases h
    · rintro ⟨hsmall, -⟩
      exact absurd hsmall (Nat.not_lt.mpr hlarge)

/-- **What an append does.** No list is started in a window of less than 64 bytes, and one is in any
    other that ends below the top of the address space. Let a list in a window of `n` bytes have its
    closing block at `e`, and let `size` be the length of a block rounded up to eight. The block is
    accepted exactly if it fits what is left of the window and the 16 bits of its header. A refusal
    tells what was needed and what is left, and changes nothing: the list is the one that was never
    offered what it has refused. An accepted block moves the closing block on by its size, leaves
    the blocks before it and the bytes past the closing block as they were, and has its whole size
    in its header. -/
theorem append_offerAll (window : Window) (base memoryBottom memoryTop : Address) :
    (∀ e, create window base memoryBottom memoryTop = .error (.cause e) ↔
      window.size < 64 ∧ e = .outOfResources 64 window.size) ∧
    (64 ≤ window.size → base.toNat + window.size < 2 ^ 64 →
      ∃ start, create window base memoryBottom memoryTop = .ok start) ∧
    ∀ start, create window base memoryBottom memoryTop = .ok start →
      ∀ (offered : List Hob) (hob : Hob),
        let list := start.offerAll offered
        let n := window.size
        let e := list.closing
        let size := (hob.unpadded + 7) / 8 * 8
        list = start.offerAll (start.accepted offered) ∧
        list.window.size = n ∧ 56 ≤ e ∧ e + 8 ≤ n ∧
        ((∃ m, list.append hob = .ok m) ↔ size ≤ n - e - 8 ∧ size ≤ 65528) ∧
        (∀ error, list.append hob = .error error →
          error = .outOfResources size (n - e - 8) ∧ list.offer hob = list) ∧
        ∀ m, list.append hob = .ok m →
          list.offer hob = m ∧ m.closing = e + size ∧
          (∀ i, 56 ≤ i ∧ i < e ∨ e + size + 8 ≤ i →
            m.window.byteAt i = list.window.byteAt i) ∧
          (m.bytes.word16 (e + 2)).toNat = size := by
  refine ⟨fun e => create_error_iff,
    fun hlarge hfit => exists_create hlarge hfit memoryBottom memoryTop,
    fun start hstart offered hob => ?_⟩
  intro list n e size
  have hholds : Holds list (start.accepted offered) := holds_offerAll hstart offered
  have hwindow : list.window.size = n :=
    (samePlace_offerAll start offered).size_eq.trans (place_of_create hstart).2.1
  have hsize : hob.size = size := Hob.size_eq_unpadded hob
  have hroom : list.available = n - e - 8 := by rw [available, hwindow, hobHeaderSize]
  have hphit : 56 ≤ e := phit_size_le_of_create hstart offered
  refine ⟨(offerAll_accepted start offered).symm, hwindow, hphit, hwindow ▸ list.closing_fits,
    ?_, fun error herror => ?_, fun m hm => ?_⟩
  · rw [exists_append_iff, hsize, hroom]
    -- Sizes are multiples of eight, and 65528 is the last one that 16 bits hold.
    have hmax : size ≤ maxHobSize ↔ size ≤ 65528 := by
      unfold maxHobSize
      omega
    rw [hmax]
  · refine ⟨?_, offer_of_error herror⟩
    rw [append_error herror, hsize, hroom]
  · have hclosing : m.closing = e + size := by rw [closing_of_append hm, hsize]
    refine ⟨offer_of_ok hm, hclosing, fun i hi => ?_, ?_⟩
    · have hkept : Phit.size ≤ i ∧ (i < list.closing ∨ m.closing + hobHeaderSize ≤ i) := by
        rw [hclosing, Phit.size, hobHeaderSize]
        omega
      exact (appended_of_append hm).byteAt_eq hkept.1 hkept.2
    · rw [hholds.word16_length_append hm, hsize]

/-- In a window of 70000 bytes there is room for more than a header can tell: of two tables whose
    lengths differ by one byte the shorter is taken, the longer refused. -/
theorem append_offerAll_longest :
    ∃ start, create (.fill 70000 0xaa) 0xd00000 0x800000 0x4d00000 = .ok start ∧
      (∃ m, start.append (.guid .acpiBoardInfo (List.replicate 65504 0)) = .ok m ∧
        (m.bytes.word16 58).toNat = 65528) ∧
      start.append (.guid .acpiBoardInfo (List.replicate 65505 0)) =
        .error (.outOfResources 65536 69936) := by
  obtain ⟨-, hcreate, hlists⟩ := append_offerAll (.fill 70000 0xaa) 0xd00000 0x800000 0x4d00000
  obtain ⟨start, hstart⟩ := hcreate (by decide) (by decide)
  have hempty : start.closing = 56 := (holds_create hstart).closing_eq
  refine ⟨start, hstart, ?_, ?_⟩
  · have hsize : (Hob.guid .acpiBoardInfo (List.replicate 65504 0)).unpadded = 65528 := by
      rw [Hob.unpadded, List.length_replicate]
    obtain ⟨-, -, -, -, haccepts, -, hblock⟩ :=
      hlists start hstart [] (.guid .acpiBoardInfo (List.replicate 65504 0))
    rw [offerAll_nil, hsize, hempty] at haccepts hblock
    obtain ⟨m, hm⟩ := haccepts.mpr (by decide)
    exact ⟨m, hm, (hblock m hm).2.2.2⟩
  · have hsize : (Hob.guid .acpiBoardInfo (List.replicate 65505 0)).unpadded = 65529 := by
      rw [Hob.unpadded, List.length_replicate]
    obtain ⟨-, -, -, -, haccepts, hrefuses, -⟩ :=
      hlists start hstart [] (.guid .acpiBoardInfo (List.replicate 65505 0))
    rw [offerAll_nil, hsize, hempty] at haccepts hrefuses
    cases happend : start.append (.guid .acpiBoardInfo (List.replicate 65505 0)) with
    | ok m => exact absurd (haccepts.mp ⟨m, happend⟩) (by decide)
    | error error => exact congrArg _ (hrefuses error happend).1

end HobList

end BootHandoff
