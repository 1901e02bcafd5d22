/-
  A HOB list to which blocks are offered one after another. `HobList.Holds` is what is true of the
  window at every moment: it opens with the table, then come the blocks accepted so far without a
  gap, then the closing block. A new list holds nothing (`holds_create`), an append adds its block
  (`Holds.append`), and so a list that was offered any blocks holds exactly those it accepted
  (`holds_offerAll`). Its place in memory and the bounds in its table never change
  (`samePlace_offerAll`).
-/
import BootHandoff.Hob.List
import BootHandoff.Proofs.Hob.Framing

namespace BootHandoff.HobList

/-! ## Offers -/

/-- The list after a block was offered: with the block, or as it was if the block is refused. -/
def offer (l : HobList) (hob : Hob) : HobList :=
  match l.append hob with
  | .ok m => m
  | .error _ => l

/-- The list after blocks were offered in order. -/
def offerAll (l : HobList) (offered : List Hob) : HobList := offered.foldl offer l

/-- The blocks that the list accepts when blocks are offered in order. -/
def accepted : HobList → List Hob → List Hob
  | _, [] => []
  | l, hob :: offered =>
    match l.append hob with
    | .ok m => hob :: accepted m offered
    | .error _ => accepted l offered

variable {l m : HobList} {hob : Hob}

theorem offer_of_ok (h : l.append hob = .ok m) : l.offer hob = m := by rw [offer, h]

theorem offer_of_error {e : HobError} (h : l.append hob = .error e) : l.offer hob = l := by
  rw [offer, h]

@[simp] theorem offerAll_nil (l : HobList) : l.offerAll [] = l := rfl

@[simp] theorem offerAll_cons (l : HobList) (hob : Hob) (offered : List Hob) :
    l.offerAll (hob :: offered) = (l.offer hob).offerAll offered := rfl

@[simp] theorem accepted_nil (l : HobList) : l.accepted [] = [] := rfl

theorem accepted_cons_of_ok (h : l.append hob = .ok m) (offered : List Hob) :
    l.accepted (hob :: offered) = hob :: m.accepted offered := by
  rw [accepted, h]

theorem accepted_cons_of_error {e : HobError} (h : l.append hob = .error e)
    (offered : List Hob) : l.accepted (hob :: offered) = l.accepted offered := by
  rw [accepted, h]

/-! ## What an append does -/

/-- Two states of a list in one place: same window, same bounds. -/
structure SamePlace (l m : HobList) : Prop where
  base_eq : m.base = l.base
  size_eq : m.window.size = l.window.size
  memoryBottom_eq : m.memoryBottom = l.memoryBottom
  memoryTop_eq : m.memoryTop = l.memoryTop

theorem SamePlace.refl (l : HobList) : SamePlace l l := ⟨rfl, rfl, rfl, rfl⟩

theorem SamePlace.trans {k : HobList} (h : SamePlace k l) (h' : SamePlace l m) : SamePlace k m :=
  ⟨h'.base_eq.trans h.base_eq, h'.size_eq.trans h.size_eq,
    h'.memoryBottom_eq.trans h.memoryBottom_eq, h'.memoryTop_eq.trans h.memoryTop_eq⟩

/-- All that an accepted append does. -/
structure Appended (l : HobList) (hob : Hob) (m : HobList) : Prop where
  samePlace : SamePlace l m
  size_le_available : hob.size ≤ l.available
  size_le_max : hob.size ≤ maxHobSize
  closing_eq : m.closing = l.closing + hob.size
  window_eq : m.window =
    ((l.window.write l.closing hob.encode).write m.closing closingHob).write 0 m.phit.encode

theorem appended_of_append (h : l.append hob = .ok m) : Appended l hob m := by
  unfold append at h
  split at h
  · rename_i hfit
    cases h
    exact ⟨⟨rfl, rfl, rfl, rfl⟩, hfit.1, hfit.2, rfl, rfl⟩
  · cases h

/-! ## What a list holds -/

/-- The table and the blocks in the items of a list. -/
def itemsOf (l : HobList) (hobs : List Hob) : List (UInt16 × Bytes) :=
  (HobType.handoff, l.phit.encode) :: hobs.map fun hob => (hob.type, hob.encode)

/-- The window opens with the table, the blocks in a row and the closing block. -/
structure Holds (l : HobList) (hobs : List Hob) : Prop where
  blocks : l.window.slice 0 l.closing = Hob.row (l.itemsOf hobs)
  closed : l.window.slice l.closing hobHeaderSize = closingHob
  size_le : ∀ hob ∈ hobs, hob.size ≤ maxHobSize

theorem length_closingHob : closingHob.length = hobHeaderSize := length_hobHeader ..

theorem length_bytes (l : HobList) : l.bytes.length = l.closing + hobHeaderSize :=
  Window.length_slice ..

theorem framed_phit (p : Phit) : Hob.Framed (HobType.handoff, p.encode) where
  type_ne := by
    show HobType.handoff ≠ HobType.endOfList
    decide
  take_header := by
    show p.encode.take hobHeaderSize = hobHeader HobType.handoff p.encode.length
    rw [Phit.length_encode, Phit.encode]
    simp only [List.append_assoc]
    exact List.take_left' (length_hobHeader ..)
  length_lt := by
    show p.encode.length < 2 ^ 16
    rw [Phit.length_encode]
    decide

theorem row_itemsOf (l : HobList) (hobs : List Hob) :
    Hob.row (l.itemsOf hobs) = l.phit.encode ++ hobs.flatMap Hob.encode := by
  unfold itemsOf
  rw [Hob.row_cons, Hob.row, List.flatMap_map]

theorem place_of_create {window : Window} {base memoryBottom memoryTop : Address}
    (h : create window base memoryBottom memoryTop = .ok l) :
    l.base = base ∧ l.window.size = window.size ∧
      l.memoryBottom = memoryBottom ∧ l.memoryTop = memoryTop := by
  unfold create at h
  split at h
  · cases h
  · split at h
    · cases h
      exact ⟨rfl, rfl, rfl, rfl⟩
    · cases h

/-- A window that holds a list only has to end before the address space does. -/
theorem create_of_minWindow_le {window : Window} (hsize : minWindow ≤ window.size)
    (base memoryBottom memoryTop : Address) :
    create window base memoryBottom memoryTop = .error .overflow ∨
      ∃ start, create window base memoryBottom memoryTop = .ok start := by
  unfold create
  rw [dif_neg (Nat.not_lt.mpr hsize)]
  split
  · exact .inr ⟨_, rfl⟩
  · exact .inl rfl

theorem exists_create {window : Window} {base : Address} (hsize : minWindow ≤ window.size)
    (hfit : base.toNat + window.size < 2 ^ 64) (memoryBottom memoryTop : Address) :
    ∃ start, create window base memoryBottom memoryTop = .ok start := by
  unfold create
  rw [dif_neg (Nat.not_lt.mpr hsize), dif_pos hfit]
  exact ⟨_, rfl⟩

theorem create_of_lt_minWindow {window : Window} (h : window.size < minWindow)
    (base memoryBottom memoryTop : Address) :
    create window base memoryBottom memoryTop =
      .error (.cause (.outOfResources minWindow window.size)) := by
  unfold create
  rw [dif_pos h]

theorem holds_create {window : Window} {base memoryBottom memoryTop : Address}
    (h : create window base memoryBottom memoryTop = .ok l) : Holds l [] := by
  unfold create at h
  split at h
  · cases h
  · split at h
    · cases h
      refine ⟨?_, ?_, by simp⟩
      · rw [row_itemsOf, List.flatMap_nil, List.append_nil]
        exact Window.slice_write_self ..
      · refine (Window.slice_write_after ?_).trans (Window.slice_write_self ..)
        rw [Phit.length_encode, Nat.zero_add]
        exact Nat.le_refl _
    · cases h

namespace Holds

variable {hobs : List Hob}

theorem framed (h : Holds l hobs) : ∀ item ∈ l.itemsOf hobs, Hob.Framed item := by
  intro item hitem
  rcases List.mem_cons.mp hitem with rfl | hitem
  · exact framed_phit _
  · obtain ⟨hob, hmem, rfl⟩ := List.mem_map.mp hitem
    have := h.size_le hob hmem
    exact Hob.framed_encode (by unfold maxHobSize at this; omega)

theorem described (h : Holds l hobs) : ∀ item ∈ l.itemsOf hobs, Hob.Described item :=
  fun item hitem => (h.framed item hitem).described

/-- Where the closing block is: past the table and the blocks. -/
theorem closing_eq (h : Holds l hobs) :
    l.closing = Phit.size + (hobs.flatMap Hob.encode).length := by
  have hlen := congrArg List.length h.blocks
  rwa [Window.length_slice, row_itemsOf, List.length_append, Phit.length_encode] at hlen

theorem bytes_eq (h : Holds l hobs) : l.bytes = Hob.row (l.itemsOf hobs) ++ closingHob := by
  unfold bytes
  rw [Window.slice_add, h.blocks, Nat.zero_add, h.closed]

/-- The first bytes of the window are the table as it stands. -/
theorem slice_phit (h : Holds l hobs) : l.window.slice 0 Phit.size = l.phit.encode := by
  have hsplit := h.blocks
  rw [h.closing_eq, Window.slice_add, row_itemsOf] at hsplit
  exact (List.append_inj hsplit (by simp)).1

/-- The blocks past the table. -/
theorem slice_blocks (h : Holds l hobs) :
    l.window.slice Phit.size (l.closing - Phit.size) = hobs.flatMap Hob.encode := by
  have hsplit := h.blocks
  have hclosing := h.closing_eq
  rw [hclosing, Window.slice_add, row_itemsOf] at hsplit
  rw [hclosing, Nat.add_sub_cancel_left]
  exact Nat.zero_add Phit.size ▸ (List.append_inj hsplit (by simp)).2

/-- An append adds its block and leaves the blocks before it as they are. -/
theorem append (h : Holds l hobs) (happend : l.append hob = .ok m) : Holds m (hobs ++ [hob]) := by
  have ha := appended_of_append happend
  have hclosing := h.closing_eq
  have hsize : m.closing = Phit.size + ((l.closing - Phit.size) + hob.size) := by
    rw [ha.closing_eq]
    omega
  have hphit : m.phit.encode.length = Phit.size := Phit.length_encode _
  refine ⟨?_, ?_, ?_⟩
  · -- The table is the last write; it and the closing block leave the blocks between them alone.
    have htable : m.window.slice 0 Phit.size = m.phit.encode := by
      rw [ha.window_eq, ← hphit]
      exact Window.slice_write_self ..
    have hold : m.window.slice Phit.size (l.closing - Phit.size) = hobs.flatMap Hob.encode := by
      rw [ha.window_eq, Window.slice_write_after (by omega), Window.slice_write_before (by omega),
        Window.slice_write_before (by omega), h.slice_blocks]
    have hnew : m.window.slice (Phit.size + (l.closing - Phit.size)) hob.size = hob.encode := by
      rw [show Phit.size + (l.closing - Phit.size) = l.closing by omega, ha.window_eq,
        Window.slice_write_after (by omega), Window.slice_write_before (by omega),
        ← Hob.length_encode hob]
      exact Window.slice_write_self ..
    rw [hsize, Window.slice_add, Window.slice_add, Nat.zero_add, htable, hold, hnew, row_itemsOf,
      List.flatMap_append, List.flatMap_singleton]
  · rw [ha.window_eq, Window.slice_write_after (by omega), ← length_closingHob]
    exact Window.slice_write_self ..
  · intro x hx
    rcases List.mem_append.mp hx with hx | hx
    · exact h.size_le x hx
    · exact List.mem_singleton.mp hx ▸ ha.size_le_max

/-- Whatever blocks are offered, the list holds those it held and those it accepts. -/
theorem offerAll (h : Holds l hobs) (offered : List Hob) :
    Holds (l.offerAll offered) (hobs ++ l.accepted offered) := by
  induction offered generalizing l hobs with
  | nil => simpa using h
  | cons hob offered ih =>
    cases happend : l.append hob with
    | ok m =>
      rw [offerAll_cons, offer_of_ok happend, accepted_cons_of_ok happend]
      simpa using ih (h.append happend)
    | error e =>
      rw [offerAll_cons, offer_of_error happend, accepted_cons_of_error happend]
      exact ih h

end Holds

theorem samePlace_offerAll (l : HobList) (offered : List Hob) :
    SamePlace l (l.offerAll offered) := by
  induction offered generalizing l with
  | nil => exact SamePlace.refl l
  | cons hob offered ih =>
    refine SamePlace.trans ?_ (ih (l.offer hob))
    cases happend : l.append hob with
    | ok m => rw [offer_of_ok happend]; exact (appended_of_append happend).samePlace
    | error e => rw [offer_of_error happend]; exact SamePlace.refl l

/-- A list started in a window holds the blocks it has accepted since. -/
theorem holds_offerAll {window : Window} {base memoryBottom memoryTop : Address}
    (h : create window base memoryBottom memoryTop = .ok l) (offered : List Hob) :
    Holds (l.offerAll offered) (l.accepted offered) :=
  (holds_create h).offerAll offered

end BootHandoff.HobList
