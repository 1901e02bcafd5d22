/-
  Blocks for which there is not room enough. `Hob.fitCount` counts how many blocks go into a room
  when they are put in one after another and the first that does not fit ends it. A HOB list that
  is handed blocks in order takes exactly those, with no trace of the rest (`deliver_hobList`), and
  a recorder takes as many as it has places (`deliver_recorder_some`). In both cases the refusal
  tells what was missing.
-/
import BootHandoff.Proofs.Hob.Offering
import BootHandoff.Proofs.Procedure.Sending

namespace BootHandoff

/-! ## Room for blocks -/

namespace Hob

theorem size_resource (k : ResourceKind) (a : Attributes) (b l : UInt64) :
    (resource k a b l).size = 48 := by
  rw [size, bareSize_resource]
  rfl

theorem size_allocation (b l : UInt64) (t : UInt32) : (allocation b l t).size = 48 := by
  rw [size, bareSize_allocation]
  rfl

theorem size_cpu (m i : UInt8) : (cpu m i).size = 16 := by
  rw [size, bareSize_cpu]
  rfl

theorem size_guid (name : Guid) (data : Bytes) :
    (guid name data).size = alignLength (24 + data.length) := by
  rw [size, bareSize_guid]

/-- The room that blocks take. -/
def totalSize : List Hob → Nat
  | [] => 0
  | hob :: hobs => hob.size + totalSize hobs

/-- How many of the blocks go into a room, up to the first that does not fit what those before it
    leave. -/
def fitCount : Nat → List Hob → Nat
  | _, [] => 0
  | room, hob :: hobs => if hob.size ≤ room then fitCount (room - hob.size) hobs + 1 else 0

variable {room : Nat} {hob next : Hob} {hobs : List Hob}

theorem fitCount_cons_of_le (h : hob.size ≤ room) (hobs : List Hob) :
    fitCount room (hob :: hobs) = fitCount (room - hob.size) hobs + 1 := by
  rw [fitCount, if_pos h]

theorem fitCount_cons_of_lt (h : room < hob.size) (hobs : List Hob) :
    fitCount room (hob :: hobs) = 0 := by
  rw [fitCount, if_neg (Nat.not_le.mpr h)]

theorem fitCount_le_length (room : Nat) (hobs : List Hob) :
    fitCount room hobs ≤ hobs.length := by
  induction hobs generalizing room with
  | nil => exact Nat.le_refl 0
  | cons hob hobs ih =>
    rw [fitCount, List.length_cons]
    split
    · exact Nat.succ_le_succ (ih _)
    · exact Nat.zero_le _

/-- Each block that is counted fits the room that those before it leave. -/
theorem size_le_of_lt_fitCount {i : Nat} (hi : i < fitCount room hobs)
    (hhob : hobs[i]? = some hob) : hob.size ≤ room - totalSize (hobs.take i) := by
  induction hobs generalizing room i with
  | nil => cases hi
  | cons first hobs ih =>
    rcases Nat.lt_or_ge room first.size with hlt | hle
    · rw [fitCount_cons_of_lt hlt] at hi
      cases hi
    · rw [fitCount_cons_of_le hle] at hi
      cases i with
      | zero =>
        obtain rfl : first = hob := Option.some.inj hhob
        exact hle
      | succ i =>
        rw [List.take_succ_cons, totalSize, ← Nat.sub_sub]
        exact ih (Nat.lt_of_succ_lt_succ hi) hhob

/-- The block after those that are counted does not fit. -/
theorem lt_size_of_getElem?_fitCount (hnext : hobs[fitCount room hobs]? = some next) :
    room - totalSize (hobs.take (fitCount room hobs)) < next.size := by
  induction hobs generalizing room with
  | nil => cases hnext
  | cons first hobs ih =>
    rcases Nat.lt_or_ge room first.size with hlt | hle
    · rw [fitCount_cons_of_lt hlt] at hnext ⊢
      obtain rfl : first = next := Option.some.inj hnext
      exact hlt
    · rw [fitCount_cons_of_le hle] at hnext ⊢
      rw [List.take_succ_cons, totalSize, ← Nat.sub_sub]
      exact ih hnext

end Hob

/-! ## Delivery -/

namespace Sink

variable {κ : Type} {sink : Sink κ} {k k' : κ} {hob : Hob}

theorem deliver_cons_of_ok (h : sink.append k hob = .ok k') (hobs : List Hob) :
    sink.deliver k (hob :: hobs) = sink.deliver k' hobs := by
  rw [deliver, h]

theorem deliver_cons_of_error {e : HobError} (h : sink.append k hob = .error e)
    (hobs : List Hob) : sink.deliver k (hob :: hobs) = (k, some e) := by
  rw [deliver, h]

/-- A recorder keeps as many blocks as it has places, and is done with the first one more. -/
theorem deliver_recorder_some {c : Nat} {held : List Hob} (hobs : List Hob)
    (hheld : held.length ≤ c) :
    (recorder (some c)).deliver held hobs =
      (held ++ hobs.take (c - held.length),
        if c < held.length + hobs.length then some (.outOfResources (c + 1) c) else none) := by
  induction hobs generalizing held with
  | nil =>
    rw [List.take_nil, List.append_nil, List.length_nil, Nat.add_zero,
      if_neg (Nat.not_lt.mpr hheld)]
    rfl
  | cons hob hobs ih =>
    rw [List.length_cons]
    rcases Nat.lt_or_ge held.length c with hlt | hge
    · have happend : (recorder (some c)).append held hob = .ok (held ++ [hob]) := if_pos hlt
      have hlength : (held ++ [hob]).length = held.length + 1 := List.length_append
      have hplaces : c - held.length = c - (held.length + 1) + 1 := by omega
      rw [deliver_cons_of_ok happend, ih (by omega), hlength, hplaces, List.take_succ_cons,
        ← List.append_cons, Nat.add_assoc, Nat.add_comm 1]
    · have hfull : held.length = c := by omega
      have happend : (recorder (some c)).append held hob =
          .error (.outOfResources (held.length + 1) c) := if_neg (Nat.not_lt.mpr hge)
      rw [deliver_cons_of_error happend, hfull, Nat.sub_self, List.take_zero, List.append_nil,
        if_pos (by omega)]

end Sink

namespace HobList

open Hob (totalSize fitCount)

variable {l m : HobList} {hob : Hob}

theorem append_of_le (h : hob.size ≤ l.available) (hmax : hob.size ≤ maxHobSize) :
    ∃ m, l.append hob = .ok m := by
  unfold append
  rw [dif_pos ⟨h, hmax⟩]
  exact ⟨_, rfl⟩

theorem append_of_not_le (h : ¬ (hob.size ≤ l.available ∧ hob.size ≤ maxHobSize)) :
    l.append hob = .error (.outOfResources hob.size l.available) := by
  unfold append
  rw [dif_neg h]

theorem append_of_lt (h : l.available < hob.size) :
    l.append hob = .error (.outOfResources hob.size l.available) :=
  append_of_not_le fun hfit => Nat.not_le.mpr h hfit.1

theorem available_of_append (h : l.append hob = .ok m) :
    m.available = l.available - hob.size := by
  have hsize := size_of_append h
  have hclosing := closing_of_append h
  unfold available
  omega

theorem available_of_create {window : Window} {base memoryBottom memoryTop : Address}
    (h : create window base memoryBottom memoryTop = .ok l) :
    l.available = window.size - 64 := by
  have hclosing := (holds_create h).closing_eq
  have hsize := (place_of_create h).2.1
  rw [List.flatMap_nil, List.length_nil] at hclosing
  unfold available
  rw [hclosing, hsize, Phit.size, hobHeaderSize]
  omega

/-- A list takes the blocks that fit and is done with the first that does not. -/
theorem deliver_hobList {hobs : List Hob} (hmax : ∀ hob ∈ hobs, hob.size ≤ maxHobSize) :
    let k := fitCount l.available hobs
    l.accepted (hobs.take k) = hobs.take k ∧
      Sink.hobList.deliver l hobs = (l.offerAll (hobs.take k), hobs[k]?.map fun next =>
        .outOfResources next.size (l.available - totalSize (hobs.take k))) := by
  induction hobs generalizing l with
  | nil => exact ⟨rfl, rfl⟩
  | cons hob hobs ih =>
    rcases Nat.lt_or_ge l.available hob.size with hlt | hle
    · rw [Hob.fitCount_cons_of_lt hlt]
      exact ⟨rfl, Sink.deliver_cons_of_error (append_of_lt hlt) hobs⟩
    · obtain ⟨m, hm⟩ := append_of_le hle (hmax hob (List.mem_cons_self ..))
      have hrest := ih (l := m) fun h hmem => hmax h (List.mem_cons_of_mem _ hmem)
      rw [available_of_append hm] at hrest
      obtain ⟨haccepted, hdeliver⟩ := hrest
      rw [Hob.fitCount_cons_of_le hle]
      constructor
      · rw [List.take_succ_cons, accepted_cons_of_ok hm, haccepted]
      · rw [Sink.deliver_cons_of_ok (show Sink.hobList.append l hob = .ok m from hm), hdeliver,
          List.take_succ_cons, offerAll_cons, offer_of_ok hm, totalSize, ← Nat.sub_sub]
        rfl

/-- The list `m` is the list `l` with `n` bytes more in the same window. -/
structure Takes (l : HobList) (n : Nat) (m : HobList) : Prop where
  size_eq : m.window.size = l.window.size
  available_add : m.available + n = l.available

namespace Takes

variable {n n' : Nat} {k : HobList}

theorem refl (l : HobList) : Takes l 0 l := ⟨rfl, rfl⟩

theorem trans (h : Takes l n m) (h' : Takes m n' k) : Takes l (n + n') k := by
  have := h.available_add
  have := h'.available_add
  exact ⟨h'.size_eq.trans h.size_eq, by omega⟩

/-- What is taken of the room is in the bytes. -/
theorem length_bytes (h : Takes l n m) : m.bytes.length = l.bytes.length + n := by
  have hl := l.closing_fits
  have hm := m.closing_fits
  have hsize := h.size_eq
  have hroom := h.available_add
  unfold available at hroom
  rw [HobList.length_bytes, HobList.length_bytes]
  omega

end Takes

/-- A list that takes all blocks has so much less room. -/
theorem takes_of_deliver {hobs : List Hob} (hd : Sink.hobList.deliver l hobs = (m, none)) :
    Takes l (totalSize hobs) m := by
  induction hobs generalizing l with
  | nil =>
    cases hd
    exact .refl _
  | cons hob hobs ih =>
    rw [Sink.deliver] at hd
    cases happend : l.append hob with
    | ok m₁ =>
      rw [show Sink.hobList.append l hob = .ok m₁ from happend] at hd
      have hfit := (appended_of_append happend).size_le_available
      have hroom := available_of_append happend
      have hfirst : Takes l hob.size m₁ := ⟨size_of_append happend, by omega⟩
      exact hfirst.trans (ih hd)
    | error e =>
      rw [show Sink.hobList.append l hob = .error e from happend] at hd
      cases hd

/-- Blocks for which there is room are all taken. -/
theorem exists_deliver_of_le {hobs : List Hob} (hmax : ∀ hob ∈ hobs, hob.size ≤ maxHobSize)
    (h : totalSize hobs ≤ l.available) : ∃ m, Sink.hobList.deliver l hobs = (m, none) := by
  induction hobs generalizing l with
  | nil => exact ⟨l, rfl⟩
  | cons hob hobs ih =>
    rw [totalSize] at h
    obtain ⟨m, hm⟩ := append_of_le (l := l) (by omega) (hmax hob List.mem_cons_self)
    have hroom := available_of_append hm
    rw [Sink.deliver_cons_of_ok (show Sink.hobList.append l hob = .ok m from hm)]
    exact ih (fun h' hmem => hmax h' (List.mem_cons_of_mem _ hmem)) (by omega)

/-- A list that took all blocks holds them after those it held. -/
theorem Holds.deliver {held hobs : List Hob} (h : Holds l held)
    (hd : Sink.hobList.deliver l hobs = (m, none)) : Holds m (held ++ hobs) := by
  induction hobs generalizing l held with
  | nil =>
    cases hd
    rwa [List.append_nil]
  | cons hob hobs ih =>
    rw [Sink.deliver] at hd
    cases happend : l.append hob with
    | ok m₁ =>
      rw [show Sink.hobList.append l hob = .ok m₁ from happend] at hd
      rw [List.append_cons]
      exact ih (h.append happend) hd
    | error e =>
      rw [show Sink.hobList.append l hob = .error e from happend] at hd
      cases hd

end HobList

end BootHandoff
