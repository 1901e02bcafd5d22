/-
  What a consumer finds under a GUID. `Hob.dataUnder` goes through the items of a list and gives
  the data of those that carry a name; in a list that holds blocks it finds the data of exactly the
  blocks of that name, in order (`Holds.dataUnder_bytes`).
-/
import BootHandoff.Proofs.Hob.Decoding

namespace BootHandoff

namespace Hob

/-- The data of a block under a name, if that is its name. -/
def dataOf? (name : Guid) : Hob → Option Bytes
  | guid other data => if other = name then some data else none
  | resource .. | allocation .. | cpu .. => none

/-- The data under a name among the items of a list, in order. -/
def dataUnder (name : Guid) (items : List (UInt16 × Bytes)) : List Bytes :=
  items.filterMap fun item => (ofItem? item).bind (dataOf? name)

/-- The data under a name among blocks, each filled up to the alignment. -/
def filledUnder (name : Guid) (hobs : List Hob) : List Bytes :=
  hobs.filterMap fun hob => dataOf? name hob.filled

variable {name : Guid}

theorem dataUnder_map_encode (hobs : List Hob) :
    dataUnder name (hobs.map fun hob => (hob.type, hob.encode)) = filledUnder name hobs := by
  rw [dataUnder, List.filterMap_map, filledUnder]
  refine congrArg (fun f => hobs.filterMap f) (funext fun hob => ?_)
  show (ofItem? (hob.type, hob.encode)).bind (dataOf? name) = _
  rw [ofItem?_encode, Option.bind_some]

theorem filledUnder_append (hobs more : List Hob) :
    filledUnder name (hobs ++ more) = filledUnder name hobs ++ filledUnder name more :=
  List.filterMap_append

/-- Data that takes a multiple of eight bytes needs no filling. -/
theorem filledUnder_cons_guid {other : Guid} {data : Bytes} (h : 8 ∣ data.length)
    (hobs : List Hob) :
    filledUnder name (guid other data :: hobs) =
      if other = name then data :: filledUnder name hobs else filledUnder name hobs := by
  have hfill : alignLength (24 + data.length) - (24 + data.length) = 0 := by
    obtain ⟨n, hn⟩ := h
    unfold alignLength
    omega
  have hfilled : (guid other data).filled = guid other data := by
    simp only [filled, hfill, Bytes.zeros, List.replicate_zero, List.append_nil]
  rw [filledUnder, List.filterMap_cons, hfilled, dataOf?]
  by_cases hname : other = name
  · rw [if_pos hname, if_pos hname]
    rfl
  · rw [if_neg hname, if_neg hname]
    rfl

/-- Blocks without the name have no data under it. -/
theorem filledUnder_eq_nil {hobs : List Hob} (h : ∀ data, guid name data ∉ hobs) :
    filledUnder name hobs = [] := by
  apply List.filterMap_eq_nil_iff.mpr
  intro hob hmem
  cases hob with
  | guid other data =>
    apply if_neg
    rintro rfl
    exact h data hmem
  | resource | allocation | cpu => rfl

/-- Blocks with a name each. -/
def ofNamed (named : List (Guid × Bytes)) : List Hob := named.map fun x => guid x.1 x.2

theorem mem_ofNamed_iff {named : List (Guid × Bytes)} {data : Bytes} :
    guid name data ∈ ofNamed named ↔ (name, data) ∈ named := by
  simp [ofNamed]

/-- Where no two blocks share a name, the data under a name is that of its block. -/
theorem filledUnder_ofNamed {named : List (Guid × Bytes)} {data : Bytes}
    (hnodup : (named.map Prod.fst).Nodup) (hlength : ∀ x ∈ named, 8 ∣ x.2.length)
    (hmem : (name, data) ∈ named) : filledUnder name (ofNamed named) = [data] := by
  induction named with
  | nil => cases hmem
  | cons x named ih =>
    rw [List.map_cons, List.nodup_cons] at hnodup
    rw [ofNamed, List.map_cons, filledUnder_cons_guid (hlength x List.mem_cons_self)]
    rcases List.mem_cons.mp hmem with rfl | hmem
    · have hrest : filledUnder name (ofNamed named) = [] := by
        apply filledUnder_eq_nil
        intro other hother
        exact hnodup.1 (List.mem_map.mpr ⟨_, mem_ofNamed_iff.mp hother, rfl⟩)
      rw [if_pos rfl]
      exact congrArg _ hrest
    · have hne : x.1 ≠ name := by
        rintro rfl
        exact hnodup.1 (List.mem_map.mpr ⟨_, hmem, rfl⟩)
      rw [if_neg hne]
      exact ih hnodup.2 (fun y hy => hlength y (List.mem_cons_of_mem _ hy)) hmem

end Hob

namespace HobList

variable {l : HobList} {hobs : List Hob}

theorem Holds.items_bytes (h : Holds l hobs) : Hob.items l.bytes = l.itemsOf hobs := by
  simpa using h.items_bytes_append []

/-- A list that holds blocks is found to have the data of those under a name, and no other. -/
theorem Holds.dataUnder_bytes (h : Holds l hobs) (name : Guid) :
    Hob.dataUnder name (Hob.items l.bytes) = Hob.filledUnder name hobs := by
  rw [h.items_bytes, itemsOf, Hob.dataUnder, List.filterMap_cons]
  exact Hob.dataUnder_map_encode hobs

theorem mem_of_mem_accepted {offered : List Hob} {hob : Hob} (h : hob ∈ l.accepted offered) :
    hob ∈ offered := by
  induction offered generalizing l with
  | nil => cases h
  | cons first offered ih =>
    cases happend : l.append first with
    | ok m =>
      rw [accepted_cons_of_ok happend] at h
      rcases List.mem_cons.mp h with rfl | h
      · exact List.mem_cons_self
      · exact List.mem_cons_of_mem _ (ih h)
    | error e =>
      rw [accepted_cons_of_error happend] at h
      exact List.mem_cons_of_mem _ (ih h)

end HobList

end BootHandoff
