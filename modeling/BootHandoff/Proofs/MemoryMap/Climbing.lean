/-
  Where the estimate of the top of DRAM comes from. A climb is a chain of regions below 4 GiB that
  begins with DRAM, or with reserved memory at zero, and goes on with reserved regions, each from
  where the one before it ends (`Tolud.Climb`). `reached_estimate`: the estimate is within 4 GiB and
  not below the end of any DRAM there, and it is where a climb through the map ends, or zero if
  there is none. That there is always such a climb is kept by every region (`reached_raise`): it
  begins one, is its next link, or leaves it where it is.
-/
import BootHandoff.Proofs.MemoryMap.Raising
import Mathlib.Data.List.Chain

namespace BootHandoff.Tolud

/-- What a climb may begin with: DRAM, or reserved memory at zero. -/
def Foot (r : Region) : Prop :=
  r.type = .ram ∨ r.type = .acpi ∨ r.type = .nvs ∨ (r.type = .reserved ∧ r.start = 0)

/-- A chain of regions that carries the top of DRAM up. -/
structure Climb (links : List Region) : Prop where
  low : ∀ r ∈ links, r.stop ≤ 2 ^ 32
  first : ∀ r ∈ links.head?, Foot r
  further : links.IsChain fun r next => next.type = .reserved ∧ next.start.toNat = r.stop

/-- No reserved region below 4 GiB, of whatever size, starts at `top`. -/
def NoneStartsAt (top : Nat) (map : List Region) : Prop :=
  ∀ r ∈ map, r.type = .reserved → r.stop ≤ 2 ^ 32 → r.start.toNat ≠ top

/-- A climb through regions of the map, in map order, ends at `top`, and nothing behind its last
    link takes it further. -/
def ClimbsTo (map : List Region) (top : Nat) : Prop :=
  ∃ before earlier last after, map = before ++ last :: after ∧ earlier.Sublist before ∧
    Climb (earlier ++ [last]) ∧ last.stop = top ∧ NoneStartsAt top after

/-- The top is where a climb ends, or it is zero and no climb has begun there. -/
def Reached (map : List Region) (top : Nat) : Prop :=
  (top = 0 ∧ NoneStartsAt 0 map) ∨ ClimbsTo map top

variable {r last : Region} {map links : List Region} {top : Nat}

/-! ## Links -/

theorem climb_singleton (hlow : r.stop ≤ 2 ^ 32) (hfoot : Foot r) : Climb [r] where
  low := List.forall_mem_singleton.2 hlow
  first s hs := by
    rw [← Option.some.inj hs]
    exact hfoot
  further := List.isChain_singleton r

/-- A reserved region that starts where the climb ends takes it further. -/
theorem Climb.append_singleton (h : Climb (links ++ [last])) (hlow : r.stop ≤ 2 ^ 32)
    (htype : r.type = .reserved) (hstart : r.start.toNat = last.stop) :
    Climb (links ++ [last] ++ [r]) where
  low := List.forall_mem_append.2 ⟨h.low, List.forall_mem_singleton.2 hlow⟩
  first := by
    cases links with
    | nil => exact h.first
    | cons foot links => exact h.first
  further := by
    rw [List.append_assoc, List.singleton_append, List.isChain_split]
    exact ⟨h.further, List.isChain_pair.2 ⟨htype, hstart⟩⟩

theorem NoneStartsAt.append_singleton (h : NoneStartsAt top map)
    (hr : r.type = .reserved → r.stop ≤ 2 ^ 32 → r.start.toNat ≠ top) :
    NoneStartsAt top (map ++ [r]) :=
  List.forall_mem_append.2 ⟨h, List.forall_mem_singleton.2 hr⟩

/-! ## One more region -/

/-- The region begins a climb of its own. -/
theorem climbsTo_of_foot (map : List Region) (hlow : r.stop ≤ 2 ^ 32) (hfoot : Foot r) :
    ClimbsTo (map ++ [r]) r.stop :=
  ⟨map, [], r, [], rfl, List.nil_sublist map, climb_singleton hlow hfoot, rfl,
    List.forall_mem_nil _⟩

/-- The region is the next link, or the first one at zero. -/
theorem Reached.append_link (h : Reached map top) (hlow : r.stop ≤ 2 ^ 32)
    (htype : r.type = .reserved) (hstart : r.start.toNat = top) :
    ClimbsTo (map ++ [r]) r.stop := by
  rcases h with ⟨hzero, -⟩ | ⟨before, earlier, last, after, rfl, hsub, hclimb, hstop, -⟩
  · have hstart : r.start = 0 := UInt64.toNat_inj.1 (hstart.trans hzero)
    exact climbsTo_of_foot map hlow (Or.inr (Or.inr (Or.inr ⟨htype, hstart⟩)))
  · have hlinks : (earlier ++ [last]).Sublist (before ++ last :: after) :=
      hsub.append (List.singleton_sublist.2 (List.mem_cons_self ..))
    exact ⟨before ++ last :: after, earlier ++ [last], r, [], rfl, hlinks,
      hclimb.append_singleton hlow htype (hstart.trans hstop.symm), rfl, List.forall_mem_nil _⟩

/-- The region leaves the climb where it is. -/
theorem Reached.append_other (h : Reached map top)
    (hother : r.type = .reserved → r.stop ≤ 2 ^ 32 → r.start.toNat ≠ top) :
    Reached (map ++ [r]) top := by
  rcases h with ⟨hzero, hnone⟩ | ⟨before, earlier, last, after, rfl, hsub, hclimb, hstop, hnone⟩
  · rw [hzero] at hother ⊢
    exact Or.inl ⟨rfl, hnone.append_singleton hother⟩
  · have hmap : before ++ last :: after ++ [r] = before ++ last :: (after ++ [r]) := by
      rw [List.append_assoc, List.cons_append]
    exact Or.inr ⟨before, earlier, last, after ++ [r], hmap, hsub, hclimb, hstop,
      hnone.append_singleton hother⟩

theorem reached_raise (map : List Region) (top : Address) (r : Region)
    (h : Reached map top.toNat) : Reached (map ++ [r]) (raise top r).toNat := by
  rcases r.passed_or_dram_or_reserved with hpassed | ⟨hlow, hdram⟩ | ⟨hlow, htype⟩
  · rw [raise_of_passed hpassed]
    refine h.append_other fun htype hlow => ?_
    rcases hpassed with hsays | hhigh
    · rw [htype] at hsays
      cases hsays
    · exact absurd hlow (Nat.not_le_of_lt hhigh)
  · rw [toNat_raise_of_dram hlow hdram]
    by_cases hhigher : top.toNat < r.stop
    -- DRAM above the top takes no account of how the top was reached.
    · rw [Nat.max_eq_right (Nat.le_of_lt hhigher)]
      have hfoot : Foot r := by
        rcases MemoryType.isDram_iff.1 hdram with htype | htype | htype
        · exact Or.inl htype
        · exact Or.inr (Or.inl htype)
        · exact Or.inr (Or.inr (Or.inl htype))
      exact Or.inr (climbsTo_of_foot map hlow hfoot)
    · rw [Nat.max_eq_left (Nat.le_of_not_lt hhigher)]
      refine h.append_other fun htype _ => ?_
      rw [htype] at hdram
      cases hdram
  · by_cases hstart : r.start = top
    · rw [toNat_raise_of_start_eq hlow htype hstart]
      exact Or.inr (h.append_link hlow htype (congrArg UInt64.toNat hstart))
    · rw [raise_of_start_ne htype hstart]
      exact h.append_other fun _ _ heq => hstart (UInt64.toNat_inj.1 heq)

/-! ## The estimate -/

/-- **The estimate is reached by a climb.** It is within 4 GiB and not below the end of any DRAM
    that lies there. It is where a climb through regions of the map ends, behind which no reserved
    region below 4 GiB starts there; or it is zero, and no such region starts there at all. -/
theorem reached_estimate (map : List Region) :
    let top := (estimate map).address.toNat
    top ≤ 2 ^ 32 ∧
    (∀ r ∈ map, r.type = .ram ∨ r.type = .acpi ∨ r.type = .nvs → r.stop ≤ 2 ^ 32 →
      r.stop ≤ top) ∧
    ((top = 0 ∧ NoneStartsAt 0 map) ∨ ClimbsTo map top) := by
  intro top
  refine ⟨toNat_estimate_le map, fun r hr htype hlow => ?_, ?_⟩
  · have hlimit : r.limit ≤ (estimate map).address :=
      limit_le_estimate hr (MemoryType.isDram_iff.2 htype) (Region.isLow_iff.2 hlow)
    have hstop : r.limit.toNat = r.stop := Region.toNat_limit_of_le hlow
    rw [← hstop]
    exact UInt64.le_iff_toNat_le.1 hlimit
  · exact estimate_induction (P := fun map top => Reached map top.toNat)
      (Or.inl ⟨rfl, List.forall_mem_nil _⟩) reached_raise map

/-- A climb follows the order of the map: what is reserved in front of the DRAM that it follows is
    no link of it. -/
example :
    let ram : Region := ⟨0, 0x1000, .ram⟩
    let carved : Region := ⟨0x1000, 0x1000, .reserved⟩
    (estimate [ram, carved]).address = 0x2000 ∧ (estimate [carved, ram]).address = 0x1000 := by
  decide

end BootHandoff.Tolud
