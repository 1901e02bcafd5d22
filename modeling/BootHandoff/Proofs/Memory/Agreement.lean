/-
  Memories that agree on some of their bytes. Two memories agree on a set of places if the same
  ranges can be read of both and, of whatever is read, the bytes at those places are the same. A
  read that stays inside the set then cannot tell the memories apart (`Agree.read_eq`).
-/
import BootHandoff.Memory

namespace BootHandoff.Memory

/-- The same ranges can be read of both memories, and the bytes at the places inside are the
    same. -/
structure Agree (mem other : Memory) (inside : Nat → Prop) : Prop where
  readable : ∀ a n, (mem.fetch a n).isSome = (other.fetch a n).isSome
  content : ∀ ⦃a n bs cs⦄, mem.fetch a n = some bs → other.fetch a n = some cs →
    ∀ ⦃i⦄, i < n → inside (a.toNat + i) → bs[i]? = cs[i]?

namespace Agree

variable {mem other : Memory} {inside : Nat → Prop}

theorem mono {fewer : Nat → Prop} (h : Agree mem other inside)
    (himp : ∀ ⦃x⦄, fewer x → inside x) : Agree mem other fewer :=
  ⟨h.readable, fun _ _ _ _ hbs hcs _ hi hfewer => h.content hbs hcs hi (himp hfewer)⟩

theorem fetch_eq (h : Agree mem other inside) {a : Address} {n : Nat}
    (hinside : ∀ x, a.toNat ≤ x → x < a.toNat + n → inside x) :
    other.fetch a n = mem.fetch a n := by
  have hreadable := h.readable a n
  cases hbs : mem.fetch a n with
  | none =>
    rw [hbs] at hreadable
    simpa using hreadable.symm
  | some bs =>
    rw [hbs] at hreadable
    obtain ⟨cs, hcs⟩ := Option.isSome_iff_exists.1 hreadable.symm
    rw [hcs]
    congr 1
    refine List.ext_getElem? fun i => ?_
    by_cases hi : i < n
    · exact (h.content hbs hcs hi (hinside _ (by omega) (by omega))).symm
    · have hlength := mem.length_fetch hbs
      have hlength' := other.length_fetch hcs
      rw [List.getElem?_eq_none (by omega), List.getElem?_eq_none (by omega)]

/-- A read inside is the same in both memories. -/
theorem read_eq (h : Agree mem other inside) {a : Address} {n : Nat}
    (hinside : ∀ x, a.toNat ≤ x → x < a.toNat + n → inside x) :
    other.read a n = mem.read a n := by
  unfold Memory.read
  rw [h.fetch_eq hinside]

end Agree

end BootHandoff.Memory
