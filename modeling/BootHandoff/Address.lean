/-
  Physical addresses. Sums of an address and a byte count come in two forms: `offset?` is the sum
  when it is still an address (`offset?_eq_some_iff`), `offsetClamped` is held at the last address
  (`toNat_offsetClamped`).
-/

-- Powers of `Nat` mean the same to every module, whatever algebra it imports.
attribute [default_instance 20000] instPowNat

namespace BootHandoff

/-- A physical address, or a 64-bit byte count. -/
abbrev Address := UInt64

namespace Address

/-- The address `n` bytes past `a`, if it is still an address. -/
def offset? (a : Address) (n : Nat) : Option Address :=
  if a.toNat + n < 2 ^ 64 then some (UInt64.ofNat (a.toNat + n)) else none

/-- The address `n` bytes past `a`, or the last address if there is none. -/
def offsetClamped (a : Address) (n : Nat) : Address :=
  UInt64.ofNat (min (a.toNat + n) (2 ^ 64 - 1))

theorem toNat_ofNat {n : Nat} (h : n < 2 ^ 64) : (UInt64.ofNat n).toNat = n :=
  UInt64.toNat_ofNat_of_lt' h

theorem toNat_add_ofNat {a : Address} {n : Nat} (h : a.toNat + n < 2 ^ 64) :
    (a + UInt64.ofNat n).toNat = a.toNat + n := by
  rw [UInt64.toNat_add, toNat_ofNat (by omega), Nat.mod_eq_of_lt h]

theorem offset?_eq_some_iff {a b : Address} {n : Nat} :
    offset? a n = some b ↔ b.toNat = a.toNat + n := by
  unfold offset?
  split
  · rename_i h
    rw [Option.some.injEq, ← UInt64.toNat_inj, toNat_ofNat h]
    exact eq_comm
  · rename_i h
    have := b.toNat_lt
    constructor
    · intro hb; cases hb
    · omega

theorem offset?_eq_none_iff {a : Address} {n : Nat} :
    offset? a n = none ↔ 2 ^ 64 ≤ a.toNat + n := by
  unfold offset?
  split <;> simp <;> omega

theorem exists_offset? {a : Address} {n : Nat} (h : a.toNat + n < 2 ^ 64) :
    ∃ b, offset? a n = some b ∧ b.toNat = a.toNat + n :=
  ⟨_, if_pos h, toNat_ofNat h⟩

theorem toNat_offsetClamped (a : Address) (n : Nat) :
    (offsetClamped a n).toNat = min (a.toNat + n) (2 ^ 64 - 1) :=
  toNat_ofNat (by omega)

end Address

end BootHandoff
