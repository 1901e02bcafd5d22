/-
  Memories made of extents, runs of bytes at fixed addresses. In a sparse memory each read is
  served by one extent, the last one that covers it. In a paged memory every page that an extent
  touches can be read, bytes outside all extents are zero, and later extents lie over earlier
  ones.
-/
import BootHandoff.Memory

namespace BootHandoff

/-- A run of bytes at a fixed address. -/
structure Extent where
  start : Address
  size : Nat
  /-- The byte at an offset below `size`. -/
  byte : Nat → UInt8

namespace Extent

/-- The extent that holds the given bytes. -/
def ofArray (start : Address) (content : Array UInt8) : Extent :=
  ⟨start, content.size, fun i => content.getD i 0⟩

/-- The extent that holds one byte over and over. -/
def fill (start : Address) (size : Nat) (byte : UInt8) : Extent := ⟨start, size, fun _ => byte⟩

/-- The range of `n` bytes at `a` lies inside the extent. -/
def covers (e : Extent) (a : Address) (n : Nat) : Bool :=
  e.start.toNat ≤ a.toNat && a.toNat + n ≤ e.start.toNat + e.size

/-- The `n` bytes of the extent from address `a` on. -/
def slice (e : Extent) (a : Address) (n : Nat) : Bytes :=
  (List.range n).map fun i => e.byte (a.toNat - e.start.toNat + i)

@[simp] theorem length_slice (e : Extent) (a : Address) (n : Nat) : (e.slice a n).length = n := by
  simp [slice]

/-- The page that holds the address also holds a byte of the extent. -/
def touchesPageOf (e : Extent) (a : Address) : Bool :=
  0 < e.size && e.start.toNat / 4096 ≤ a.toNat / 4096
    && a.toNat / 4096 ≤ (e.start.toNat + e.size - 1) / 4096

end Extent

namespace Memory

/-- The memory in which one extent, the last that covers it, serves each read. -/
def sparse (extents : List Extent) : Memory where
  fetch a n := (extents.reverse.find? (·.covers a n)).map (·.slice a n)
  length_fetch h := by
    obtain ⟨e, -, rfl⟩ := Option.map_eq_some_iff.1 h
    exact e.length_slice ..

/-- The `n` bytes from an address on, where each byte is given or missing on its own. -/
def gather (byteAt : Address → Option UInt8) : Address → Nat → Option Bytes
  | _, 0 => some []
  | a, n + 1 =>
    match byteAt a, gather byteAt (a + 1) n with
    | some b, some bs => some (b :: bs)
    | _, _ => none

theorem length_of_gather {byteAt : Address → Option UInt8} {a : Address} {n : Nat} {bs : Bytes}
    (h : gather byteAt a n = some bs) : bs.length = n := by
  induction n generalizing a bs with
  | zero => simp only [gather, Option.some.injEq] at h; simp [← h]
  | succ n ih =>
    rw [gather] at h
    split at h
    · rename_i hb hg
      obtain rfl := Option.some.inj h
      rw [List.length_cons, ih hg]
    · cases h

/-- The memory that gives or withholds each byte on its own. -/
def ofBytes (byteAt : Address → Option UInt8) : Memory where
  fetch := gather byteAt
  length_fetch := length_of_gather

/-- The memory whose pages are those that the extents touch: zero but for the extents, of which
    the last one wins. -/
def paged (extents : List Extent) : Memory :=
  ofBytes fun a =>
    if extents.any (·.touchesPageOf a) then
      some <| match extents.reverse.find? (·.covers a 1) with
        | some e => e.byte (a.toNat - e.start.toNat)
        | none => 0
    else none

end Memory

end BootHandoff
