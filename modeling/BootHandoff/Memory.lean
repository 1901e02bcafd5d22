/-
  Reading physical memory. A `Memory` tells, for each range of addresses, which bytes are read
  from it if it can be read as a whole. `Memory.read` refuses the null address and ranges that
  wrap around the address space before it asks the memory, so that a read that succeeds lies
  inside the address space (`read_eq_ok_iff`) and has the length asked for (`length_of_read`).
-/
import BootHandoff.Address
import BootHandoff.Bytes
import BootHandoff.Text.Hex

namespace BootHandoff

open Text

/-- Why a read of physical memory fails. -/
inductive MemoryError
  /-- The read starts at address zero. -/
  | nullAddress
  /-- The range runs past the end of the address space. -/
  | overflow (address : Address) (length : Nat)
  /-- No readable memory backs the range. -/
  | unmapped (address : Address) (length : Nat)
deriving DecidableEq, Repr

/-- The text of a failed read. -/
def MemoryError.message : MemoryError → String
  | nullAddress => "read from null address"
  | overflow a n => s!"read of {n} bytes at {hex a.toNat} overflows"
  | unmapped a n => s!"{n} bytes at {hex a.toNat} are not readable"

/-- Whether a range can be asked for at all: it does not start at zero, and its end is an
    address. -/
def requireRange (address : Address) (length : Nat) : Except MemoryError Unit :=
  if address = 0 then .error .nullAddress
  else if 2 ^ 64 ≤ address.toNat + length then .error (.overflow address length)
  else .ok ()

theorem requireRange_eq_ok_iff {a : Address} {n : Nat} :
    requireRange a n = .ok () ↔ a ≠ 0 ∧ a.toNat + n < 2 ^ 64 := by
  unfold requireRange
  split
  · simp_all
  · split
    · rename_i h; simp only [reduceCtorEq, false_iff]; omega
    · rename_i h; simp only [true_iff]; exact ⟨by assumption, by omega⟩

/-- A read-only view of physical memory. -/
structure Memory where
  /-- The bytes of a range, if all of it can be read in one go. -/
  fetch : Address → Nat → Option Bytes
  length_fetch : ∀ {a n bs}, fetch a n = some bs → bs.length = n

namespace Memory

/-- The `length` bytes at `address`. -/
def read (mem : Memory) (address : Address) (length : Nat) : Except MemoryError Bytes :=
  match requireRange address length with
  | .error e => .error e
  | .ok () =>
    match mem.fetch address length with
    | some bs => .ok bs
    | none => .error (.unmapped address length)

/-- The 32-bit number at an address of any alignment. -/
def read32 (mem : Memory) (address : Address) : Except MemoryError UInt32 :=
  (mem.read address 4).map fun bs => bs.word32 0

/-- The 64-bit number at an address of any alignment. -/
def read64 (mem : Memory) (address : Address) : Except MemoryError UInt64 :=
  (mem.read address 8).map fun bs => bs.word64 0

theorem read_eq_ok_iff {mem : Memory} {a : Address} {n : Nat} {bs : Bytes} :
    mem.read a n = .ok bs ↔ a ≠ 0 ∧ a.toNat + n < 2 ^ 64 ∧ mem.fetch a n = some bs := by
  rw [← and_assoc, ← requireRange_eq_ok_iff, read]
  cases hc : requireRange a n with
  | error e => simp
  | ok u => cases hf : mem.fetch a n <;> simp

theorem length_of_read {mem : Memory} {a : Address} {n : Nat} {bs : Bytes}
    (h : mem.read a n = .ok bs) : bs.length = n :=
  mem.length_fetch (read_eq_ok_iff.1 h).2.2

/-- A read that succeeds leaves room for the address after its last byte. -/
theorem lt_of_read {mem : Memory} {a : Address} {n : Nat} {bs : Bytes}
    (h : mem.read a n = .ok bs) : a.toNat + n < 2 ^ 64 :=
  (read_eq_ok_iff.1 h).2.1

/-- Overlapping ranges of the memory show the same bytes. -/
def Coherent (mem : Memory) : Prop :=
  ∀ ⦃a n bs b k cs⦄, mem.fetch a n = some bs → mem.fetch b k = some cs →
    ∀ ⦃i j : Nat⦄, i < n → j < k → a.toNat + i = b.toNat + j → bs[i]? = cs[j]?

end Memory

end BootHandoff
