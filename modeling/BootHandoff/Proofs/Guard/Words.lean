/-
  Operations of the machine that can go wrong: sums, differences and products of 64-bit numbers,
  divisions, shifts, and parts of buffers. Each of them is guarded, and gives nothing where the
  machine would stop the program: a result that does not fit, a divisor of zero, a shift by the
  width of the word or more, a part that does not lie inside of its buffer, a copy between buffers
  of two lengths. A program written with them shows on its face what can go wrong in it
  (`Guard.check`), and to prove it equal to one without guards is to prove that nothing does.
-/
import BootHandoff.Bytes
import BootHandoff.Hob.Window
import BootHandoff.Procedure

namespace BootHandoff.Guard

/-! ## Numbers -/

/-- A sum of 64-bit numbers. -/
def add (a b : Nat) : Option Nat := if a + b < 2 ^ 64 then some (a + b) else none

/-- A difference of numbers without a sign. -/
def sub (a b : Nat) : Option Nat := if b ≤ a then some (a - b) else none

/-- A product of 64-bit numbers. -/
def mul (a b : Nat) : Option Nat := if a * b < 2 ^ 64 then some (a * b) else none

/-- A quotient. -/
def div (a b : Nat) : Option Nat := if b = 0 then none else some (a / b)

/-- A 32-bit word shifted to the left. Only the distance is guarded: bits past the highest one are
    dropped. -/
def shiftLeft (a distance : UInt32) : Option UInt32 :=
  if distance < 32 then some (a <<< distance) else none

section

variable {a b : Nat}

theorem add_eq (h : a + b < 2 ^ 64) : add a b = some (a + b) := if_pos h

theorem sub_eq (h : b ≤ a) : sub a b = some (a - b) := if_pos h

theorem mul_eq (h : a * b < 2 ^ 64) : mul a b = some (a * b) := if_pos h

theorem div_eq (h : b ≠ 0) : div a b = some (a / b) := if_neg h

theorem shiftLeft_eq {w distance : UInt32} (h : distance < 32) :
    shiftLeft w distance = some (w <<< distance) := if_pos h

end

/-! ## Buffers -/

/-- The part of a buffer from one offset up to another. -/
def part (buffer : Bytes) (first last : Nat) : Option Bytes :=
  if first ≤ last ∧ last ≤ buffer.length then some (buffer.slice first (last - first)) else none

/-- The content of a buffer once other bytes are copied over all of it. -/
def copyOver (buffer bytes : Bytes) : Option Bytes :=
  if bytes.length = buffer.length then some bytes else none

/-- A range of offsets in a window, that is written to as a whole. -/
structure Field where
  start : Nat
  size : Nat

/-- All of a window. -/
def Field.whole (w : Window) : Field := ⟨0, w.size⟩

/-- The part of a field from one offset in it up to another. -/
def Field.part (f : Field) (first last : Nat) : Option Field :=
  if first ≤ last ∧ last ≤ f.size then some ⟨f.start + first, last - first⟩ else none

/-- A window once bytes are copied over all of a field. -/
def fill (w : Window) (f : Field) (bytes : Bytes) : Option Window :=
  if bytes.length = f.size then some (w.write f.start bytes) else none

theorem part_eq {buffer : Bytes} {first last : Nat} (h : first ≤ last ∧ last ≤ buffer.length) :
    part buffer first last = some (buffer.slice first (last - first)) := if_pos h

theorem copyOver_eq {buffer bytes : Bytes} (h : bytes.length = buffer.length) :
    copyOver buffer bytes = some bytes := if_pos h

theorem Field.part_eq {f : Field} {first last : Nat} (h : first ≤ last ∧ last ≤ f.size) :
    f.part first last = some ⟨f.start + first, last - first⟩ := if_pos h

theorem fill_eq {w : Window} {f : Field} {bytes : Bytes} (h : bytes.length = f.size) :
    fill w f bytes = some (w.write f.start bytes) := if_pos h

/-- A part of the first bytes of a buffer of zeros has their number. -/
theorem exists_part_zeros {n size : Nat} (h : n ≤ size) :
    ∃ field, part (Bytes.zeros size) 0 n = some field ∧ field.length = n := by
  refine ⟨_, part_eq ⟨Nat.zero_le n, by rwa [Bytes.length_zeros]⟩, ?_⟩
  rw [Nat.sub_zero]
  exact Bytes.length_slice (by rwa [Bytes.length_zeros, Nat.zero_add])

/-! ## Runs -/

section

variable {ε α β : Type}

/-- A guarded step that its guard lets through. -/
theorem step {x : Option α} {a : α} (h : x = some a) (f : α → Option β) : x >>= f = f a := by
  subst h
  rfl

/-- A guarded step of a procedure, which stops it where the guard gives nothing. -/
def check : Option α → Procedure ε α
  | some a => .done a
  | none => .stop .overflow

theorem check_bind {x : Option α} {a : α} (h : x = some a) (f : α → Procedure ε β) :
    check x >>= f = f a := by
  subst h
  rfl

theorem sum_bind {x : Option α} {a : α} (h : x = some a) (f : α → Logged ε β) :
    Logged.sum x >>= f = f a := by
  subst h
  exact pure_bind a f

end

end BootHandoff.Guard
