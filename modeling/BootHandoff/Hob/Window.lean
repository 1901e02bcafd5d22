/-
  The window of memory that a HOB list is written into: a number of bytes and what each of them
  holds. A write changes the bytes it covers and no others (`byteAt_write`).
-/
import BootHandoff.Bytes

namespace BootHandoff

/-- A window of memory. -/
structure Window where
  size : Nat
  /-- The byte at an offset below `size`. -/
  byteAt : Nat → UInt8

namespace Window

/-- The window that holds one byte over and over. -/
def fill (size : Nat) (byte : UInt8) : Window := ⟨size, fun _ => byte⟩

/-- Puts bytes at an offset. -/
def write (w : Window) (offset : Nat) (bytes : Bytes) : Window :=
  let content := bytes.toArray
  { w with
    byteAt := fun i =>
      if i < offset then w.byteAt i
      else match content[i - offset]? with
        | some b => b
        | none => w.byteAt i }

/-- The `n` bytes from an offset on. -/
def slice (w : Window) (offset n : Nat) : Bytes :=
  (List.range n).map fun i => w.byteAt (offset + i)

@[simp] theorem size_write (w : Window) (o : Nat) (bs : Bytes) : (w.write o bs).size = w.size := rfl

@[simp] theorem length_slice (w : Window) (o n : Nat) : (w.slice o n).length = n := by
  simp [slice]

theorem byteAt_write (w : Window) (o : Nat) (bs : Bytes) (i : Nat) :
    (w.write o bs).byteAt i = if i < o then w.byteAt i else bs.getD (i - o) (w.byteAt i) := by
  simp only [write, List.getElem?_toArray, List.getD_eq_getElem?_getD]
  split
  · rfl
  · cases bs[i - o]? <;> rfl

theorem byteAt_write_of_lt {w : Window} {o i : Nat} {bs : Bytes} (h : i < o) :
    (w.write o bs).byteAt i = w.byteAt i := by
  rw [byteAt_write, if_pos h]

theorem byteAt_write_of_le {w : Window} {o i : Nat} {bs : Bytes} (h : o + bs.length ≤ i) :
    (w.write o bs).byteAt i = w.byteAt i := by
  rw [byteAt_write, if_neg (by omega), List.getD_eq_getElem?_getD,
    List.getElem?_eq_none (by omega), Option.getD_none]

theorem slice_add (w : Window) (o m n : Nat) :
    w.slice o (m + n) = w.slice o m ++ w.slice (o + m) n := by
  simp [slice, List.range_add, Nat.add_assoc]

theorem slice_write_before {w : Window} {o p n : Nat} {bs : Bytes} (h : p + n ≤ o) :
    (w.write o bs).slice p n = w.slice p n := by
  refine List.map_congr_left fun i hi => byteAt_write_of_lt ?_
  have := List.mem_range.mp hi
  omega

theorem slice_write_after {w : Window} {o p n : Nat} {bs : Bytes} (h : o + bs.length ≤ p) :
    (w.write o bs).slice p n = w.slice p n :=
  List.map_congr_left fun _ _ => byteAt_write_of_le (by omega)

/-- The bytes just written are the ones read back. -/
theorem slice_write_self (w : Window) (o : Nat) (bs : Bytes) :
    (w.write o bs).slice o bs.length = bs := by
  apply List.ext_getElem
  · rw [length_slice]
  · intro i _ hi
    simp only [slice, List.getElem_map, List.getElem_range]
    rw [byteAt_write, if_neg (by omega),
      Nat.add_sub_cancel_left, List.getD_eq_getElem?_getD, List.getElem?_eq_getElem hi,
      Option.getD_some]

/-! ## One write after another -/

theorem eq_of_byteAt {v w : Window} (hsize : v.size = w.size)
    (h : ∀ i, v.byteAt i = w.byteAt i) : v = w := by
  obtain ⟨m, f⟩ := v
  obtain ⟨n, g⟩ := w
  obtain rfl : m = n := hsize
  obtain rfl : f = g := funext h
  rfl

/-- Writes to different places can be swapped. -/
theorem write_comm {w : Window} {o p : Nat} {bs cs : Bytes} (h : o + bs.length ≤ p) :
    (w.write o bs).write p cs = (w.write p cs).write o bs := by
  refine eq_of_byteAt rfl fun i => ?_
  by_cases hp : i < p
  · rw [byteAt_write_of_lt hp, byteAt_write w o, byteAt_write (w.write p cs) o,
      byteAt_write_of_lt hp]
  · have hpast (v : Window) : (v.write o bs).byteAt i = v.byteAt i := byteAt_write_of_le (by omega)
    rw [hpast, byteAt_write (w.write o bs) p, hpast, byteAt_write w p]

theorem write_append (w : Window) (o : Nat) (as bs : Bytes) :
    w.write o (as ++ bs) = (w.write o as).write (o + as.length) bs := by
  refine eq_of_byteAt rfl fun i => ?_
  simp only [byteAt_write, List.getD_eq_getElem?_getD]
  by_cases ho : i < o
  · rw [if_pos ho, if_pos (by omega), if_pos ho]
  · rw [if_neg ho, if_neg ho]
    by_cases hi : i - o < as.length
    · rw [List.getElem?_append_left hi, if_pos (by omega)]
    · rw [List.getElem?_append_right (by omega), if_neg (by omega),
        List.getElem?_eq_none (l := as) (by omega), Option.getD_none, Nat.sub_add_eq]

/-- Of bytes that are written over from their start on, the last ones are left. -/
theorem write_write (w : Window) (o : Nat) (bs cs : Bytes) :
    (w.write o bs).write o cs = w.write o (cs ++ bs.drop cs.length) := by
  refine eq_of_byteAt rfl fun i => ?_
  simp only [byteAt_write, List.getD_eq_getElem?_getD]
  by_cases ho : i < o
  · simp only [if_pos ho]
  · simp only [if_neg ho]
    by_cases hi : i - o < cs.length
    · rw [List.getElem?_append_left hi, List.getElem?_eq_getElem hi, Option.getD_some,
        Option.getD_some]
    · rw [List.getElem?_append_right (by omega), List.getElem?_drop,
        List.getElem?_eq_none (l := cs) (by omega), Option.getD_none,
        Nat.add_sub_of_le (by omega)]

end Window

end BootHandoff
