/-
  Byte strings and the little-endian numbers in them. `value` reads a byte string as a number and
  `ofValue` writes one in a given number of bytes; each undoes the other (`value_ofValue`,
  `ofValue_value`). A field of a structure is named by its offset (`word32 bs 16`); bytes past the
  end of a string read as zero (`byte_of_length_le`).
-/

namespace BootHandoff

/-- A string of bytes, lowest address first. -/
abbrev Bytes := List UInt8

namespace Bytes

/-- The number a byte string holds, least significant byte first. -/
def value : Bytes → Nat
  | [] => 0
  | b :: bs => b.toNat + 256 * value bs

/-- The `n` low bytes of a number, least significant byte first. -/
def ofValue : (n : Nat) → Nat → Bytes
  | 0, _ => []
  | n + 1, v => UInt8.ofNat v :: ofValue n (v / 256)

@[simp] theorem length_ofValue (n v : Nat) : (ofValue n v).length = n := by
  induction n generalizing v with
  | zero => rfl
  | succ n ih => simp [ofValue, ih]

/-- How many numbers there are in `n` bytes. -/
def capacity : Nat → Nat
  | 0 => 1
  | n + 1 => 256 * capacity n

theorem value_lt (bs : Bytes) : value bs < capacity bs.length := by
  induction bs with
  | nil => exact Nat.one_pos
  | cons b bs ih =>
    have := b.toNat_lt
    rw [value, List.length_cons, capacity]
    omega

theorem value_ofValue {n v : Nat} (h : v < capacity n) : value (ofValue n v) = v := by
  induction n generalizing v with
  | zero =>
    rw [capacity] at h
    rw [ofValue, value]
    omega
  | succ n ih =>
    rw [capacity] at h
    rw [ofValue, value, ih (by omega), UInt8.toNat_ofNat']
    omega

theorem ofValue_value (bs : Bytes) : ofValue bs.length (value bs) = bs := by
  induction bs with
  | nil => rfl
  | cons b bs ih =>
    have hb := b.toNat_lt
    have hq : (b.toNat + 256 * value bs) / 256 = value bs := by omega
    have hr : UInt8.ofNat (b.toNat + 256 * value bs) = b := by
      rw [← UInt8.toNat_inj, UInt8.toNat_ofNat']; omega
    rw [List.length_cons, value, ofValue, hq, hr, ih]

theorem value_append (as bs : Bytes) :
    value (as ++ bs) = value as + capacity as.length * value bs := by
  induction as with
  | nil => simp [value, capacity]
  | cons a as ih =>
    rw [List.cons_append, value, value, ih, List.length_cons, capacity, Nat.mul_add,
      ← Nat.mul_assoc, Nat.add_assoc]

/-! ## Fields -/

/-- The `n` bytes from offset `i` on, fewer where the string ends first. -/
def slice (bs : Bytes) (i n : Nat) : Bytes := (bs.drop i).take n

/-- The byte at offset `i`, zero past the end. -/
def byte (bs : Bytes) (i : Nat) : UInt8 := bs.getD i 0

/-- The 16-bit field at offset `i`. -/
def word16 (bs : Bytes) (i : Nat) : UInt16 := UInt16.ofNat (value (slice bs i 2))

/-- The 32-bit field at offset `i`. -/
def word32 (bs : Bytes) (i : Nat) : UInt32 := UInt32.ofNat (value (slice bs i 4))

/-- The 64-bit field at offset `i`. -/
def word64 (bs : Bytes) (i : Nat) : UInt64 := UInt64.ofNat (value (slice bs i 8))

/-- A 16-bit number as two bytes. -/
def ofWord16 (v : UInt16) : Bytes := ofValue 2 v.toNat

/-- A 32-bit number as four bytes. -/
def ofWord32 (v : UInt32) : Bytes := ofValue 4 v.toNat

/-- A 64-bit number as eight bytes. -/
def ofWord64 (v : UInt64) : Bytes := ofValue 8 v.toNat

/-- A run of `n` zero bytes. -/
def zeros (n : Nat) : Bytes := List.replicate n 0

@[simp] theorem length_ofWord16 (v : UInt16) : (ofWord16 v).length = 2 := length_ofValue ..

@[simp] theorem length_ofWord32 (v : UInt32) : (ofWord32 v).length = 4 := length_ofValue ..

@[simp] theorem length_ofWord64 (v : UInt64) : (ofWord64 v).length = 8 := length_ofValue ..

@[simp] theorem length_zeros (n : Nat) : (zeros n).length = n := List.length_replicate

theorem value_ofWord16 (v : UInt16) : UInt16.ofNat (value (ofWord16 v)) = v := by
  rw [ofWord16, value_ofValue v.toNat_lt, UInt16.ofNat_toNat]

theorem value_ofWord32 (v : UInt32) : UInt32.ofNat (value (ofWord32 v)) = v := by
  rw [ofWord32, value_ofValue v.toNat_lt, UInt32.ofNat_toNat]

theorem value_ofWord64 (v : UInt64) : UInt64.ofNat (value (ofWord64 v)) = v := by
  rw [ofWord64, value_ofValue v.toNat_lt, UInt64.ofNat_toNat]

theorem value_take_lt {bs : Bytes} {n : Nat} (h : n ≤ bs.length) :
    value (bs.take n) < capacity n := by
  have hlt := value_lt (bs.take n)
  rwa [List.length_take_of_le h] at hlt

theorem ofValue_value_take {bs : Bytes} {n : Nat} (h : n ≤ bs.length) :
    ofValue n (value (bs.take n)) = bs.take n := by
  have hvalue := ofValue_value (bs.take n)
  rwa [List.length_take_of_le h] at hvalue

theorem exists_cons (bs : Bytes) (h : 0 < bs.length) :
    ∃ b rest, bs = b :: rest ∧ bs.length = rest.length + 1 := by
  obtain ⟨b, rest, rfl⟩ := List.exists_cons_of_length_pos h
  exact ⟨b, rest, rfl, rfl⟩

/-- A string of four bytes or more starts with a number. -/
theorem exists_ofWord32_append (bs : Bytes) (h : 4 ≤ bs.length) :
    ∃ v rest, bs = ofWord32 v ++ rest ∧ bs.length = 4 + rest.length := by
  refine ⟨UInt32.ofNat (value (bs.take 4)), bs.drop 4, ?_, by rw [List.length_drop]; omega⟩
  rw [ofWord32, UInt32.toNat_ofNat_of_lt' (value_take_lt h), ofValue_value_take h,
    List.take_append_drop]

/-- A string of eight bytes or more starts with a longer one. -/
theorem exists_ofWord64_append (bs : Bytes) (h : 8 ≤ bs.length) :
    ∃ v rest, bs = ofWord64 v ++ rest ∧ bs.length = 8 + rest.length := by
  refine ⟨UInt64.ofNat (value (bs.take 8)), bs.drop 8, ?_, by rw [List.length_drop]; omega⟩
  rw [ofWord64, UInt64.toNat_ofNat_of_lt' (value_take_lt h), ofValue_value_take h,
    List.take_append_drop]

theorem byte_of_length_le {bs : Bytes} {i : Nat} (h : bs.length ≤ i) : byte bs i = 0 := by
  simp [byte, List.getD_eq_getElem?_getD, List.getElem?_eq_none h]

theorem getElem?_eq_byte {bs : Bytes} {i : Nat} (h : i < bs.length) : bs[i]? = some (byte bs i) := by
  rw [byte, List.getD_eq_getElem?_getD, List.getElem?_eq_getElem h, Option.getD_some]

@[simp] theorem slice_self (bs : Bytes) : slice bs 0 bs.length = bs := by simp [slice]

theorem length_slice {bs : Bytes} {i n : Nat} (h : i + n ≤ bs.length) :
    (slice bs i n).length = n := by
  rw [slice, List.length_take, List.length_drop]
  omega

theorem slice_append_left {as : Bytes} {i n : Nat} (h : i + n ≤ as.length) (bs : Bytes) :
    slice (as ++ bs) i n = slice as i n := by
  rw [slice, List.drop_append_of_le_length (by omega),
    List.take_append_of_le_length (by rw [List.length_drop]; omega), slice]

theorem slice_append_right (as bs : Bytes) (i n : Nat) :
    slice (as ++ bs) (as.length + i) n = slice bs i n := by
  rw [slice, slice, List.drop_append, List.drop_of_length_le (by omega), List.nil_append,
    Nat.add_sub_cancel_left]

/-- A read past the first of two strings is one of the second. -/
theorem slice_append_of_le {as : Bytes} {i : Nat} (h : as.length ≤ i) (bs : Bytes) (n : Nat) :
    slice (as ++ bs) i n = slice bs (i - as.length) n := by
  rw [← slice_append_right as bs (i - as.length) n, Nat.add_sub_cancel' h]

theorem byte_append_of_le {as : Bytes} {i : Nat} (h : as.length ≤ i) (bs : Bytes) :
    byte (as ++ bs) i = byte bs (i - as.length) := by
  rw [byte, byte, List.getD_eq_getElem?_getD, List.getD_eq_getElem?_getD,
    List.getElem?_append_right h]

/-- A part of the first bytes is a part of the whole. -/
theorem slice_take {bs : Bytes} {i k n : Nat} (h : i + k ≤ n) :
    slice (bs.take n) i k = slice bs i k := by
  rw [slice, slice, List.drop_take, List.take_take, Nat.min_eq_left (by omega)]

theorem slice_cons_succ (b : UInt8) (bs : Bytes) (i n : Nat) :
    slice (b :: bs) (i + 1) n = slice bs i n := rfl

theorem byte_cons_zero (b : UInt8) (bs : Bytes) : byte (b :: bs) 0 = b := rfl

theorem byte_cons_succ (b : UInt8) (bs : Bytes) (i : Nat) :
    byte (b :: bs) (i + 1) = byte bs i := rfl

theorem slice_of_length {bs : Bytes} {n : Nat} (h : bs.length = n) : slice bs 0 n = bs := by
  rw [← h, slice_self]

theorem slice_append_of_length {as : Bytes} {n : Nat} (h : as.length = n) (bs : Bytes) :
    slice (as ++ bs) 0 n = as := by
  rw [slice, List.drop_zero, List.take_left' h]

/-- What was written between two strings is read back there. -/
theorem slice_append_middle {as ms : Bytes} {i n : Nat} (ha : as.length = i) (hm : ms.length = n)
    (bs : Bytes) : slice (as ++ (ms ++ bs)) i n = ms := by
  rw [← ha, ← Nat.add_zero as.length, slice_append_right, slice, List.drop_zero,
    List.take_left' hm]

theorem word16_append_ofWord16 {as : Bytes} {i : Nat} (h : as.length = i) (v : UInt16)
    (bs : Bytes) : word16 (as ++ (ofWord16 v ++ bs)) i = v := by
  rw [word16, slice_append_middle h (length_ofWord16 v), value_ofWord16]

theorem word32_append_ofWord32 {as : Bytes} {i : Nat} (h : as.length = i) (v : UInt32)
    (bs : Bytes) : word32 (as ++ (ofWord32 v ++ bs)) i = v := by
  rw [word32, slice_append_middle h (length_ofWord32 v), value_ofWord32]

/-- The sum of all bytes modulo 256; a table whose bytes sum to zero is intact. -/
def checksum (bs : Bytes) : UInt8 := bs.foldl (· + ·) 0

/-- The characters of an ASCII text, one byte each. -/
def ofAscii (s : String) : Bytes := s.toList.map fun c => UInt8.ofNat c.toNat

end Bytes

end BootHandoff
