/-
  The FADT as an image of 129 bytes. Of a table that ends early only the declared bytes are read,
  and the image has zeros where the others would be, also in the middle of a field (`ImageAt`). Each
  field that the reader gives is the little-endian number at its offset of the image (`FieldsIn`).
  `outcome_read_image` puts both together, and says of which bytes the result is a function.
-/
import BootHandoff.Acpi.Fadt
import BootHandoff.Proofs.Acpi.RootPointer
import BootHandoff.Proofs.Memory.Holding
import BootHandoff.Proofs.Memory.SingleBytes
import Mathlib.Algebra.BigOperators.Group.Finset.Basic
import Mathlib.Algebra.BigOperators.Ring.Finset

namespace BootHandoff

/-! ## Little-endian numbers -/

namespace Bytes

/-- The little-endian number in the `n` bytes from offset `i` on. -/
def littleEndian (image : Nat → UInt8) (i n : Nat) : Nat :=
  ∑ k ∈ Finset.range n, (image (i + k)).toNat * 256 ^ k

theorem littleEndian_succ (image : Nat → UInt8) (i n : Nat) :
    littleEndian image i (n + 1) = (image i).toNat + 256 * littleEndian image (i + 1) n := by
  have hshift : ∑ k ∈ Finset.range n, (image (i + (k + 1))).toNat * 256 ^ (k + 1) =
      256 * littleEndian image (i + 1) n := by
    rw [littleEndian, Finset.mul_sum]
    apply Finset.sum_congr rfl
    intro k _
    rw [Nat.pow_succ, Nat.mul_comm (256 ^ k), Nat.mul_left_comm, Nat.add_comm k, Nat.add_assoc]
  rw [← hshift, littleEndian, Finset.sum_range_succ', Nat.add_comm, Nat.pow_zero, Nat.mul_one,
    Nat.add_zero]

theorem drop_eq_byte_cons {bs : Bytes} {i : Nat} (h : i < bs.length) :
    bs.drop i = byte bs i :: bs.drop (i + 1) := by
  rw [List.drop_eq_getElem_cons h]
  congr 1
  exact Option.some.inj ((List.getElem?_eq_getElem h).symm.trans (getElem?_eq_byte h))

/-- A part of a string is worth what its bytes are, zeros past the end included. -/
theorem value_slice (bs : Bytes) (i n : Nat) :
    value (slice bs i n) = littleEndian (byte bs) i n := by
  induction n generalizing i with
  | zero => rw [slice, List.take_zero, value, littleEndian, Finset.sum_range_zero]
  | succ n ih =>
    rw [littleEndian_succ, ← ih]
    by_cases h : i < bs.length
    · rw [slice, drop_eq_byte_cons h, List.take_succ_cons, value, slice]
    · have hpast : bs.length ≤ i := Nat.le_of_not_lt h
      rw [slice, slice, List.drop_of_length_le hpast, List.drop_of_length_le (by omega),
        List.take_nil, List.take_nil, byte_of_length_le hpast]
      rfl

theorem littleEndian_lt (image : Nat → UInt8) (i n : Nat) :
    littleEndian image i n < 256 ^ n := by
  induction n generalizing i with
  | zero => exact Nat.one_pos
  | succ n ih =>
    have hbyte := (image i).toNat_lt
    have hrest := ih (i + 1)
    rw [littleEndian_succ, Nat.pow_succ]
    omega

theorem toNat_word32 (bs : Bytes) (i : Nat) :
    (word32 bs i).toNat = littleEndian (byte bs) i 4 := by
  rw [word32, value_slice, UInt32.toNat_ofNat_of_lt' (littleEndian_lt ..)]

theorem toNat_word64 (bs : Bytes) (i : Nat) :
    (word64 bs i).toNat = littleEndian (byte bs) i 8 := by
  rw [word64, value_slice, UInt64.toNat_ofNat_of_lt' (littleEndian_lt ..)]

end Bytes

namespace Acpi.Fadt

variable {mem : Memory} {address : Address} {header bs : Bytes} {size : Nat}

/-! ## The image of a table -/

/-- How many bytes of a table with that header are looked at. -/
def usedLength (header : Bytes) : Nat := min (header.word32 4).toNat 129

/-- The bytes of a table of some size at an address, with zeros behind them. -/
structure ImageAt (mem : Memory) (address : Address) (size : Nat) (image : Nat → UInt8) : Prop where
  shows : ∀ i < size, mem.Shows (address.toNat + i) (image i)
  zero : ∀ i, size ≤ i → image i = 0

theorem imageAt_of_read (h : mem.read address size = .ok bs) :
    ImageAt mem address size (Bytes.byte bs) := by
  refine ⟨fun i hi => Memory.shows_of_read h hi, ?_⟩
  intro i hi
  apply Bytes.byte_of_length_le
  rwa [Memory.length_of_read h]

theorem ImageAt.unique (hc : mem.Coherent) {image other : Nat → UInt8}
    (h : ImageAt mem address size image) (h' : ImageAt mem address size other) :
    image = other := by
  funext i
  by_cases hi : i < size
  · exact (h.shows i hi).unique hc (h'.shows i hi)
  · rw [h.zero i (by omega), h'.zero i (by omega)]

/-- The fields are those of an image, each at its offset. -/
structure FieldsIn (image : Nat → UInt8) (fadt : Fadt) : Prop where
  smiCommand : fadt.smiCommand.toNat = Bytes.littleEndian image 48 4
  pm1aEvent : fadt.pm1aEvent.toNat = Bytes.littleEndian image 56 4
  pm1aControl : fadt.pm1aControl.toNat = Bytes.littleEndian image 64 4
  pmTimer : fadt.pmTimer.toNat = Bytes.littleEndian image 76 4
  gpe0 : fadt.gpe0.toNat = Bytes.littleEndian image 80 4
  pm1ControlLength : fadt.pm1ControlLength = image 89
  gpe0Length : fadt.gpe0Length = image 92
  flags : fadt.flags.toNat = Bytes.littleEndian image 112 4
  resetRegister : fadt.resetRegister.toNat = Bytes.littleEndian image 120 8
  resetValue : fadt.resetValue = image 128

theorem fieldsIn_ofBytes (bs : Bytes) : FieldsIn (Bytes.byte bs) (ofBytes bs) :=
  ⟨Bytes.toNat_word32 .., Bytes.toNat_word32 .., Bytes.toNat_word32 .., Bytes.toNat_word32 ..,
    Bytes.toNat_word32 .., rfl, rfl, Bytes.toNat_word32 .., Bytes.toNat_word64 .., rfl⟩

/-! ## The reader -/

theorem read_eq (mem : Memory) (address : Address) :
    read mem address = readBytes mem address 36 >>= fun header =>
      readBytes mem address (usedLength header) >>= fun bs => pure (ofBytes bs) := by
  rw [read, readHeader, bind_assoc]
  rfl

theorem outcome_read_eq_ok_iff {fadt : Fadt} :
    (read mem address).outcome = .ok fadt ↔ ∃ header bs, mem.read address 36 = .ok header ∧
      mem.read address (usedLength header) = .ok bs ∧ fadt = ofBytes bs := by
  rw [read_eq]
  constructor
  · intro h
    obtain ⟨header, hheader, h⟩ := Logged.outcome_bind_eq_ok_iff.mp h
    obtain ⟨bs, hbs, h⟩ := Logged.outcome_bind_eq_ok_iff.mp h
    cases h
    exact ⟨header, bs, outcome_readBytes_eq_ok_iff.mp hheader, outcome_readBytes_eq_ok_iff.mp hbs,
      rfl⟩
  · rintro ⟨header, bs, hheader, hbs, rfl⟩
    rw [outcome_readBytes_bind_of_ok hheader, outcome_readBytes_bind_of_ok hbs]
    rfl

theorem outcome_read_eq_error_iff {fault : Fault AcpiError} :
    (read mem address).outcome = .error fault ↔ ∃ e, fault = .cause (.badAddress e) ∧
      (mem.read address 36 = .error e ∨ ∃ header, mem.read address 36 = .ok header ∧
        mem.read address (usedLength header) = .error e) := by
  rw [read_eq]
  cases hheader : mem.read address 36 with
  | error e =>
    rw [outcome_readBytes_bind_of_error hheader]
    grind
  | ok header =>
    rw [outcome_readBytes_bind_of_ok hheader]
    cases hbs : mem.read address (usedLength header) with
    | error e =>
      rw [outcome_readBytes_bind_of_error hbs]
      grind
    | ok bs =>
      rw [outcome_readBytes_bind_of_ok hbs, Logged.outcome_pure]
      grind

/-- Reading the FADT takes in what the header and the length in it cover, and nothing past that. -/
theorem read_eq_of_agree (hheader : mem.read address 36 = .ok header) {other : Memory}
    (h : mem.Agree other fun place => address.toNat ≤ place ∧
      place < address.toNat + max 36 (usedLength header)) :
    read other address = read mem address := by
  have hread : ∀ n, n ≤ max 36 (usedLength header) →
      readBytes other address n = readBytes mem address n := by
    intro n hn
    rw [readBytes, readBytes, h.read_eq fun x hfirst hlast => ⟨hfirst, by omega⟩]
  rw [read_eq, read_eq, hread 36 (Nat.le_max_left ..)]
  apply Logged.bind_congr_of_ok
  intro header' hheader'
  obtain rfl : header = header' :=
    Except.ok.inj (hheader.symm.trans (outcome_readBytes_eq_ok_iff.mp hheader'))
  rw [hread (usedLength header) (Nat.le_max_right ..)]

/-- **The FADT.** The call fails exactly where the header, or as much of the table as it declares and
    is used, cannot be read. Otherwise the fields are those of the one image of the table that has
    zeros from its end on, and they do not depend on any byte past the header and that end. -/
theorem outcome_read_image (hc : mem.Coherent) (address : Address) :
    (∀ fault, (read mem address).outcome = .error fault ↔ ∃ e, fault = .cause (.badAddress e) ∧
      (mem.read address 36 = .error e ∨ ∃ header, mem.read address 36 = .ok header ∧
        mem.read address (usedLength header) = .error e)) ∧
    ∀ header, mem.read address 36 = .ok header →
      (∀ fadt, (read mem address).outcome = .ok fadt → ∃ image,
        (∀ other, ImageAt mem address (usedLength header) other ↔ other = image) ∧
          FieldsIn image fadt) ∧
      ∀ other, (mem.Agree other fun place => address.toNat ≤ place ∧
          place < address.toNat + max 36 (usedLength header)) →
        read other address = read mem address := by
  refine ⟨fun fault => outcome_read_eq_error_iff, ?_⟩
  intro header hheader
  refine ⟨?_, fun other h => read_eq_of_agree hheader h⟩
  intro fadt hread
  obtain ⟨header', bs, hheader', hbs, rfl⟩ := outcome_read_eq_ok_iff.mp hread
  obtain rfl : header = header' := Except.ok.inj (hheader.symm.trans hheader')
  refine ⟨Bytes.byte bs, ?_, fieldsIn_ofBytes bs⟩
  intro other
  constructor
  · intro h
    exact h.unique hc (imageAt_of_read hbs)
  · rintro rfl
    exact imageAt_of_read hbs

/-- A memory with a FADT that says it has `length` bytes, of which 58 are there, and stale bytes
    behind them. The last of the 58 is in the middle of a field. -/
def cutMemory (length : UInt32) : Memory :=
  let table : Bytes := Bytes.ofAscii "FACP" ++ Bytes.ofWord32 length ++ Bytes.zeros 40
    ++ Bytes.ofWord32 0xb2 ++ Bytes.zeros 4 ++ [0x00, 0x06]
  .sparse [.ofArray 0x2000 (table ++ List.replicate 10 0xff).toArray]

/-- The stale bytes do not show, whatever they are. Where the length covers them and more, the table
    cannot be read. -/
theorem outcome_read_image_cut :
    (cutMemory 58).Coherent ∧ (cutMemory 129).Coherent ∧
      (∃ header, (cutMemory 58).read 0x2000 36 = .ok header ∧ usedLength header = 58 ∧
        ∃ image, (∀ other, ImageAt (cutMemory 58) 0x2000 58 other ↔ other = image) ∧
          FieldsIn image ⟨0xb2, 0x600, 0, 0, 0, 0, 0, 0, 0, 0⟩) ∧
      read ((cutMemory 58).withByte 0x203a 1) 0x2000 = read (cutMemory 58) 0x2000 ∧
      (read (cutMemory 129) 0x2000).outcome =
        .error (.cause (.badAddress (.unmapped 0x2000 129))) := by
  have hcut : (cutMemory 58).Coherent := Memory.coherent_sparse (by decide +kernel)
  have hlong : (cutMemory 129).Coherent := Memory.coherent_sparse (by decide +kernel)
  obtain ⟨-, hread⟩ := outcome_read_image hcut 0x2000
  obtain ⟨himage, hsame⟩ := hread _ rfl
  obtain ⟨hfails, -⟩ := outcome_read_image hlong 0x2000
  refine ⟨hcut, hlong, ⟨_, rfl, rfl, himage _ rfl⟩, ?_, ?_⟩
  · refine hsame _ ((Memory.agree_withByte _ 0x203a 1).mono ?_)
    rintro place ⟨-, hlast⟩ rfl
    exact absurd hlast (by decide +kernel)
  · exact (hfails _).mpr ⟨_, rfl, .inr ⟨_, rfl, rfl⟩⟩

end Acpi.Fadt

end BootHandoff
