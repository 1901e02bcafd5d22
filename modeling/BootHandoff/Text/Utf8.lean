/-
  Texts and their bytes. `utf8` writes a text in UTF-8, and nothing but what it writes is read back
  as a text (`fromUTF8?_eq_some_iff`). For text that may be damaged there is `decodeReplacing`,
  which reads any byte string: a well-formed sequence gives its character, and each longest start of
  a sequence that goes wrong gives one replacement character.
-/
import BootHandoff.Bytes

namespace BootHandoff.Text

/-! ## Well-formed text -/

/-- The bytes of a text in UTF-8. -/
def utf8 (text : String) : Bytes := text.toUTF8.data.toList

theorem utf8_eq (text : String) : utf8 text = text.toList.flatMap String.utf8EncodeChar := by
  rw [utf8, String.toUTF8_eq_toByteArray, ← String.utf8Encode_toList, List.utf8Encode,
    List.toList_data_toByteArray]

theorem utf8_eq_iff {text : String} {bs : Bytes} : utf8 text = bs ↔ text.toUTF8 = bs.toByteArray := by
  constructor
  · rintro rfl
    exact ByteArray.ext List.data_toByteArray.symm
  · intro h
    rw [utf8, h, List.toList_data_toByteArray]

/-- The bytes of a text are read back as that text, and nothing else is a text. -/
theorem fromUTF8?_eq_some_iff {bs : Bytes} {text : String} :
    String.fromUTF8? bs.toByteArray = some text ↔ utf8 text = bs := by
  rw [utf8_eq_iff]
  constructor
  · intro h
    unfold String.fromUTF8? at h
    split at h
    · cases h
      rfl
    · cases h
  · intro h
    rw [← h, String.fromUTF8?, String.toUTF8_eq_toByteArray, dif_pos text.isValidUTF8]
    rfl

/-! ## Damaged text -/

/-- The character that stands for damaged input. -/
def replacementChar : Char := Char.ofNat 0xfffd

/-- What a first byte announces: how many bytes follow it, the range of the second byte, and the
    high bits of the character. Overlong forms, surrogates and numbers past the last character are
    excluded by the range of the second byte. -/
def utf8Lead (b : UInt8) : Option (Nat × Nat × Nat × Nat) :=
  let n := b.toNat
  if n < 0x80 then some (0, 0, 0, n)
  else if 0xc2 ≤ n ∧ n ≤ 0xdf then some (1, 0x80, 0xbf, n - 0xc0)
  else if n = 0xe0 then some (2, 0xa0, 0xbf, 0)
  else if n = 0xed then some (2, 0x80, 0x9f, 0xd)
  else if 0xe1 ≤ n ∧ n ≤ 0xef then some (2, 0x80, 0xbf, n - 0xe0)
  else if n = 0xf0 then some (3, 0x90, 0xbf, 0)
  else if 0xf1 ≤ n ∧ n ≤ 0xf3 then some (3, 0x80, 0xbf, n - 0xf0)
  else if n = 0xf4 then some (3, 0x80, 0x8f, 4)
  else none

/-- The rest of a sequence of which `count` bytes are missing, the next of them between `low` and
    `high`. Gives the character, or `none` where the sequence breaks off, and the bytes not
    used. -/
def utf8Rest (count low high acc : Nat) : Bytes → Option Char × Bytes
  | bs => match count, bs with
    | 0, bs => (some (Char.ofNat acc), bs)
    | _ + 1, [] => (none, [])
    | count + 1, b :: bs =>
      if low ≤ b.toNat ∧ b.toNat ≤ high then
        utf8Rest count 0x80 0xbf (acc * 64 + b.toNat % 64) bs
      else (none, b :: bs)

theorem length_utf8Rest_le (count low high acc : Nat) (bs : Bytes) :
    (utf8Rest count low high acc bs).2.length ≤ bs.length := by
  induction count generalizing low high acc bs with
  | zero => simp [utf8Rest]
  | succ count ih =>
    cases bs with
    | nil => simp [utf8Rest]
    | cons b bs =>
      rw [utf8Rest]
      split
      · exact Nat.le_succ_of_le (ih ..)
      · exact Nat.le_refl _

/-- The text of a byte string, a replacement character for each damaged sequence. -/
def decodeReplacing : Bytes → List Char
  | [] => []
  | b :: bs =>
    match utf8Lead b with
    | none => replacementChar :: decodeReplacing bs
    | some (count, low, high, acc) =>
      let r := utf8Rest count low high acc bs
      r.1.getD replacementChar :: decodeReplacing r.2
termination_by bs => bs.length
decreasing_by
  · simp
  · have := length_utf8Rest_le count low high acc bs
    simp only [List.length_cons]
    omega

end BootHandoff.Text
