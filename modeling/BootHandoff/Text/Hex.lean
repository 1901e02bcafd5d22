/-
  Hexadecimal text of numbers: lower-case digits after `0x`, in the fewest digits (`hex`) or
  filled up with zeros to a given width that counts the `0x` (`hexPadded`).
-/

namespace BootHandoff.Text

/-- A number in hexadecimal, such as `0x3f8`. -/
def hex (n : Nat) : String := "0x" ++ String.ofList (Nat.toDigits 16 n)

/-- A number in hexadecimal with zeros after the `0x`, so that it takes `width` characters in all
    or more. -/
def hexPadded (width n : Nat) : String :=
  let digits := Nat.toDigits 16 n
  "0x" ++ String.ofList (List.replicate (width - 2 - digits.length) '0' ++ digits)

end BootHandoff.Text
