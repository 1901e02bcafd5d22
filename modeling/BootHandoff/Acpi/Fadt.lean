/-
  The fixed ACPI description table (FADT), as far as the reset value. A table that ends earlier,
  even in the middle of a field, is read as if zero bytes followed.
-/
import BootHandoff.Acpi.Table

namespace BootHandoff.Acpi

/-- The fields of the FADT that are handed on. -/
structure Fadt where
  /-- The port that switches ACPI mode on, zero if there is none. -/
  smiCommand : UInt32
  pm1aEvent : UInt32
  pm1aControl : UInt32
  pmTimer : UInt32
  gpe0 : UInt32
  pm1ControlLength : UInt8
  gpe0Length : UInt8
  flags : UInt32
  resetRegister : Address
  resetValue : UInt8
deriving DecidableEq, Repr

namespace Fadt

/-- The size of the table up to the reset value. -/
def usedSize : Nat := 129

/-- The fields in the bytes of the table. -/
def ofBytes (bs : Bytes) : Fadt where
  smiCommand := bs.word32 48
  pm1aEvent := bs.word32 56
  pm1aControl := bs.word32 64
  pmTimer := bs.word32 76
  gpe0 := bs.word32 80
  pm1ControlLength := bs.byte 89
  gpe0Length := bs.byte 92
  flags := bs.word32 112
  resetRegister := bs.word64 120
  resetValue := bs.byte 128

/-- Reads the FADT at an address, no further than the length it declares. -/
def read (mem : Memory) (address : Address) : Survey Fadt := do
  let header ← readHeader mem address
  let bs ← readBytes mem address (min header.length.toNat usedSize)
  pure (ofBytes bs)

/-- The first enable register of the general purpose events, in the second half of their block. -/
def gpe0Enable (fadt : Fadt) : UInt32 := fadt.gpe0 + fadt.gpe0Length.toUInt32 / 2

/-- The flag of platforms without fixed ACPI hardware, bit 20. -/
def hardwareReducedFlag : UInt32 := 0x100000

/-- The platform has no fixed ACPI hardware. -/
def hardwareReduced (fadt : Fadt) : Bool := fadt.flags &&& hardwareReducedFlag ≠ 0

/-- The register blocks that the next stage relies on, with the names they are logged under. -/
def blocks (fadt : Fadt) : List (String × Nat) :=
  [("PM1a control", fadt.pm1aControl.toNat), ("PM timer", fadt.pmTimer.toNat),
    ("reset register", fadt.resetRegister.toNat), ("PM1a event", fadt.pm1aEvent.toNat),
    ("GPE0", fadt.gpe0.toNat)]

/-- Logs each register block that is zero. -/
def warnMissing (fadt : Fadt) : Survey Unit :=
  (fadt.blocks.filter fun block => block.2 = 0).forM fun block =>
    Logged.note .fadt .warn s!"FADT: {block.1} block is zero"

end Fadt

end BootHandoff.Acpi
