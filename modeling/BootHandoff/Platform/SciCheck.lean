/-
  The SCI diagnostic. On a platform with fixed ACPI hardware the operating system needs ACPI mode
  to be on already, or a command port to switch it on. The diagnostic reads the PM1a control
  register where the FADT alone does not settle the question, and logs an error if neither holds.
-/
import BootHandoff.Acpi.Fadt
import BootHandoff.Procedure

namespace BootHandoff.SciCheck

open Acpi (Fadt)

/-- The bit of the PM1 control register that tells that ACPI mode is on. -/
def enabledBit : UInt32 := 1

/-- What is logged when ACPI mode is off and cannot be switched on. -/
def complaint : String :=
  "The ACPI enabling status is inconsistent: SCI is not enabled but the ACPI "
    ++ "table does not provide a means to enable it through FADT->SmiCmd. "
    ++ "This may cause issues in OS."

/-- How the control register is read: in 32 bits if it is that long, else in 16. -/
def width (fadt : Fadt) : PortWidth := if fadt.pm1ControlLength = 4 then .w32 else .w16

/-- Whether ACPI mode is on or can be switched on. A register is read only if the tables leave it
    open. -/
def run {ε : Type} (fadt : Fadt) : Procedure ε Bool :=
  if fadt.hardwareReduced || fadt.smiCommand ≠ 0 then pure true
  else do
    let control ← Procedure.readFrom (width fadt) fadt.pm1aControl.toUInt16
    if control &&& enabledBit = 0 then
      Procedure.log .fadt .error complaint
      pure false
    else pure true

end BootHandoff.SciCheck
