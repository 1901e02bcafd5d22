/-
  The board information that the next boot stage needs of the ACPI tables: power management
  registers, the reset register, the PCI Express configuration window, and whether there is a
  trusted platform module.
-/
import BootHandoff.Acpi.PcieWindow
import BootHandoff.Acpi.RootTable
import BootHandoff.Platform.SciCheck

namespace BootHandoff

open Acpi (AcpiError PcieWindow Fadt Listing Rsdp Survey)
open Text

/-- The board information. -/
structure BoardInfo where
  pmControl : UInt64
  pmTimer : UInt64
  resetRegister : Address
  resetValue : UInt8
  pmEvent : UInt64
  pmGpeEnable : UInt64
  /-- The base of the configuration window, zero if there is none. -/
  pcieBase : Address
  pcieSize : UInt64
  tpm12 : Bool
  tpm20 : Bool
deriving DecidableEq, Repr

namespace BoardInfo

/-- The information in the tables that were found. -/
def ofTables (found : Listing) (fadt : Fadt) (window : Option PcieWindow) : BoardInfo where
  pmControl := fadt.pm1aControl.toUInt64
  pmTimer := fadt.pmTimer.toUInt64
  resetRegister := fadt.resetRegister
  resetValue := fadt.resetValue
  pmEvent := fadt.pm1aEvent.toUInt64
  pmGpeEnable := fadt.gpe0Enable.toUInt64
  pcieBase := (window.map (·.base)).getD 0
  pcieSize := (window.map (·.size)).getD 0
  tpm12 := found.tcpa
  tpm20 := found.tpm2

/-- The bytes in which the information is handed on. -/
def encode (b : BoardInfo) : Bytes :=
  [0, 0, 0, b.resetValue] ++ Bytes.zeros 4
    ++ Bytes.ofWord64 b.pmEvent ++ Bytes.ofWord64 b.pmGpeEnable
    ++ Bytes.ofWord64 b.pmControl ++ Bytes.ofWord64 b.pmTimer
    ++ Bytes.ofWord64 b.resetRegister
    ++ Bytes.ofWord64 b.pcieBase ++ Bytes.ofWord64 b.pcieSize
    ++ [b.tpm20.toUInt8, b.tpm12.toUInt8] ++ Bytes.zeros 6

@[simp] theorem length_encode (b : BoardInfo) : b.encode.length = 72 := by simp [encode]

/-- The lines in which the information is logged. -/
def lines (b : BoardInfo) : List String :=
  [s!"PmCtrl  Reg {hex b.pmControl.toNat}",
    s!"PmTimer Reg {hex b.pmTimer.toNat}",
    s!"Reset   Reg {hex b.resetRegister.toNat}",
    s!"Reset   Value {hex b.resetValue.toNat}",
    s!"PmEvt   Reg {hex b.pmEvent.toNat}",
    s!"PmGpeEn Reg {hex b.pmGpeEnable.toNat}",
    s!"PcieBaseAddr {hex b.pcieBase.toNat}",
    s!"PcieBaseSize {hex b.pcieSize.toNat}",
    s!"TPM 2.0 present {b.tpm20}",
    s!"TPM 1.2 present {b.tpm12}"]

/-- The configuration window of a listed table, if there is such a table and it has one. -/
def findWindow (mem : Memory) : Option Address → Survey (Option PcieWindow)
  | none => pure none
  | some address => PcieWindow.read? mem address

/-- Gathers the information from the tables that a root pointer leads to, and gives it together
    with the FADT. -/
def find (mem : Memory) (rsdp : Rsdp) : Survey (BoardInfo × Fadt) := do
  let found ← rsdp.listing mem
  match found.fadt with
  | none => Logged.fail .fadtNotFound
  | some address =>
    Logged.note .boardInfo .debug s!"FADT at {hex address.toNat}"
    let fadt ← Fadt.read mem address
    fadt.warnMissing
    let window ← findWindow mem found.mcfg
    let info := ofTables found fadt window
    info.lines.forM fun line => Logged.note .boardInfo .info line
    pure (info, fadt)

end BoardInfo

/-- Gathers the board information and runs the SCI diagnostic, whose result is only logged. -/
def BoardInfo.survey (rsdp : Rsdp) : Procedure AcpiError BoardInfo := do
  let (info, fadt) ← Procedure.examine fun mem => BoardInfo.find mem rsdp
  let _ ← SciCheck.run fadt
  pure info

end BootHandoff
