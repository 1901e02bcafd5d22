/-
  The layout that is fixed when the payload is built: where its image lies, the window for the HOB
  list past it, and what to use where the boot loader says nothing.
-/
import BootHandoff.Address
import BootHandoff.Log

namespace BootHandoff

/-- The layout of the payload and the settings of its console. -/
structure Settings where
  /-- Where the image of the payload lies. -/
  imageBase : Address := 0x800000
  imageSize : UInt64 := 0x500000
  /-- The size of the window for the HOB list. -/
  hobWindowSize : UInt64 := 0x4000000
  ioApicBase : Address := 0xfec80000
  ioApicSize : UInt64 := 0x80000
  /-- The console port used when the boot loader names none. -/
  fallbackPort : UInt16 := 0x3f8
  fallbackBaud : UInt32 := 115200
  logLevel : Level := .debug
deriving DecidableEq, Repr

namespace Settings

/-- The boundary that the window for the HOB list starts at. -/
def windowAlignment : Nat := 0x100000

/-- The start of the window: the first 1 MiB boundary past the image. Nothing if a sum on the way
    does not fit 64 bits. -/
def hobBase? (c : Settings) : Option Address := do
  let imageEnd ← Address.offset? c.imageBase c.imageSize.toNat
  let past ← Address.offset? imageEnd windowAlignment
  pure (UInt64.ofNat ((past.toNat - 1) / windowAlignment * windowAlignment))

/-- The end of the window. -/
def hobTop? (c : Settings) : Option Address := do
  let base ← c.hobBase?
  Address.offset? base c.hobWindowSize.toNat

end Settings

end BootHandoff
