/-
  The description of the framebuffer for the next boot stage: where it is, its mode, and which
  bits of a pixel belong to which color.
-/
import BootHandoff.Coreboot.Framebuffer
import BootHandoff.Procedure
import BootHandoff.Text.Hex

namespace BootHandoff

open Coreboot (Channel Framebuffer)
open Text

/-- How the colors lie in a pixel. -/
inductive PixelFormat
  /-- Red, green, blue and an unused byte, from low to high. -/
  | redGreenBlue
  /-- Blue, green, red and an unused byte, from low to high. -/
  | blueGreenRed
  /-- As the masks say. -/
  | bitMask
deriving DecidableEq, Repr

/-- The number of a pixel format in a mode description. -/
def PixelFormat.code : PixelFormat → UInt32
  | redGreenBlue => 0
  | blueGreenRed => 1
  | bitMask => 2

/-- The bits of a pixel that a channel takes. A channel that starts past the highest bit takes
    none, and bits that a channel would have past the highest one are dropped. -/
def Coreboot.Channel.mask (c : Channel) : UInt32 :=
  let ones : UInt32 := if 32 ≤ c.size then 0xffffffff else (1 <<< c.size.toUInt32) - 1
  if c.position < 32 then ones <<< c.position.toUInt32 else 0

/-- A framebuffer mode as it is handed on. -/
structure DisplayMode where
  base : Address
  size : UInt32
  horizontalResolution : UInt32
  verticalResolution : UInt32
  pixelFormat : PixelFormat
  redMask : UInt32
  greenMask : UInt32
  blueMask : UInt32
  reservedMask : UInt32
  pixelsPerScanLine : UInt32
deriving DecidableEq, Repr

namespace DisplayMode

/-- The pixel format in which the colors start at the given bits. -/
def formatOf (red green blue : UInt8) : PixelFormat :=
  if red = 0 ∧ green = 8 ∧ blue = 16 then .redGreenBlue
  else if red = 16 ∧ green = 8 ∧ blue = 0 then .blueGreenRed
  else .bitMask

/-- The description of a framebuffer, unless it lies at address zero or has no pixel depth. A size
    past 32 bits is held at the largest one. -/
def ofFramebuffer? (fb : Framebuffer) : Option DisplayMode :=
  if fb.address = 0 ∨ fb.bitsPerPixel = 0 then none
  else
    some {
      base := fb.address
      size := if fb.size.toNat < 2 ^ 32 then fb.size.toUInt32 else 0xffffffff
      horizontalResolution := fb.xResolution
      verticalResolution := fb.yResolution
      pixelFormat := formatOf fb.red.position fb.green.position fb.blue.position
      redMask := fb.red.mask
      greenMask := fb.green.mask
      blueMask := fb.blue.mask
      reservedMask := fb.unused.mask
      pixelsPerScanLine := fb.pixelsPerScanLine }

/-- The bytes of the description. The mode in it has a version of its own, zero. -/
def encode (g : DisplayMode) : Bytes :=
  Bytes.ofWord64 g.base ++ Bytes.ofWord32 g.size ++ Bytes.ofWord32 0
    ++ Bytes.ofWord32 g.horizontalResolution ++ Bytes.ofWord32 g.verticalResolution
    ++ Bytes.ofWord32 g.pixelFormat.code
    ++ Bytes.ofWord32 g.redMask ++ Bytes.ofWord32 g.greenMask ++ Bytes.ofWord32 g.blueMask
    ++ Bytes.ofWord32 g.reservedMask ++ Bytes.ofWord32 g.pixelsPerScanLine

@[simp] theorem length_encode (g : DisplayMode) : g.encode.length = 48 := by simp [encode]

/-- Publishes the description. -/
def publish {ε : Type} (g : DisplayMode) : Procedure ε Unit := do
  Procedure.emit (.guid Guid.graphicsInfo g.encode)
  let place := hex g.base.toNat
  Procedure.log .graphics .debug
    s!"Created graphics info HOB: {g.horizontalResolution}x{g.verticalResolution} @ {place}"

end DisplayMode

end BootHandoff
