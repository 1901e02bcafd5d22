/-
  The framebuffer that the boot loader set up: where it is, its resolution, and where the color
  channels lie in a pixel. Its size never wraps (`toNat_size`).
-/
import BootHandoff.Address

namespace BootHandoff.Coreboot

/-- The bits of a pixel that carry one color channel. -/
structure Channel where
  position : UInt8
  size : UInt8
deriving DecidableEq, Repr

/-- A linear framebuffer. -/
structure Framebuffer where
  address : Address
  xResolution : UInt32
  yResolution : UInt32
  bytesPerLine : UInt32
  bitsPerPixel : UInt8
  red : Channel
  green : Channel
  blue : Channel
  unused : Channel
deriving DecidableEq, Repr

namespace Framebuffer

/-- The size in bytes. -/
def size (fb : Framebuffer) : UInt64 := fb.bytesPerLine.toUInt64 * fb.yResolution.toUInt64

theorem toNat_size (fb : Framebuffer) :
    fb.size.toNat = fb.bytesPerLine.toNat * fb.yResolution.toNat := by
  have hb := fb.bytesPerLine.toNat_lt
  have hy := fb.yResolution.toNat_lt
  have := Nat.mul_lt_mul'' hb hy
  rw [size, UInt64.toNat_mul, UInt32.toNat_toUInt64, UInt32.toNat_toUInt64]
  exact Nat.mod_eq_of_lt (by omega)

/-- The pixels of a line, padding included. The bits of a line are counted in 32 bits, and what
    does not fit them is dropped. Without a pixel depth there are no pixels. -/
def pixelsPerScanLine (fb : Framebuffer) : UInt32 :=
  if fb.bitsPerPixel = 0 then 0 else (fb.bytesPerLine <<< 3) / fb.bitsPerPixel.toUInt32

end Framebuffer

end BootHandoff.Coreboot
