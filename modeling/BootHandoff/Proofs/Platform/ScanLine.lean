/-
  The length of a line in the description of a framebuffer. The bits of a line are counted in 32
  bits, and what does not fit them is dropped before the division by the depth of a pixel. So the
  length is exact for every line of fewer than 2^29 bytes, and too small for every longer one
  (`pixelsPerScanLine_ofFramebuffer`).
-/
import BootHandoff.Proofs.Handoff.Decoding

namespace BootHandoff

open Coreboot (Framebuffer)

/-- Dropping a whole word from a number lowers its quotient. -/
theorem mod_div_lt_div {n d : Nat} (hd : 0 < d) (hword : d ≤ 2 ^ 32) (h : 2 ^ 32 ≤ n) :
    n % 2 ^ 32 / d < n / d := by
  have hdropped : n % 2 ^ 32 + d ≤ n := by omega
  calc
    n % 2 ^ 32 / d < (n % 2 ^ 32 + d) / d := by
      rw [Nat.add_div_right _ hd]
      exact Nat.lt_succ_self _
    _ ≤ n / d := Nat.div_le_div_right hdropped

theorem Coreboot.Framebuffer.toNat_pixelsPerScanLine (fb : Framebuffer) :
    fb.pixelsPerScanLine.toNat =
      8 * fb.bytesPerLine.toNat % 2 ^ 32 / fb.bitsPerPixel.toNat := by
  rw [pixelsPerScanLine]
  split
  · rename_i hdepth
    rw [hdepth]
    exact (Nat.div_zero _).symm
  · have hbits : (fb.bytesPerLine <<< 3).toNat = 8 * fb.bytesPerLine.toNat % 2 ^ 32 := by
      rw [UInt32.toNat_shiftLeft, Nat.shiftLeft_eq, Nat.mul_comm]
      rfl
    rw [UInt32.toNat_div, UInt8.toNat_toUInt32, hbits]

namespace DisplayMode

/-- **The length of a line.** In the description of a framebuffer it is the bits of a line that 32
    bits hold, divided by the depth of a pixel. This is exact for a line of fewer than 2^29 bytes,
    and for no other. The resolution does not exceed it exactly if the bits held are enough for as
    many pixels. -/
theorem pixelsPerScanLine_ofFramebuffer {fb : Framebuffer} {mode : DisplayMode}
    (h : ofFramebuffer? fb = some mode) :
    let bits := 8 * fb.bytesPerLine.toNat
    let depth := fb.bitsPerPixel.toNat
    let pixels := (mode.encode.word32 44).toNat
    pixels = bits % 2 ^ 32 / depth ∧
      (pixels = bits / depth ↔ fb.bytesPerLine.toNat < 2 ^ 29) ∧
      ((mode.encode.word32 16).toNat ≤ pixels ↔
        fb.xResolution.toNat * depth ≤ bits % 2 ^ 32) := by
  intro bits depth pixels
  have hshown := shownIn_encode mode
  rw [ofFramebuffer?] at h
  split at h
  · cases h
  rename_i husable
  cases h
  have hdepth : 0 < depth :=
    Nat.pos_of_ne_zero fun hzero => husable (.inr (UInt8.toNat_inj.mp hzero))
  have hword : depth ≤ 2 ^ 32 := Nat.le_trans (Nat.le_of_lt fb.bitsPerPixel.toNat_lt) (by decide)
  have hpixels : pixels = bits % 2 ^ 32 / depth :=
    (congrArg UInt32.toNat hshown.pixelsPerScanLine).trans fb.toNat_pixelsPerScanLine
  refine ⟨hpixels, ?_, ?_⟩
  · rw [hpixels]
    constructor
    · intro hexact
      by_contra hlong
      exact absurd hexact (Nat.ne_of_lt (mod_div_lt_div hdepth hword (by omega)))
    · intro hshort
      rw [Nat.mod_eq_of_lt (by omega)]
  · rw [hpixels, hshown.horizontalResolution]
    exact Nat.le_div_iff_mul_le hdepth

/-- A framebuffer of 1920 pixels to a line, three bytes each, with the longest lines that are
    measured exactly. -/
def longestLines : Framebuffer :=
  ⟨0xc0000000, 1920, 4, 0x1fffffff, 24, ⟨16, 8⟩, ⟨8, 8⟩, ⟨0, 8⟩, ⟨0, 0⟩⟩

theorem pixelsPerScanLine_ofFramebuffer_longest :
    ∃ mode, ofFramebuffer? longestLines = some mode ∧
      (mode.encode.word32 44).toNat = 8 * 0x1fffffff / 24 ∧
      (mode.encode.word32 16).toNat ≤ (mode.encode.word32 44).toNat := by
  obtain ⟨mode, hmode⟩ : ∃ mode, ofFramebuffer? longestLines = some mode := ⟨_, rfl⟩
  obtain ⟨-, hexact, hresolution⟩ := pixelsPerScanLine_ofFramebuffer hmode
  refine ⟨mode, hmode, ?_⟩
  exact ⟨hexact.mpr (by decide), hresolution.mpr (by decide)⟩

/-- With one byte more to a line, and four to a pixel, no bit of the count is left: a line of 2^27
    pixels is described as one of none. -/
theorem pixelsPerScanLine_dropped :
    let fb := { longestLines with bytesPerLine := 0x20000000, bitsPerPixel := 32 }
    8 * fb.bytesPerLine.toNat / fb.bitsPerPixel.toNat = 2 ^ 27 ∧
      fb.xResolution.toNat * fb.bitsPerPixel.toNat ≤ 8 * fb.bytesPerLine.toNat ∧
      ∃ mode, ofFramebuffer? fb = some mode ∧ mode.pixelsPerScanLine = 0 ∧
        mode.encode.word32 44 = 0 ∧ mode.encode.word32 16 = 1920 := by
  refine ⟨by decide, by decide, _, rfl, ?_⟩
  decide +kernel

end DisplayMode

end BootHandoff
