/-
  The I/O port space: 65536 ports, read and written in 8, 16 or 32 bits.
-/

namespace BootHandoff

/-- How much of a port one access takes. -/
inductive PortWidth
  | w8
  | w16
  | w32
deriving DecidableEq, Repr

/-- The width in bits. -/
def PortWidth.bits : PortWidth → Nat
  | w8 => 8
  | w16 => 16
  | w32 => 32

/-- The low bits of a value that an access of the width sees. -/
def PortWidth.truncate (width : PortWidth) (value : UInt32) : UInt32 :=
  match width with
  | w8 => value.toUInt8.toUInt32
  | w16 => value.toUInt16.toUInt32
  | w32 => value

/-- A port space in which reading has no effect: the 32-bit value behind each port. -/
abbrev PortSpace := UInt16 → UInt32

/-- The value that an access reads. -/
def PortSpace.read (ports : PortSpace) (width : PortWidth) (port : UInt16) : UInt32 :=
  width.truncate (ports port)

end BootHandoff
