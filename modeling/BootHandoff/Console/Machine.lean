/-
  A machine with serial devices, for running the console without hardware. Each device answers at
  eight ports; while its line is set to eight data bits it takes bytes and reports whether it is
  ready for more. All other ports hold fixed values. Bytes taken and line status reads are
  counted, every other access is recorded.
-/
import BootHandoff.Console.Bus
import BootHandoff.Text.Utf8

namespace BootHandoff

/-- A serial device. -/
structure Uart where
  base : UInt16
  /-- A device that is not present floats: its registers read as all ones. -/
  present : Bool := true
  /-- What the line status register reads when nothing holds the device up. -/
  lineStatus : UInt8 := 0x60
  /-- How many status reads a byte keeps the device busy for. -/
  busy : Nat := 0
  /-- The number of bytes after which the device takes no more. -/
  stallAfter : Option Nat := none
  scratch : UInt8 := 0
  lineControl : UInt8 := 0
  /-- How many status reads the device is still busy for. -/
  wait : Nat := 0
  /-- The bytes taken, the last one first. -/
  taken : Bytes := []

namespace Uart

/-- The bytes taken, in order. -/
def sent (u : Uart) : Bytes := u.taken.reverse

/-- The bytes taken, as text. -/
def text (u : Uart) : String := String.ofList (Text.decodeReplacing u.sent)

/-- The register at a port, if the port is one of the device. -/
def register? (u : Uart) (port : UInt16) : Option Nat :=
  let register := (port - u.base).toNat
  if register < 8 then some register else none

/-- The line is set to eight data bits, and the divisor latch is closed. -/
def isSetUp (u : Uart) : Bool := u.lineControl = 3

/-- The line status without the bit that tells that the device is ready. -/
def busyStatus (u : Uart) : UInt8 := u.lineStatus &&& 0xdf

/-- The device takes no more bytes. -/
def stalled (u : Uart) : Bool :=
  match u.stallAfter with
  | none => false
  | some limit => limit ≤ u.taken.length

/-- Reads the line status of a device that is set up. -/
def poll (u : Uart) : UInt8 × Uart :=
  if u.stalled then (u.busyStatus, u)
  else if 0 < u.wait then (u.busyStatus, { u with wait := u.wait - 1 })
  else (u.lineStatus, u)

/-- What any other read of a register gives. -/
def peek (u : Uart) (register : Nat) : UInt8 :=
  if !u.present then 0xff
  else match register with
    | 5 => u.lineStatus
    | 7 => u.scratch
    | _ => 0

/-- Takes a byte to send. -/
def take (u : Uart) (byte : UInt8) : Uart := { u with taken := byte :: u.taken, wait := u.busy }

/-- Takes any other write to a register. -/
def poke (u : Uart) (register : Nat) (value : UInt8) : Uart :=
  match register with
  | 3 => if u.present then { u with lineControl := value } else u
  | 7 => { u with scratch := value }
  | _ => u

end Uart

/-- A machine with serial devices. -/
structure Machine where
  uarts : List Uart := []
  /-- The values at the ports of no device. -/
  ports : PortSpace := fun _ => 0xffffffff
  /-- How many line status reads were made of devices that are set up. -/
  polls : Nat := 0
  trace : Array Access := #[]

namespace Machine

/-- The first device with a register at a port, and that register. -/
def locate? (m : Machine) (port : UInt16) : Option (Nat × Uart × Nat) :=
  m.uarts.zipIdx.findSome? fun (u, i) => (u.register? port).map fun r => (i, u, r)

/-- Records an access. -/
def record (m : Machine) (access : Access) : Machine := { m with trace := m.trace.push access }

/-- Reads the port of a device, or of none. -/
def input (width : PortWidth) (port : UInt16) (m : Machine) : UInt32 × Machine :=
  let plain (value : UInt32) := (value, m.record (.input width port value))
  match width, m.locate? port with
  | .w8, some (i, u, r) =>
    if r = 5 ∧ u.isSetUp then
      let (status, u) := u.poll
      (status.toUInt32, { m with uarts := m.uarts.set i u, polls := m.polls + 1 })
    else plain (u.peek r).toUInt32
  | _, _ => plain (m.ports.read width port)

/-- Writes a byte to the port of a device, or of none. -/
def output (port : UInt16) (value : UInt8) (m : Machine) : Machine :=
  match m.locate? port with
  | some (i, u, r) =>
    if r = 0 ∧ u.isSetUp then { m with uarts := m.uarts.set i (u.take value) }
    else { m with uarts := m.uarts.set i (u.poke r value) }.record (.output port value)
  | none => m.record (.output port value)

/-- The machine as a bus. -/
def bus : Bus Machine := ⟨input, output⟩

end Machine

end BootHandoff
