/-
  Machines seen through their I/O ports. A bus tells how a machine in any state answers a read and
  takes a byte written; nothing else is known of the machine. `Bus.traced` is the same machine
  with every access on record.
-/
import BootHandoff.Ports

namespace BootHandoff

/-- The port accesses of a machine with states in `σ`. -/
structure Bus (σ : Type) where
  input : PortWidth → UInt16 → σ → UInt32 × σ
  output : UInt16 → UInt8 → σ → σ

/-- One port access. -/
inductive Access
  /-- A read and the value it gave. -/
  | input (width : PortWidth) (port : UInt16) (value : UInt32)
  /-- A byte written. -/
  | output (port : UInt16) (value : UInt8)
deriving DecidableEq, Repr

namespace Bus

variable {σ : Type}

/-- Reads a byte. -/
def input8 (bus : Bus σ) (port : UInt16) (s : σ) : UInt8 × σ :=
  let (value, s) := bus.input .w8 port s
  (value.toUInt8, s)

/-- The same machine, with its accesses recorded in order. -/
def traced (bus : Bus σ) : Bus (σ × List Access) where
  input width port s :=
    let (value, s') := bus.input width port s.1
    (value, s', s.2 ++ [.input width port value])
  output port value s := (bus.output port value s.1, s.2 ++ [.output port value])

end Bus

/-- The mask registers of the two legacy interrupt controllers. -/
def picMaskPorts : List UInt16 := [0x21, 0xa1]

/-- Masks every interrupt of the legacy interrupt controllers. -/
def maskInterrupts {σ : Type} (bus : Bus σ) (s : σ) : σ :=
  picMaskPorts.foldl (fun s port => bus.output port 0xff s) s

end BootHandoff
