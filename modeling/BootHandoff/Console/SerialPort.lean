/-
  A serial port of the 16550 kind, used for output only. Its eight registers lie at eight ports in
  a row. `start` looks for the device and programs it; a port whose device was not found, or whose
  device stopped taking bytes, is not functional, and nothing is written to it until it is started
  again.
-/
import BootHandoff.Bytes
import BootHandoff.Console.Bus

namespace BootHandoff

/-- A serial port. Only a port whose registers all have an address can be functional. -/
structure SerialPort where
  base : UInt16
  functional : Bool
  base_le : functional = true → base.toNat + 7 < 2 ^ 16

namespace SerialPort

variable {σ : Type}

/-! ## Registers -/

namespace Register

def data : UInt16 := 0

def interruptEnable : UInt16 := 1

def fifoControl : UInt16 := 2

def lineControl : UInt16 := 3

def modemControl : UInt16 := 4

def lineStatus : UInt16 := 5

def scratch : UInt16 := 7

/-- The low half of the divisor, in place of the data while the divisor latch is open. -/
def divisorLow : UInt16 := 0

/-- The high half of the divisor, in place of the interrupt enable while the divisor latch is
    open. -/
def divisorHigh : UInt16 := 1

end Register

/-- Reads a register of the device at a base port. -/
def readRegister (bus : Bus σ) (base register : UInt16) (s : σ) : UInt8 × σ :=
  bus.input8 (base + register) s

/-- Writes a register of the device at a base port. -/
def writeRegister (bus : Bus σ) (base register : UInt16) (value : UInt8) (s : σ) : σ :=
  bus.output (base + register) value s

/-! ## Starting -/

/-- A port that has not been started. -/
def idle (base : UInt16) : SerialPort := ⟨base, false, by simp⟩

/-- The scratch register keeps a value that is written to it. -/
def keepsScratch (bus : Bus σ) (base : UInt16) (value : UInt8) (s : σ) : Bool × σ :=
  let s := writeRegister bus base Register.scratch value s
  let (kept, s) := readRegister bus base Register.scratch s
  (kept = value, s)

/-- Whether a device answers: its scratch register keeps two values, and its line status does not
    read as a floating bus does. -/
def detect (bus : Bus σ) (base : UInt16) (s : σ) : Bool × σ :=
  match keepsScratch bus base 0x55 s with
  | (false, s) => (false, s)
  | (true, s) =>
    match keepsScratch bus base 0xaa s with
    | (false, s) => (false, s)
    | (true, s) =>
      let (status, s) := readRegister bus base Register.lineStatus s
      (status ≠ 0xff, s)

/-- The highest rate, at which the divisor is one. -/
def maxBaud : UInt32 := 115200

/-- The divisor for a rate, which is held between 1 and the highest one. -/
def divisor (baud : UInt32) : UInt32 := maxBaud / max 1 (min baud maxBaud)

/-- The writes that set the rate, eight data bits without parity, the FIFOs and the modem lines.
    The divisor latch is open from the second of them to the fifth. -/
def setup (baud : UInt32) : List (UInt16 × UInt8) :=
  [(Register.interruptEnable, 0x00),
    (Register.lineControl, 0x80),
    (Register.divisorLow, (divisor baud &&& 0xff).toUInt8),
    (Register.divisorHigh, (divisor baud >>> 8 &&& 0xff).toUInt8),
    (Register.lineControl, 0x03),
    (Register.fifoControl, 0xc7),
    (Register.modemControl, 0x0b)]

/-- Programs the device. -/
def program (bus : Bus σ) (base : UInt16) (baud : UInt32) (s : σ) : σ :=
  (setup baud).foldl (fun s w => writeRegister bus base w.1 w.2 s) s

/-- Looks for the device of a port and programs it. The port is functional if a device was found.
    Nothing if a register of the port would lie past the last port. -/
def start (bus : Bus σ) (port : SerialPort) (baud : UInt32) (s : σ) : Option (SerialPort × σ) :=
  if h : port.base.toNat + 7 < 2 ^ 16 then
    match detect bus port.base s with
    | (true, s) => some (⟨port.base, true, fun _ => h⟩, program bus port.base baud s)
    | (false, s) => some (idle port.base, s)
  else none

/-! ## Writing -/

/-- The bit of the line status that tells that the next byte can be written. -/
def readyBit : UInt8 := 0x20

/-- How often the line status is read for one byte before the device is given up. -/
def maxPolls : Nat := 100000

/-- Reads the line status until it tells that the device is ready, at most `polls` times. -/
def awaitReady (bus : Bus σ) (base : UInt16) : (polls : Nat) → σ → Bool × σ
  | 0, s => (false, s)
  | polls + 1, s =>
    let (status, s) := readRegister bus base Register.lineStatus s
    if status &&& readyBit = 0 then awaitReady bus base polls s else (true, s)

/-- Writes one byte, if the port is functional. A device that does not get ready for it makes the
    port not functional. -/
def writeByte (bus : Bus σ) (port : SerialPort) (byte : UInt8) (s : σ) : SerialPort × σ :=
  if port.functional then
    match awaitReady bus port.base maxPolls s with
    | (true, s) => (port, writeRegister bus port.base Register.data byte s)
    | (false, s) => (idle port.base, s)
  else (port, s)

/-- Writes bytes one by one. -/
def writeBytes (bus : Bus σ) (port : SerialPort) (bytes : Bytes) (s : σ) : SerialPort × σ :=
  bytes.foldl (fun (p : SerialPort × σ) byte => writeByte bus p.1 byte p.2) (port, s)

/-- A byte string with a carriage return put before each line feed. -/
def withReturns (bytes : Bytes) : Bytes :=
  bytes.flatMap fun b => if b = 0x0a then [0x0d, 0x0a] else [b]

/-- Writes a text in UTF-8, with a carriage return before each line feed. -/
def writeText (bus : Bus σ) (port : SerialPort) (text : String) (s : σ) : SerialPort × σ :=
  writeBytes bus port (withReturns text.toUTF8.data.toList) s

end SerialPort

end BootHandoff
