/-
  The console: a serial port, once one was started, and a logger, once one was installed. Printed
  text goes to the port. A log record becomes one line of text, if a logger is installed and
  admits its level; without a port the line is dropped.
-/
import BootHandoff.Console.SerialPort
import BootHandoff.Log

namespace BootHandoff

/-- Which records a logger admits. -/
inductive Threshold
  | off
  | upTo (level : Level)
deriving DecidableEq, Repr

/-- Whether a record of a level is admitted. -/
def Threshold.admits : Threshold → Level → Bool
  | off, _ => false
  | upTo limit, level => level.within limit

/-- The tag of a level in a console line: colored for a terminal, and of one width. -/
def Level.tag : Level → String
  | error => "\x1b[31mERROR\x1b[0m"
  | warn => "\x1b[33mWARN\x1b[0m "
  | info => "\x1b[32mINFO\x1b[0m "
  | debug => "\x1b[34mDEBUG\x1b[0m"
  | trace => "\x1b[35mTRACE\x1b[0m"

/-- The console line of a record. -/
def Record.consoleLine (r : Record) : String :=
  "[" ++ r.level.tag ++ "] " ++ r.target ++ ": " ++ r.message ++ "\n"

/-- The state of the console. -/
structure Console where
  port : Option SerialPort := none
  /-- The threshold of the logger that is installed. -/
  logger : Option Threshold := none

namespace Console

variable {σ : Type}

/-- What a console port sends first. -/
def banner : String := "\r\n[crab-payload] serial console ready\r\n"

/-- Starts the console on a port and tells whether a device was found. If not, the console keeps
    the port that it had. Nothing if a register would lie past the last port. -/
def start (bus : Bus σ) (c : Console) (base : UInt16) (baud : UInt32) (s : σ) :
    Option (Bool × Console × σ) :=
  match SerialPort.start bus (SerialPort.idle base) baud s with
  | none => none
  | some (port, s) =>
    if port.functional then
      let (port, s) := port.writeText bus banner s
      some (true, { c with port := some port }, s)
    else some (false, c, s)

/-- Prints a text. -/
def print (bus : Bus σ) (c : Console) (text : String) (s : σ) : Console × σ :=
  match c.port with
  | none => (c, s)
  | some port =>
    let (port, s) := port.writeText bus text s
    ({ c with port := some port }, s)

/-- Prints a text and ends the line. -/
def printLine (bus : Bus σ) (c : Console) (text : String) (s : σ) : Console × σ :=
  c.print bus (text ++ "\n") s

/-- Installs the logger and tells whether there was none before. The first one stays. -/
def installLogger (c : Console) (threshold : Threshold) : Bool × Console :=
  match c.logger with
  | none => (true, { c with logger := some threshold })
  | some _ => (false, c)

/-- Whether the logger takes records of a level. -/
def admits (c : Console) (level : Level) : Bool :=
  match c.logger with
  | none => false
  | some threshold => threshold.admits level

/-- Logs a record. -/
def log (bus : Bus σ) (c : Console) (r : Record) (s : σ) : Console × σ :=
  if c.admits r.level then c.print bus r.consoleLine s else (c, s)

end Console

end BootHandoff
