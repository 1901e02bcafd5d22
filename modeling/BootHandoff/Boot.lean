/-
  The boot of the payload, from the pointer that coreboot hands over to the halt: read the tables,
  start the console, build the HOB list in its window, mask the interrupts. A failure to build the
  list is logged, and the machine halts all the same. The ACPI tables are read from the memory
  that the window lies in, where the list, as far as it is written, replaces what was there before.
-/
import BootHandoff.Console
import BootHandoff.Coreboot.Table
import BootHandoff.Handoff
import BootHandoff.Hob.Overlay

namespace BootHandoff

open Text

/-- Why the HOB list cannot be built. -/
inductive BootError
  | table (e : Coreboot.TableError)
  | acpi (e : Acpi.AcpiError)
  | hob (e : HobError)
deriving DecidableEq, Repr

/-- The text of a failure. -/
def BootError.message : BootError → String
  | table e => e.message
  | acpi e => e.message
  | hob e => e.message

/-- What ended a run of the hand-off, as a failure of the payload. -/
def BootError.ofStop : Procedure.StopCause Acpi.AcpiError → BootError
  | .refused e => hob e
  | .failed e => acpi e

namespace Boot

variable {σ ε : Type}

/-- The version in the first log line. -/
def version : String := "0.1.0"

/-! ## The console -/

/-- The port and the rate of the console: those of the boot loader's console if it is behind I/O
    ports, of whose number the low 16 bits count, else the configured ones. -/
def consoleSettings (settings : Settings) (serial : Option Coreboot.SerialRecord) :
    UInt16 × UInt32 :=
  match serial with
  | some record =>
    if record.type = Coreboot.SerialRecord.ioMapped then (record.base.toUInt16, record.baud)
    else (settings.fallbackPort, settings.fallbackBaud)
  | none => (settings.fallbackPort, settings.fallbackBaud)

/-- Starts the console and installs the logger. Nothing if a register of the console would lie
    past the last port. -/
def startConsole (bus : Bus σ) (settings : Settings)
    (serial : Option Coreboot.SerialRecord) (s : σ) : Option (Console × σ) :=
  let (base, baud) := consoleSettings settings serial
  match Console.start bus {} base baud s with
  | none => none
  | some (_, console, s) => some ((console.installLogger (.upTo settings.logLevel)).2, s)

/-- The console and the machine as the host of the hand-off. -/
def host (bus : Bus σ) : Procedure.Host (Console × σ) where
  note r s := s.1.log bus r s.2
  readPort width port s :=
    let (value, t) := bus.input width port s.2
    (value, s.1, t)

/-- Logs a record of the payload itself. -/
def log (bus : Bus σ) (level : Level) (message : String) (s : Console × σ) : Console × σ :=
  (host bus).note (.of .payload level message) s

/-! ## The list -/

/-- Logs what the boot loader says of itself and how much RAM there is. The RAM is summed up whatever
    the level of the logger: the only level that is ever set, the default one, lets the record
    through. A level that does not would save the sum. -/
def announce (info : Coreboot.Info) : Procedure ε Unit := do
  match info.version with
  | some version => Procedure.log .payload .info s!"coreboot version {version}"
  | none => pure ()
  match totalRam? info.memoryMap with
  | none => .stop .overflow
  | some total =>
    let count := info.memoryMap.length
    Procedure.log .payload .info
      s!"{count} memory map entries, {total.toNat / 2 ^ 20} MiB usable RAM"

/-- Describes the platform and the payload. -/
def describe (settings : Settings) (addressBits : UInt8) (info : Coreboot.Info) :
    Procedure Acpi.AcpiError Summary := do
  let summary ← Handoff.describePlatform info
  Handoff.describePayload settings addressBits
  pure summary

/-- Logs the finished list. -/
def report (summary : Summary) (list : HobList) : Procedure ε Unit := do
  Procedure.log .payload .info s!"TOLUD {summary.tolud.text}"
  list.items.forM fun item =>
    Procedure.log .payload .debug
      s!"HOB type {hexPadded 6 item.1.toNat}, {item.2.length} bytes"
  let free := hex list.phit.freeMemoryBottom.toNat
  Procedure.log .payload .debug
    s!"HOB list end {hex list.endAddress.toNat}, free memory from {free}"

/-- The end of an attempt to build the list: the console and the machine, the list as far as it
    was built, and its address or what went wrong. -/
structure Build (σ : Type) where
  state : Console × σ
  list : Option HobList
  outcome : Except (Fault BootError) Address

/-- The empty list in its window of memory. -/
def newList (settings : Settings) (mem : Memory) : Except (Fault HobError) HobList :=
  match settings.hobBase?, settings.hobTop? with
  | some base, some top =>
    let window := Window.ofMemory mem base settings.hobWindowSize.toNat
    HobList.create window base settings.imageBase top
  | _, _ => .error .overflow

/-- A fault with its cause seen as a failure of the payload. -/
def faultOf {δ : Type} (f : δ → BootError) : Fault δ → Fault BootError
  | .overflow => .overflow
  | .cause e => .cause (f e)

/-- Builds the list in its window. What is in memory before the list is started is `mem`. -/
def build (bus : Bus σ) (mem : Memory) (settings : Settings) (addressBits : UInt8)
    (info : Coreboot.Info) (s : Console × σ) : Build σ :=
  let announced := (announce info).run (host bus) (Sink.recorder none) (fun _ => mem) s []
  match announced.outcome with
  | .error fault => ⟨announced.host, none, .error (faultOf BootError.ofStop fault)⟩
  | .ok () =>
    match newList settings mem with
    | .error fault => ⟨announced.host, none, .error (faultOf .hob fault)⟩
    | .ok list =>
      let described := (describe settings addressBits info).run (host bus) Sink.hobList
        (HobList.memory mem) announced.host list
      match described.outcome with
      | .error fault =>
        ⟨described.host, some described.sink, .error (faultOf BootError.ofStop fault)⟩
      | .ok summary =>
        let reported : Procedure.Run _ _ Empty Unit :=
          (report summary described.sink).run (host bus) Sink.hobList (HobList.memory mem)
            described.host described.sink
        ⟨reported.host, some described.sink, .ok described.sink.base⟩

/-- Builds the list if the tables could be read. -/
def buildFromTables (bus : Bus σ) (mem : Memory) (settings : Settings) (addressBits : UInt8)
    (tables : Except Coreboot.TableError Coreboot.Info) (s : Console × σ) : Build σ :=
  match tables with
  | .ok info => build bus mem settings addressBits info s
  | .error e => ⟨s, none, .error (.cause (.table e))⟩

/-! ## The boot -/

/-- The machine at the halt. -/
structure Halted (σ : Type) where
  console : Console
  machine : σ
  /-- The list as far as it was built. -/
  list : Option HobList
  outcome : Except BootError Address

/-- Logs how building the list ended. -/
def logOutcome (bus : Bus σ) (outcome : Except BootError Address) (s : Console × σ) :
    Console × σ :=
  match outcome with
  | .ok address => log bus .info s!"HOB list complete at {hex address.toNat}" s
  | .error e => log bus .error s!"Failed to build the HOB list: {e.message}" s

/-- Masks the interrupts and logs the halt. -/
def halt (bus : Bus σ) (s : Console × σ) : Console × σ :=
  log bus .info "Halting" (s.1, maskInterrupts bus s.2)

/-- The boot once the tables have been looked for. -/
def runFromTables (bus : Bus σ) (mem : Memory) (settings : Settings) (addressBits : UInt8)
    (tables : Except Coreboot.TableError Coreboot.Info) (s : σ) : Option (Halted σ) :=
  match startConsole bus settings (tables.toOption.bind (·.serial)) s with
  | none => none
  | some started =>
    let greeted := log bus .info s!"crab-payload {version} starting" started
    let built := buildFromTables bus mem settings addressBits tables greeted
    let finish (outcome : Except BootError Address) : Halted σ :=
      let halted := halt bus (logOutcome bus outcome built.state)
      ⟨halted.1, halted.2, built.list, outcome⟩
    match built.outcome with
    | .error .overflow => none
    | .error (.cause e) => some (finish (.error e))
    | .ok address => some (finish (.ok address))

/-- Boots from the coreboot tables that a pointer leads to, on a processor with `addressBits`
    address bits. What is logged before there is a console is lost. Nothing if a sum on the way
    does not fit its word. -/
def run (bus : Bus σ) (mem : Memory) (settings : Settings) (addressBits : UInt8)
    (pointer : Address) (s : σ) : Option (Halted σ) :=
  match (Coreboot.Info.read mem pointer).outcome with
  | .error .overflow => none
  | .error (.cause e) => runFromTables bus mem settings addressBits (.error e) s
  | .ok info => runFromTables bus mem settings addressBits (.ok info) s

end Boot

end BootHandoff
