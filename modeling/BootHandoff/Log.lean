/-
  Log records: a level, the part of the program that speaks, and a message. `Record.line` is the
  written form.
-/

namespace BootHandoff

/-- How serious a log record is. -/
inductive Level
  | error
  | warn
  | info
  | debug
  | trace
deriving DecidableEq, Repr

namespace Level

/-- The place in the order of detail, errors first. -/
def rank : Level → Nat
  | error => 0
  | warn => 1
  | info => 2
  | debug => 3
  | trace => 4

/-- A level is admitted by a limit that is at least as detailed. -/
def within (level limit : Level) : Bool := level.rank ≤ limit.rank

/-- The name written in a log line. -/
def name : Level → String
  | error => "ERROR"
  | warn => "WARN"
  | info => "INFO"
  | debug => "DEBUG"
  | trace => "TRACE"

end Level

/-- The part of the program that writes a record. -/
inductive Source
  | payload
  | coreboot
  | tolud
  | rsdp
  | fadt
  | mcfg
  | boardInfo
  | graphics
  | tableLocations
  | hob
  | hobList
  | handoff
deriving DecidableEq, Repr

/-- The name a source is written under. -/
def Source.path : Source → String
  | payload => "crab_payload"
  | coreboot => "crab_payload::coreboot::tables"
  | tolud => "crab_payload::memmap::tolud"
  | rsdp => "crab_payload::acpi::rsdp"
  | fadt => "crab_payload::acpi::fadt"
  | mcfg => "crab_payload::acpi::mcfg"
  | boardInfo => "crab_payload::acpi::board_info"
  | graphics => "crab_payload::graphics"
  | tableLocations => "crab_payload::system_tables"
  | hob => "crab_payload::hob"
  | hobList => "crab_payload::hob::list"
  | handoff => "crab_payload::handoff"

/-- One log record. -/
structure Record where
  level : Level
  /-- The name of what wrote the record. -/
  target : String
  message : String
deriving DecidableEq, Repr

namespace Record

/-- The record of a message from a part of the program. -/
def of (source : Source) (level : Level) (message : String) : Record :=
  ⟨level, source.path, message⟩

/-- The written form, such as `WARN target: message`. -/
def line (r : Record) : String := s!"{r.level.name} {r.target}: {r.message}"

end Record

end BootHandoff
