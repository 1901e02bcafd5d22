/-
  What a console sends. A console that was started and found its device is used by operations:
  text is printed, loggers are installed, records are logged. Each operation has at most one text to
  print, and which one depends on the operations before it only through the first logger that they
  install (`Operation.text?`). If the device is always ready, the bytes sent are the greeting and
  then these texts in order, with a carriage return before each line feed (`sent_performAll`).
-/
import BootHandoff.Proofs.Console.Accesses
import BootHandoff.Proofs.Console.Programming

namespace BootHandoff

variable {σ : Type} {base : UInt16}

/-! ## Devices that are always ready -/

/-- A read of the line status that tells that the device is not ready. -/
def Access.tellsBusy (base : UInt16) : Access → Bool
  | .input _ port status =>
    port = base + SerialPort.Register.lineStatus ∧ !SerialPort.isReady status
  | .output .. => false

/-- Whenever the device at a base port was asked, it was ready. -/
def NeverBusy (base : UInt16) (trace : List Access) : Prop :=
  ∀ a ∈ trace, a.tellsBusy base = false

instance (base : UInt16) (trace : List Access) : Decidable (NeverBusy base trace) :=
  inferInstanceAs (Decidable (∀ a ∈ trace, _))

theorem NeverBusy.of_grows {reads : List (PortWidth × UInt16)} {t t' : List Access}
    (h : NeverBusy base t') (hgrows : Grows base reads t t') : NeverBusy base t := by
  obtain ⟨added, rfl, -⟩ := hgrows
  exact fun a ha => h a (List.mem_append_left _ ha)

/-- Between two states of a trace, bytes are sent: accesses are added that do so and do nothing else
    to the device, as long as its divisor latch is closed. -/
def Conveys (base : UInt16) (bytes : Bytes) (t t' : List Access) : Prop :=
  ∃ added, t' = t ++ added ∧ ∀ device : Transmitter, device.latchOpen = false →
    device.after base added = device.send bytes

namespace Conveys

variable {bytes more : Bytes} {t t' t'' : List Access}

theorem refl (base : UInt16) (t : List Access) : Conveys base [] t t :=
  ⟨[], (List.append_nil t).symm, fun device _ => device.send_nil.symm⟩

theorem trans (h : Conveys base bytes t t') (h' : Conveys base more t' t'') :
    Conveys base (bytes ++ more) t t'' := by
  obtain ⟨added, rfl, hadded⟩ := h
  obtain ⟨later, rfl, hlater⟩ := h'
  refine ⟨added ++ later, List.append_assoc .., fun device hclosed => ?_⟩
  have hstill := (device.latchOpen_send bytes).trans hclosed
  rw [Transmitter.after_append, hadded device hclosed, hlater _ hstill, Transmitter.send_append]

end Conveys

namespace SerialPort

variable {port : SerialPort} {bytes : Bytes} {attempts : List Attempt} {all : Bool}

/-- To a device that is always ready every byte is sent. -/
theorem Transmission.all_of_neverBusy (h : Transmission bytes attempts all)
    (hready : NeverBusy base (attempts.flatMap (Attempt.accesses base))) : all = true := by
  rw [h.all_iff]
  intro a ha
  have hpolled := h.polled a ha
  cases hsent : a.sent with
  | true => rfl
  | false =>
    -- An attempt that fails has read the line status, and every time in vain.
    obtain ⟨status, hstatus⟩ := List.exists_mem_of_ne_nil _ (hpolled.ne_nil (by decide))
    have hread : .input .w8 (base + Register.lineStatus) status ∈ a.accesses base :=
      List.mem_append_left _ (List.mem_map_of_mem hstatus)
    have hready := hready _ (List.mem_flatMap.mpr ⟨a, ha, hread⟩)
    have hstatus : isReady status = true := by simpa [Access.tellsBusy] using hready
    exact hsent.symm.trans (hpolled.ready_iff.mpr ⟨status, ‹_›, hstatus⟩)

theorem conveys_writeBytes (h : port.functional = true) (bus : Bus σ) (bytes : Bytes)
    (s : σ × List Access) (hready : NeverBusy port.base (writeBytes bus.traced port bytes s).2.2) :
    (writeBytes bus.traced port bytes s).1 = port ∧
      Conveys port.base bytes s.2 (writeBytes bus.traced port bytes s).2.2 := by
  obtain ⟨attempts, all, htransmission, hadded, hport⟩ := writeBytes_traced h bus bytes s
  rw [hadded] at hready
  have hall := htransmission.all_of_neverBusy fun a ha => hready a (List.mem_append_right _ ha)
  refine ⟨by rw [hport, if_pos hall], _, hadded, fun device hclosed => ?_⟩
  rw [Transmitter.after_attempts hclosed, htransmission.prefix_sent.2.mpr hall]

theorem conveys_writeText (h : port.functional = true) (bus : Bus σ) (text : String)
    (s : σ × List Access) (hready : NeverBusy port.base (writeText bus.traced port text s).2.2) :
    (writeText bus.traced port text s).1 = port ∧
      Conveys port.base (Text.utf8 (Text.returned text)) s.2
        (writeText bus.traced port text s).2.2 := by
  rw [← withReturns_utf8]
  exact conveys_writeBytes h bus _ s hready

end SerialPort

namespace Console

/-! ## Operations -/

/-- A use of the console. -/
inductive Operation
  | print (text : String)
  | printLine (text : String)
  | install (threshold : Threshold)
  | log (r : Record)

/-- Performs an operation. -/
def perform (bus : Bus σ) (s : Console × σ) : Operation → Console × σ
  | .print text => s.1.print bus text s.2
  | .printLine text => s.1.printLine bus text s.2
  | .install threshold => ((s.1.installLogger threshold).2, s.2)
  | .log r => s.1.log bus r s.2

/-- Performs operations in order. -/
def performAll (bus : Bus σ) (s : Console × σ) (ops : List Operation) : Console × σ :=
  ops.foldl (perform bus) s

/-- The threshold that an operation asks for. -/
def Operation.threshold? : Operation → Option Threshold
  | install threshold => some threshold
  | _ => none

/-- The threshold of the first logger that operations install. -/
def installed? (ops : List Operation) : Option Threshold := ops.findSome? Operation.threshold?

/-- The text that an operation prints after others. A record is printed if a logger was installed
    and the first one admits its level. -/
def Operation.text? (before : List Operation) : Operation → Option String
  | print text => some text
  | printLine text => some (text ++ "\n")
  | install _ => none
  | log r =>
    if (installed? before).any (·.admits r.level) then
      some ("[" ++ r.level.tag ++ "] " ++ r.target ++ ": " ++ r.message ++ "\n")
    else none

/-- The texts that operations print after others, in order. -/
def transcript (before : List Operation) : List Operation → List String
  | [] => []
  | op :: ops => (op.text? before).toList ++ transcript (before ++ [op]) ops

/-- A text as it is sent. -/
def sentForm (text : String) : Bytes := Text.utf8 (Text.returned text)

theorem installed?_append (before : List Operation) (op : Operation) :
    installed? (before ++ [op]) = (installed? before).or op.threshold? := by
  rw [installed?, List.findSome?_append]
  cases op <;> rfl

/-! ## The logger -/

theorem logger_print (bus : Bus σ) (c : Console) (text : String) (s : σ) :
    (c.print bus text s).1.logger = c.logger := by
  rw [print]
  split
  · rfl
  · rfl

theorem logger_perform (bus : Bus σ) (s : Console × σ) (op : Operation) :
    (perform bus s op).1.logger = s.1.logger.or op.threshold? := by
  cases op with
  | print text => exact (logger_print ..).trans Option.or_none.symm
  | printLine text => exact (logger_print ..).trans Option.or_none.symm
  | install threshold =>
    rw [perform, installLogger]
    cases h : s.1.logger with
    | none => rfl
    | some first => exact h
  | log r =>
    rw [perform, log]
    split
    · exact (logger_print ..).trans Option.or_none.symm
    · exact Option.or_none.symm

/-- The first logger stays. -/
theorem logger_performAll (bus : Bus σ) (s : Console × σ) (ops : List Operation) :
    (performAll bus s ops).1.logger = s.1.logger.or (installed? ops) := by
  induction ops generalizing s with
  | nil => exact Option.or_none.symm
  | cons op ops ih =>
    have hcons : installed? (op :: ops) = op.threshold?.or (installed? ops) := by
      cases op <;> rfl
    rw [hcons, ← Option.or_assoc, ← logger_perform bus]
    exact ih (perform bus s op)

/-! ## Sessions -/

/-- The console has a port that is functional, at a base port. -/
def Connected (base : UInt16) (c : Console) : Prop :=
  ∃ port, c.port = some port ∧ port.functional = true ∧ port.base = base

theorem Connected.on {c : Console} (h : Connected base c) : c.On base := by
  obtain ⟨port, hport, -, hbase⟩ := h
  intro other hother
  rw [← Option.some.inj (hport.symm.trans hother), hbase]

theorem uses_perform {s : Console × (σ × List Access)} (h : s.1.On base) (bus : Bus σ)
    (op : Operation) : Uses base [] s (perform bus.traced s op) := by
  cases op with
  | print text => exact uses_print h bus text
  | printLine text => exact uses_print h bus (text ++ "\n")
  | install threshold =>
    refine ⟨?_, .refl base s.2.2⟩
    rw [perform, installLogger]
    split <;> exact h
  | log r => exact uses_log h bus r

theorem uses_performAll {s : Console × (σ × List Access)} (h : s.1.On base) (bus : Bus σ)
    (ops : List Operation) : Uses base [] s (performAll bus.traced s ops) := by
  induction ops generalizing s with
  | nil => exact .refl h
  | cons op ops ih =>
    have hop := uses_perform h bus op
    exact hop.trans (ih hop.on)

theorem conveys_print {s : Console × (σ × List Access)} (h : Connected base s.1) (bus : Bus σ)
    (text : String) (hready : NeverBusy base (s.1.print bus.traced text s.2).2.2) :
    Connected base (s.1.print bus.traced text s.2).1 ∧
      Conveys base (sentForm text) s.2.2 (s.1.print bus.traced text s.2).2.2 := by
  obtain ⟨port, hport, hfunctional, rfl⟩ := h
  rw [print_of_port hport] at hready ⊢
  obtain ⟨hsame, hconveys⟩ := SerialPort.conveys_writeText hfunctional bus text s.2 hready
  exact ⟨⟨port, congrArg some hsame, hfunctional, rfl⟩, hconveys⟩

section

variable {before : List Operation} {s : Console × σ} {op : Operation}

theorem admits_eq (h : s.1.logger = installed? before) (level : Level) :
    s.1.admits level = (installed? before).any (·.admits level) := by
  rw [admits, h]
  cases installed? before with
  | none => rfl
  | some threshold => rfl

/-- An operation with a text prints it. -/
theorem perform_of_text (h : s.1.logger = installed? before) {text : String}
    (hop : op.text? before = some text) (bus : Bus σ) :
    perform bus s op = s.1.print bus text s.2 := by
  cases op with
  | print printed =>
    cases hop
    rfl
  | printLine printed =>
    cases hop
    rfl
  | install threshold => cases hop
  | log r =>
    rw [Operation.text?, ← admits_eq h] at hop
    split at hop
    · rename_i hadmitted
      cases hop
      rw [perform, log, if_pos hadmitted]
      rfl
    · cases hop

/-- An operation without one makes no access. -/
theorem perform_of_silent (h : s.1.logger = installed? before) (hop : op.text? before = none)
    (bus : Bus σ) : (perform bus s op).1.port = s.1.port ∧ (perform bus s op).2 = s.2 := by
  cases op with
  | print printed => cases hop
  | printLine printed => cases hop
  | install threshold =>
    refine ⟨?_, rfl⟩
    rw [perform, installLogger]
    split <;> rfl
  | log r =>
    rw [Operation.text?, ← admits_eq h] at hop
    split at hop
    · cases hop
    · rename_i hrefused
      rw [perform, log, if_neg hrefused]
      exact ⟨rfl, rfl⟩

end

/-- One operation sends its text. -/
theorem conveys_perform {bus : Bus σ} {before : List Operation} {s : Console × (σ × List Access)}
    (h : Connected base s.1) (hlogger : s.1.logger = installed? before) (op : Operation)
    (hready : NeverBusy base (perform bus.traced s op).2.2) :
    Connected base (perform bus.traced s op).1 ∧
      Conveys base ((op.text? before).toList.flatMap sentForm) s.2.2
        (perform bus.traced s op).2.2 := by
  cases hop : op.text? before with
  | none =>
    obtain ⟨hport, hsame⟩ := perform_of_silent hlogger hop bus.traced
    rw [hsame, Connected, hport]
    exact ⟨h, .refl base s.2.2⟩
  | some text =>
    rw [perform_of_text hlogger hop] at hready ⊢
    have hbytes : (some text).toList.flatMap sentForm = sentForm text := List.flatMap_singleton ..
    rw [hbytes]
    exact conveys_print h bus text hready

/-- A session sends its texts in order. -/
theorem conveys_performAll {bus : Bus σ} {before : List Operation}
    {s : Console × (σ × List Access)} (h : Connected base s.1)
    (hlogger : s.1.logger = installed? before) (ops : List Operation)
    (hready : NeverBusy base (performAll bus.traced s ops).2.2) :
    Conveys base ((transcript before ops).flatMap sentForm) s.2.2
      (performAll bus.traced s ops).2.2 := by
  induction ops generalizing before s with
  | nil => exact .refl base s.2.2
  | cons op ops ih =>
    have hrest := (uses_performAll (uses_perform h.on bus op).on bus ops).grows
    obtain ⟨hconnected, hop⟩ := conveys_perform h hlogger op (hready.of_grows hrest)
    have hinstalled : (perform bus.traced s op).1.logger = installed? (before ++ [op]) := by
      rw [logger_perform, hlogger, installed?_append]
    rw [transcript, List.flatMap_append]
    exact hop.trans (ih hconnected hinstalled hready)

/-- A console whose device was found has its port there, has no logger yet, and has sent the
    greeting. -/
theorem conveys_start {bus : Bus σ} {baud : UInt32} {s s' : σ × List Access} {c : Console}
    (h : start bus.traced {} base baud s = some (true, c, s'))
    (hready : NeverBusy base s'.2) :
    Connected base c ∧ c.logger = none ∧
      ∃ added, s'.2 = s.2 ++ added ∧ ∀ device : Transmitter,
        (device.after base added).latchOpen = false ∧
          (device.after base added).sent = device.sent ++ sentForm banner := by
  obtain ⟨port, after, hstart, ⟨-, hfunctional, rfl, rfl⟩ | ⟨hlost, -⟩⟩ := start_cases h
  case inr => cases hlost
  obtain ⟨hsame, probe, hprobe, -, hfound⟩ := SerialPort.traced_of_start hstart
  have hbase : port.base = base := hsame
  obtain ⟨hport, added, hadded, hbanner⟩ :=
    SerialPort.conveys_writeText hfunctional bus banner after (hbase ▸ hready)
  refine ⟨⟨port, congrArg some hport, hfunctional, hbase⟩, rfl,
    probe ++ SerialPort.programming base baud ++ added, ?_, fun device => ?_⟩
  · rw [hadded, hfound hfunctional, List.append_assoc]
    rfl
  · obtain ⟨-, hclosed, hsent, -⟩ := SerialPort.after_start (hfunctional ▸ hprobe) baud device
    have hbanner := hbanner _ hclosed
    rw [hbase] at hbanner
    have hwhole : device.after base (probe ++ SerialPort.programming base baud ++ added) = _ :=
      (Transmitter.after_append ..).trans hbanner
    rw [hwhole]
    exact ⟨hclosed, congrArg (· ++ sentForm banner) hsent⟩

/-- A session in which a record comes before any logger, and one is below the level of the first. -/
def mixedSession : List Operation :=
  [.log ⟨.error, "boot", "too early"⟩, .print "one\ntwo", .install (.upTo .warn),
    .log ⟨.warn, "acpi", "no\ntables"⟩, .install (.upTo .trace), .log ⟨.info, "boot", "too low"⟩,
    .printLine ""]

end Console

end BootHandoff
