/-
  What starting a serial port does to its device. The port first looks for the device by writes to
  the scratch register (`Probe`), and only a device that answers is programmed. What the writes
  leave in a device is followed by a `Transmitter`: while its divisor latch is open, the registers
  for data and for interrupts are the two halves of the divisor.

  `start_traced`: for every device that answers, the divisor of the rate is set, cut to the 16 bits
  of the latch, the latch is closed again, and from there on what is written to the data register is
  sent.
-/
import BootHandoff.Proofs.Console.Transmission

namespace BootHandoff

variable {σ : Type} {base : UInt16}

open SerialPort

/-! ## The transmitter -/

/-- The part of a serial device that sends: the line control register, the two halves of the
    divisor, and the bytes sent so far. -/
structure Transmitter where
  lineControl : UInt8
  divisorLow : UInt8
  divisorHigh : UInt8
  sent : Bytes

namespace Transmitter

/-- The divisor latch is open while the highest bit of the line control register is set. -/
def latchOpen (t : Transmitter) : Bool := t.lineControl.toNat.testBit 7

/-- The divisor that is set. -/
def divisor (t : Transmitter) : Nat := 256 * t.divisorHigh.toNat + t.divisorLow.toNat

/-- The transmitter after bytes given to it. -/
def send (t : Transmitter) (bytes : Bytes) : Transmitter := { t with sent := t.sent ++ bytes }

/-- What a write to a register does. The first two registers are the divisor while the latch is
    open. -/
def write (t : Transmitter) (register : UInt16) (value : UInt8) : Transmitter :=
  if register = Register.lineControl then { t with lineControl := value }
  else if t.latchOpen then
    if register = Register.divisorLow then { t with divisorLow := value }
    else if register = Register.divisorHigh then { t with divisorHigh := value }
    else t
  else if register = Register.data then t.send [value]
  else t

/-- What an access to a port does to the device at a base port. -/
def step (base : UInt16) (t : Transmitter) : Access → Transmitter
  | .input .. => t
  | .output port value => t.write (port - base) value

/-- The transmitter of the device at a base port after accesses. -/
def after (base : UInt16) (t : Transmitter) (accesses : List Access) : Transmitter :=
  accesses.foldl (step base) t

@[simp] theorem latchOpen_send (t : Transmitter) (bytes : Bytes) :
    (t.send bytes).latchOpen = t.latchOpen := rfl

@[simp] theorem send_nil (t : Transmitter) : t.send [] = t := by
  rw [send, List.append_nil]

theorem send_append (t : Transmitter) (bytes more : Bytes) :
    t.send (bytes ++ more) = (t.send bytes).send more := by
  rw [send, send, send, List.append_assoc]

theorem after_append (base : UInt16) (t : Transmitter) (accesses more : List Access) :
    t.after base (accesses ++ more) = (t.after base accesses).after base more :=
  List.foldl_append ..

theorem after_inputs (base : UInt16) (t : Transmitter) (width : PortWidth) (port : UInt16)
    (values : List UInt32) : t.after base (values.map (.input width port)) = t := by
  induction values with
  | nil => rfl
  | cons value values ih => exact ih

theorem step_output (base : UInt16) (t : Transmitter) (register : UInt16) (value : UInt8) :
    t.step base (.output (base + register) value) = t.write register value := by
  rw [step, UInt16.add_comm, UInt16.add_sub_cancel]

theorem after_outputs (base : UInt16) (t : Transmitter) (writes : List (UInt16 × UInt8)) :
    t.after base (writes.map fun w => .output (base + w.1) w.2) =
      writes.foldl (fun t w => t.write w.1 w.2) t := by
  induction writes generalizing t with
  | nil => rfl
  | cons w writes ih =>
    rw [List.map_cons, List.foldl_cons, ← step_output base, ← ih]
    rfl

theorem latchOpen_of_opened {t : Transmitter} (h : t.lineControl = 0x80) : t.latchOpen = true := by
  rw [latchOpen, h]
  decide

theorem latchOpen_of_closed {t : Transmitter} (h : t.lineControl = 0x03) : t.latchOpen = false := by
  rw [latchOpen, h]
  decide

theorem write_lineControl (t : Transmitter) (value : UInt8) :
    t.write Register.lineControl value = { t with lineControl := value } := if_pos rfl

theorem write_data {t : Transmitter} (h : t.latchOpen = false) (byte : UInt8) :
    t.write Register.data byte = t.send [byte] := by
  rw [write, if_neg (by decide), h]
  rfl

theorem write_divisorLow {t : Transmitter} (h : t.latchOpen = true) (value : UInt8) :
    t.write Register.divisorLow value = { t with divisorLow := value } := by
  rw [write, if_neg (by decide), h]
  rfl

theorem write_divisorHigh {t : Transmitter} (h : t.latchOpen = true) (value : UInt8) :
    t.write Register.divisorHigh value = { t with divisorHigh := value } := by
  rw [write, if_neg (by decide), h]
  rfl

/-- From the third on, only the line control register matters to the transmitter. -/
theorem write_of_two_le (t : Transmitter) {register : UInt16} (h : 2 ≤ register)
    (hcontrol : register ≠ Register.lineControl) (value : UInt8) : t.write register value = t := by
  have hlow : register ≠ Register.divisorLow := by
    rintro rfl
    exact absurd h (by decide)
  have hhigh : register ≠ Register.divisorHigh := by
    rintro rfl
    exact absurd h (by decide)
  have hdata : register ≠ Register.data := hlow
  rw [write, if_neg hcontrol, if_neg hlow, if_neg hhigh, if_neg hdata]
  exact ite_self t

/-- The interrupts can be turned off at any time: at worst that spoils the divisor. -/
theorem exists_write_interruptEnable (t : Transmitter) (value : UInt8) :
    ∃ high, t.write Register.interruptEnable value = { t with divisorHigh := high } := by
  cases h : t.latchOpen with
  | true => exact ⟨value, write_divisorHigh h value⟩
  | false =>
    refine ⟨t.divisorHigh, ?_⟩
    rw [write, if_neg (by decide), h]
    rfl

/-- While the latch is closed, the bytes of attempts that succeed are sent. -/
theorem after_attempts {t : Transmitter} (h : t.latchOpen = false) (attempts : List Attempt) :
    t.after base (attempts.flatMap (Attempt.accesses base)) =
      t.send ((attempts.filter Attempt.sent).map Attempt.byte) := by
  induction attempts generalizing t with
  | nil => exact t.send_nil.symm
  | cons a attempts ih =>
    rw [List.flatMap_cons, after_append, Attempt.accesses, after_append, after_inputs]
    cases hsent : a.sent with
    | false =>
      rw [List.filter_cons_of_neg (by simp [hsent])]
      exact ih h
    | true =>
      have hbyte : t.after base [.output (base + Register.data) a.byte] = t.send [a.byte] :=
        (step_output base t Register.data a.byte).trans (write_data h a.byte)
      have hclosed := (t.latchOpen_send [a.byte]).trans h
      rw [if_pos rfl, hbyte, ih hclosed, List.filter_cons_of_pos hsent, List.map_cons,
        ← send_append]
      rfl

end Transmitter

namespace SerialPort

/-! ## The divisor -/

/-- The divisor that a rate asks for, in full. -/
def fullDivisor (baud : UInt32) : Nat := 115200 / max 1 (min baud.toNat 115200)

theorem toNat_divisor (baud : UInt32) : (divisor baud).toNat = fullDivisor baud := by
  have hmin : (min baud maxBaud).toNat = min baud.toNat 115200 := by
    rw [show min baud maxBaud = if baud ≤ maxBaud then baud else maxBaud from rfl]
    have hle : baud ≤ maxBaud ↔ baud.toNat ≤ 115200 := UInt32.le_iff_toNat_le
    split <;> rename_i h <;> rw [hle] at h
    · omega
    · show 115200 = _
      omega
  have hmax : (max 1 (min baud maxBaud)).toNat = max 1 (min baud maxBaud).toNat := by
    generalize min baud maxBaud = rate
    rw [show max 1 rate = if 1 ≤ rate then rate else 1 from rfl]
    have hle : 1 ≤ rate ↔ 1 ≤ rate.toNat := UInt32.le_iff_toNat_le
    split <;> rename_i h <;> rw [hle] at h
    · omega
    · show 1 = _
      omega
  rw [divisor, UInt32.toNat_div, hmax, hmin]
  rfl

/-- Two bytes of a word are the number of its low half. -/
theorem two_bytes_eq (d : UInt32) :
    256 * (d >>> 8 &&& 0xff).toUInt8.toNat + (d &&& 0xff).toUInt8.toNat = d.toNat % 2 ^ 16 := by
  have hlow (v : UInt32) : (v &&& 0xff).toUInt8.toNat = v.toNat % 256 := by
    rw [UInt32.toNat_toUInt8, UInt32.toNat_and]
    show (v.toNat &&& (2 ^ 8 - 1)) % 256 = _
    rw [Nat.and_two_pow_sub_one_eq_mod, Nat.mod_mod]
  have hshift : (d >>> 8).toNat = d.toNat / 256 := by
    rw [UInt32.toNat_shiftRight]
    exact Nat.shiftRight_eq_div_pow ..
  rw [hlow, hlow, hshift]
  omega

/-- Only the rates 0 and 1 ask for more than 16 bits. -/
theorem fullDivisor_lt_iff (baud : UInt32) : fullDivisor baud < 2 ^ 16 ↔ 2 ≤ baud.toNat := by
  rw [fullDivisor, Nat.div_lt_iff_lt_mul (by omega)]
  omega

/-! ## Looking for the device -/

/-- A value written to the scratch register, and the answer when it is read back. -/
def scratchTest (base : UInt16) (value : UInt8) (answer : UInt32) : List Access :=
  [.output (base + Register.scratch) value, .input .w8 (base + Register.scratch) answer]

/-- The accesses of a search that gets as far as the line status. -/
def wholeSearch (base : UInt16) (first second status : UInt32) : List Access :=
  scratchTest base 0x55 first ++ scratchTest base 0xaa second ++
    [.input .w8 (base + Register.lineStatus) status]

/-- The accesses of a search for the device at a base port, which ends with the first answer that
    is wrong, and whether it finds the device. -/
inductive Probe (base : UInt16) : List Access → Bool → Prop
  | firstLost {first : UInt32} (hfirst : first.toUInt8 ≠ 0x55) :
      Probe base (scratchTest base 0x55 first) false
  | secondLost {first second : UInt32} (hfirst : first.toUInt8 = 0x55)
      (hsecond : second.toUInt8 ≠ 0xaa) :
      Probe base (scratchTest base 0x55 first ++ scratchTest base 0xaa second) false
  | floating {first second status : UInt32} (hfirst : first.toUInt8 = 0x55)
      (hsecond : second.toUInt8 = 0xaa) (hstatus : status.toUInt8 = 0xff) :
      Probe base (wholeSearch base first second status) false
  | found {first second status : UInt32} (hfirst : first.toUInt8 = 0x55)
      (hsecond : second.toUInt8 = 0xaa) (hstatus : status.toUInt8 ≠ 0xff) :
      Probe base (wholeSearch base first second status) true

namespace Probe

variable {probe : List Access} {answered : Bool}

theorem found_iff (h : Probe base probe answered) :
    answered = true ↔ ∃ first second status, probe = wholeSearch base first second status ∧
      first.toUInt8 = 0x55 ∧ second.toUInt8 = 0xaa ∧ status.toUInt8 ≠ 0xff := by
  constructor
  · rintro rfl
    cases h with
    | found hfirst hsecond hstatus => exact ⟨_, _, _, rfl, hfirst, hsecond, hstatus⟩
  · rintro ⟨first, second, status, hprobe, hfirst, hsecond, hstatus⟩
    cases h with
    | firstLost => simp [wholeSearch, scratchTest] at hprobe
    | secondLost => simp [wholeSearch, scratchTest] at hprobe
    | floating _ _ hfloating =>
      simp only [wholeSearch, scratchTest] at hprobe
      cases hprobe
      exact absurd hfloating hstatus
    | found => rfl

/-- Nothing but the scratch register is written. -/
theorem eq_scratch_of_output (h : Probe base probe answered) {port : UInt16} {value : UInt8}
    (hwrite : .output port value ∈ probe) : port = base + Register.scratch := by
  have htest {tested : UInt8} {answer : UInt32}
      (hmem : .output port value ∈ scratchTest base tested answer) :
      port = base + Register.scratch := by
    rcases List.mem_cons.mp hmem with heq | hread
    · cases heq
      rfl
    · cases List.mem_singleton.mp hread
  have hboth {first second : UInt32}
      (hmem : .output port value ∈ scratchTest base 0x55 first ++ scratchTest base 0xaa second) :
      port = base + Register.scratch := (List.mem_append.mp hmem).elim htest htest
  have hwhole {first second status : UInt32}
      (hmem : .output port value ∈ wholeSearch base first second status) :
      port = base + Register.scratch := by
    rcases List.mem_append.mp hmem with htests | hread
    · exact hboth htests
    · cases List.mem_singleton.mp hread
  cases h with
  | firstLost => exact htest hwrite
  | secondLost => exact hboth hwrite
  | floating => exact hwhole hwrite
  | found => exact hwhole hwrite

/-- The transmitter takes no notice of a search. -/
theorem after_eq (h : Probe base probe answered) (t : Transmitter) : t.after base probe = t := by
  have hscratch (value : UInt8) : t.step base (.output (base + Register.scratch) value) = t := by
    rw [Transmitter.step_output]
    exact t.write_of_two_le (by decide) (by decide) value
  have htest (value : UInt8) (answer : UInt32) :
      t.after base (scratchTest base value answer) = t := hscratch value
  cases h with
  | firstLost => exact htest ..
  | secondLost => rw [Transmitter.after_append, htest, htest]
  | floating =>
    rw [wholeSearch, Transmitter.after_append, Transmitter.after_append, htest, htest]
    rfl
  | found =>
    rw [wholeSearch, Transmitter.after_append, Transmitter.after_append, htest, htest]
    rfl

end Probe

theorem keepsScratch_traced (bus : Bus σ) (base : UInt16) (value : UInt8) (s : σ × List Access) :
    ∃ answer, (keepsScratch bus.traced base value s).1 = decide (answer.toUInt8 = value) ∧
      (keepsScratch bus.traced base value s).2.2 = s.2 ++ scratchTest base value answer :=
  ⟨_, rfl, List.append_assoc s.2 [.output (base + Register.scratch) value] [_]⟩

theorem detect_traced (bus : Bus σ) (base : UInt16) (s : σ × List Access) :
    ∃ probe, Probe base probe (detect bus.traced base s).1 ∧
      (detect bus.traced base s).2.2 = s.2 ++ probe := by
  obtain ⟨first, hfirst, htrace⟩ := keepsScratch_traced bus base 0x55 s
  rw [detect]
  rcases h₁ : keepsScratch bus.traced base 0x55 s with ⟨_ | _, s₁⟩
  all_goals rw [h₁] at hfirst htrace
  case false => exact ⟨_, .firstLost (of_decide_eq_false hfirst.symm), htrace⟩
  have hfirst := of_decide_eq_true hfirst.symm
  obtain ⟨second, hsecond, hmore⟩ := keepsScratch_traced bus base 0xaa s₁
  dsimp only
  rcases h₂ : keepsScratch bus.traced base 0xaa s₁ with ⟨_ | _, s₂⟩
  all_goals rw [h₂, htrace, List.append_assoc] at hmore; rw [h₂] at hsecond
  case false => exact ⟨_, .secondLost hfirst (of_decide_eq_false hsecond.symm), hmore⟩
  have hsecond := of_decide_eq_true hsecond.symm
  let status := (bus.input .w8 (base + Register.lineStatus) s₂.1).1
  have hwhole : s₂.2 ++ [.input .w8 (base + Register.lineStatus) status] =
      s.2 ++ wholeSearch base first second status := by
    rw [hmore, List.append_assoc, wholeSearch]
  refine ⟨_, ?_, hwhole⟩
  show Probe base _ (decide (status.toUInt8 ≠ 0xff))
  by_cases hstatus : status.toUInt8 = 0xff
  · rw [decide_eq_false (not_not_intro hstatus)]
    exact .floating hfirst hsecond hstatus
  · rw [decide_eq_true hstatus]
    exact .found hfirst hsecond hstatus

/-! ## Programming the device -/

/-- The accesses that program a device. -/
def programming (base : UInt16) (baud : UInt32) : List Access :=
  (setup baud).map fun w => .output (base + w.1) w.2

theorem program_traced (bus : Bus σ) (base : UInt16) (baud : UInt32) (s : σ × List Access) :
    (program bus.traced base baud s).2 = s.2 ++ programming base baud := by
  rw [program, programming]
  generalize setup baud = writes
  induction writes generalizing s with
  | nil => exact (List.append_nil _).symm
  | cons w writes ih =>
    rw [List.foldl_cons, ih, List.map_cons]
    exact List.append_assoc s.2 [_] _

/-- The divisor is set, and the latch is closed again. -/
theorem after_programming (base : UInt16) (baud : UInt32) (t : Transmitter) :
    t.after base (programming base baud) =
      { t with
        lineControl := 0x03
        divisorLow := (divisor baud &&& 0xff).toUInt8
        divisorHigh := (divisor baud >>> 8 &&& 0xff).toUInt8 } := by
  obtain ⟨high, hfirst⟩ := t.exists_write_interruptEnable 0x00
  rw [programming, Transmitter.after_outputs]
  simp only [setup, List.foldl_cons, List.foldl_nil]
  rw [hfirst, Transmitter.write_lineControl _ 0x80,
    Transmitter.write_divisorLow (Transmitter.latchOpen_of_opened rfl),
    Transmitter.write_divisorHigh (Transmitter.latchOpen_of_opened rfl),
    Transmitter.write_lineControl _ 0x03, Transmitter.write_of_two_le _ (by decide) (by decide),
    Transmitter.write_of_two_le _ (by decide) (by decide)]

/-! ## Starting -/

/-- All accesses of a start: the search, and the programming of a device that is found. -/
theorem traced_of_start {bus : Bus σ} {port started : SerialPort} {baud : UInt32}
    {s s' : σ × List Access} (h : start bus.traced port baud s = some (started, s')) :
    started.base = port.base ∧
      ∃ probe, Probe port.base probe started.functional ∧
        (started.functional = false → s'.2 = s.2 ++ probe) ∧
        (started.functional = true → s'.2 = s.2 ++ (probe ++ programming port.base baud)) := by
  have hle : port.base.toNat + 7 < 2 ^ 16 := Decidable.byContradiction fun hpast => by
    rw [start, dif_neg hpast] at h
    cases h
  obtain ⟨probe, hprobe, hsearch⟩ := detect_traced bus port.base s
  rw [start, dif_pos hle] at h
  rcases hdetect : detect bus.traced port.base s with ⟨_ | _, after⟩
  all_goals rw [hdetect] at hprobe hsearch h; cases h
  case false => exact ⟨rfl, probe, hprobe, fun _ => hsearch, fun hfound => by cases hfound⟩
  case true =>
    refine ⟨rfl, probe, hprobe, fun hlost => (by cases hlost), fun _ => ?_⟩
    rw [program_traced, hsearch, List.append_assoc]

/-- What a start leaves in a device that it finds. -/
theorem after_start {probe : List Access} (h : Probe base probe true) (baud : UInt32)
    (t : Transmitter) :
    let set := t.after base (probe ++ programming base baud)
    set.lineControl = 0x03 ∧ set.latchOpen = false ∧ set.sent = t.sent ∧
      set.divisor = fullDivisor baud % 2 ^ 16 := by
  intro set
  have hset : set = (t.after base (programming base baud)) := by
    rw [show set = _ from Transmitter.after_append .., h.after_eq t]
  rw [after_programming] at hset
  have hcontrol : set.lineControl = 0x03 := by rw [hset]
  refine ⟨hcontrol, Transmitter.latchOpen_of_closed hcontrol, by rw [hset], ?_⟩
  rw [hset, ← toNat_divisor]
  exact two_bytes_eq (divisor baud)

/-- **What starting a port does.** The port at a base port whose registers all have an address is
    functional exactly if the scratch register of its device gives back 0x55 and then 0xaa, as
    written, and the line status is not that of a floating bus. If it is not functional, nothing but
    the scratch register was written, and writing through it makes no access. If it is, whatever the
    device held before, the bytes written while the latch was open make up the low 16 bits of the
    divisor, which is all of it for every rate from 2 on. The latch is closed, with eight data bits
    and no parity, and everything written to the data register from then on is sent. -/
theorem start_traced (port : SerialPort) (hbase : port.base ≤ 0xfff8) (bus : Bus σ)
    (baud : UInt32) (s : σ × List Access) :
    ∃ started s' probe, start bus.traced port baud s = some (started, s') ∧
      Probe port.base probe started.functional ∧
      (started.functional = true ↔ ∃ first second status,
        probe = wholeSearch port.base first second status ∧
        first.toUInt8 = 0x55 ∧ second.toUInt8 = 0xaa ∧ status.toUInt8 ≠ 0xff) ∧
      (started.functional = false →
        s'.2 = s.2 ++ probe ∧
        (∀ target value, .output target value ∈ probe → target = port.base + Register.scratch) ∧
        ∀ calls t, performAll bus.traced started calls t = (started, t)) ∧
      (started.functional = true →
        let added := probe ++ programming port.base baud
        s'.2 = s.2 ++ added ∧
        ∀ t : Transmitter,
          let set := t.after port.base added
          set.lineControl = 0x03 ∧ set.latchOpen = false ∧ set.sent = t.sent ∧
          set.divisor = fullDivisor baud % 2 ^ 16 ∧
          (set.divisor = fullDivisor baud ↔ 2 ≤ baud.toNat) ∧
          ∀ calls, ∃ more, (performAll bus.traced started calls s').2.2 = s'.2 ++ more ∧
            set.after port.base more = set.send (written port.base more)) := by
  obtain ⟨started, s', hstart, -⟩ := exists_start bus.traced hbase baud s
  obtain ⟨hsame, probe, hprobe, hlost, hfound⟩ := traced_of_start hstart
  refine ⟨started, s', probe, hstart, hprobe, hprobe.found_iff, fun hidle => ?_, fun hport => ?_⟩
  · refine ⟨hlost hidle, fun target value => hprobe.eq_scratch_of_output, fun calls t => ?_⟩
    rw [performAll_eq, writeBytes_of_not_functional hidle]
  · intro added
    refine ⟨hfound hport, fun t => ?_⟩
    intro set
    obtain ⟨hcontrol, hclosed, hsent, hdivisor⟩ := after_start (hport ▸ hprobe) baud t
    refine ⟨hcontrol, hclosed, hsent, hdivisor, ?_, fun calls => ?_⟩
    · rw [show set.divisor = _ from hdivisor, ← fullDivisor_lt_iff]
      exact ⟨fun h => h ▸ Nat.mod_lt _ (by decide), Nat.mod_eq_of_lt⟩
    · obtain ⟨attempts, all, -, hmore, -⟩ :=
        writeBytes_traced hport bus (calls.flatMap Call.bytes) s'
      rw [hsame] at hmore
      refine ⟨_, by rw [performAll_eq, hmore], ?_⟩
      rw [Transmitter.after_attempts hclosed, ← Transmission.written_eq port.base]

/-- The highest base port and the lowest rate whose divisor fits the latch. -/
theorem start_traced_lowestRate :
    ∃ started s', start Machine.bus.traced (idle 0xfff8) 2
        ({ uarts := [{ base := 0xfff8 }] }, []) = some (started, s') ∧
      started.functional = true ∧
      (Transmitter.after 0xfff8 ⟨0, 0, 0, []⟩ s'.2).divisor = 57600 ∧
      ∃ more, (performAll Machine.bus.traced started [.text "\n"] s').2.2 = s'.2 ++ more ∧
        (Transmitter.after 0xfff8 ⟨0, 0, 0, []⟩ (s'.2 ++ more)).sent = written 0xfff8 more := by
  obtain ⟨started, s', probe, hstart, -, -, -, hfound⟩ := start_traced (idle 0xfff8) (by decide)
    Machine.bus 2 ({ uarts := [{ base := 0xfff8 }] }, [])
  have hfunctional : started.functional = true := by
    cases hstart
    rfl
  obtain ⟨hadded, hset⟩ := hfound hfunctional
  rw [List.nil_append] at hadded
  obtain ⟨-, -, hnothing, -, hexact, hcalls⟩ := hset ⟨0, 0, 0, []⟩
  obtain ⟨more, hmore, hafter⟩ := hcalls [.text "\n"]
  refine ⟨started, s', hstart, hfunctional, ?_, more, hmore, ?_⟩
  · rw [hadded]
    exact hexact.mpr (by decide)
  · rw [hadded, Transmitter.after_append]
    refine (congrArg Transmitter.sent hafter).trans ?_
    show _ ++ written 0xfff8 more = written 0xfff8 more
    rw [hnothing, List.nil_append]

/-- At a rate of 1 the divisor is 115200, which no two bytes hold: the latch gets its low half. -/
theorem start_traced_cutDivisor :
    ∃ started s', start Machine.bus.traced (idle 0x3f8) 1
        ({ uarts := [{ base := 0x3f8 }] }, []) = some (started, s') ∧
      started.functional = true ∧ fullDivisor 1 = 115200 ∧
      (Transmitter.after 0x3f8 ⟨0, 0, 0, []⟩ s'.2).divisor = 49664 := by
  refine ⟨_, _, rfl, rfl, by decide, ?_⟩
  decide +kernel

end SerialPort

end BootHandoff
