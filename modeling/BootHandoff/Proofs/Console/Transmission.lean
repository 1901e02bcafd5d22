/-
  What a serial port does for the bytes it is given, whatever device answers. For each byte there is
  one `Attempt`: reads of the line status up to the first that tells that the device is ready, at
  most `maxPolls` of them, and then a write of the byte. The first attempt that fails is the last
  (`Transmission`), and after it the port makes no access at all.

  `written_performAll`: what arrives at the data register is a prefix of what the calls say, a byte
  is sent exactly if the device gets ready for it in time, and of a device that is busy for a while
  after each byte it is known how long that may be (`Drains`).
-/
import BootHandoff.Console.Machine
import BootHandoff.Console.SerialPort
import BootHandoff.Text.Utf8

namespace BootHandoff

/-! ## Texts -/

namespace Text

/-- The text with a carriage return before each line feed. -/
def returned (text : String) : String :=
  String.ofList (text.toList.flatMap fun c => if c = '\n' then ['\r', '\n'] else [c])

theorem lineFeed_ne_ofNat {n : Nat} (hlt : n < 256) (h : n ≠ 10) :
    (0x0a : UInt8) ≠ UInt8.ofNat n := by
  intro heq
  have hnat := congrArg UInt8.toNat heq
  rw [UInt8.toNat_ofNat_of_lt' hlt] at hnat
  exact h hnat.symm

/-- Of the characters only the line feed has its byte in it. -/
theorem lineFeed_notMem {c : Char} (h : c ≠ '\n') : 0x0a ∉ String.utf8EncodeChar c := by
  have hcode : c.val.toNat ≠ 10 := fun heq => h (Char.ext (UInt32.toNat_inj.mp heq))
  -- Every byte of a longer sequence has its highest bit set.
  have hhigh (n : Nat) (hlow : 128 ≤ n) (hlt : n < 256) : (0x0a : UInt8) ≠ UInt8.ofNat n :=
    lineFeed_ne_ofNat hlt (by omega)
  intro hmem
  simp only [String.utf8EncodeChar] at hmem
  split at hmem
  · rw [List.mem_singleton] at hmem
    exact lineFeed_ne_ofNat (by omega) hcode hmem
  · split at hmem
    · simp only [List.mem_cons, List.not_mem_nil, or_false] at hmem
      rcases hmem with hmem | hmem
      all_goals exact hhigh _ (by omega) (by omega) hmem
    · split at hmem
      · simp only [List.mem_cons, List.not_mem_nil, or_false] at hmem
        rcases hmem with hmem | hmem | hmem
        all_goals exact hhigh _ (by omega) (by omega) hmem
      · simp only [List.mem_cons, List.not_mem_nil, or_false] at hmem
        rcases hmem with hmem | hmem | hmem | hmem
        all_goals exact hhigh _ (by omega) (by omega) hmem

end Text

namespace SerialPort

variable {σ : Type}

theorem withReturns_of_notMem {bytes : Bytes} (h : 0x0a ∉ bytes) : withReturns bytes = bytes := by
  induction bytes with
  | nil => rfl
  | cons b bytes ih =>
    have hb : b ≠ 0x0a := fun heq => h (heq ▸ List.mem_cons_self ..)
    have hbytes : 0x0a ∉ bytes := fun hmem => h (List.mem_cons_of_mem b hmem)
    rw [withReturns, List.flatMap_cons, if_neg hb]
    exact congrArg (b :: ·) (ih hbytes)

/-- Returns are put in byte by byte as they are character by character. -/
theorem withReturns_utf8 (text : String) :
    withReturns (Text.utf8 text) = Text.utf8 (Text.returned text) := by
  rw [Text.utf8_eq, Text.utf8_eq, Text.returned, String.toList_ofList]
  induction text.toList with
  | nil => rfl
  | cons c chars ih =>
    rw [List.flatMap_cons, List.flatMap_cons, List.flatMap_append, ← ih, withReturns,
      List.flatMap_append]
    congr 1
    by_cases hc : c = '\n'
    · subst hc
      decide
    · rw [if_neg hc, List.flatMap_singleton]
      exact withReturns_of_notMem (Text.lineFeed_notMem hc)

/-! ## One byte -/

/-- The line status tells that the next byte can be written. -/
def isReady (status : UInt32) : Bool := status.toNat.testBit 5

theorem and_readyBit_eq_zero_iff (status : UInt32) :
    status.toUInt8 &&& readyBit = 0 ↔ isReady status = false := by
  have hlow : status.toUInt8.toNat.testBit 5 = isReady status := by
    rw [isReady, UInt32.toNat_toUInt8, Nat.testBit_mod_two_pow]
    simp
  rw [← UInt8.toNat_inj, UInt8.toNat_and, show readyBit.toNat = 2 ^ 5 from rfl, ← hlow]
  constructor
  · intro hzero
    have hbit : (status.toUInt8.toNat &&& 2 ^ 5).testBit 5 = Nat.testBit 0 5 :=
      congrArg (Nat.testBit · 5) hzero
    rwa [Nat.testBit_and, Nat.testBit_two_pow_self, Bool.and_true, Nat.zero_testBit] at hbit
  · intro hbit
    refine Nat.eq_of_testBit_eq fun i => ?_
    rw [Nat.testBit_and, Nat.testBit_two_pow]
    show _ = Nat.testBit 0 i
    rw [Nat.zero_testBit]
    by_cases hi : 5 = i
    · rw [← hi, hbit, Bool.false_and]
    · rw [decide_eq_false hi, Bool.and_false]

/-- What is done for one byte: the values that the line status gave, and whether the byte was
    written then. -/
structure Attempt where
  byte : UInt8
  statuses : List UInt32
  sent : Bool

/-- The accesses of an attempt at the device of a base port. -/
def Attempt.accesses (base : UInt16) (a : Attempt) : List Access :=
  a.statuses.map (.input .w8 (base + Register.lineStatus)) ++
    if a.sent then [.output (base + Register.data) a.byte] else []

/-- The line status is read until it tells that the device is ready, at most `polls` times. -/
structure Polled (polls : Nat) (statuses : List UInt32) (ready : Bool) : Prop where
  length_le : statuses.length ≤ polls
  ready_iff : ready = true ↔ ∃ status ∈ statuses, isReady status = true
  length_of_not_ready : ready = false → statuses.length = polls
  early : ∀ status ∈ statuses.dropLast, isReady status = false

theorem Polled.none : Polled 0 [] false :=
  ⟨Nat.le_refl _, by simp, fun _ => rfl, by simp⟩

theorem Polled.now {status : UInt32} (h : isReady status = true) (polls : Nat) :
    Polled (polls + 1) [status] true :=
  ⟨Nat.le_add_left .., by simpa using h, by simp, by simp⟩

theorem Polled.later {status : UInt32} (h : isReady status = false) {polls : Nat}
    {statuses : List UInt32} {ready : Bool} (hrest : Polled polls statuses ready) :
    Polled (polls + 1) (status :: statuses) ready where
  length_le := Nat.succ_le_succ hrest.length_le
  ready_iff := by
    rw [hrest.ready_iff]
    simp [h]
  length_of_not_ready hnot := congrArg Nat.succ (hrest.length_of_not_ready hnot)
  early := by
    cases statuses with
    | nil => simp
    | cons next rest =>
      intro value hvalue
      rcases List.mem_cons.mp hvalue with rfl | hvalue
      · exact h
      · exact hrest.early value hvalue

/-- The line status is read at least once. -/
theorem Polled.ne_nil {polls : Nat} {statuses : List UInt32} {ready : Bool}
    (h : Polled polls statuses ready) (hpolls : 0 < polls) : statuses ≠ [] := by
  rintro rfl
  cases ready with
  | true =>
    obtain ⟨status, hstatus, -⟩ := h.ready_iff.mp rfl
    cases hstatus
  | false => exact absurd (h.length_of_not_ready rfl) (Nat.ne_of_lt hpolls)

section

variable {bus : Bus σ} {base : UInt16} {s : σ}

theorem awaitReady_of_ready
    (h : isReady (bus.input .w8 (base + Register.lineStatus) s).1 = true) (polls : Nat) :
    awaitReady bus base (polls + 1) s =
      (true, (bus.input .w8 (base + Register.lineStatus) s).2) := by
  refine if_neg fun hzero => ?_
  rw [(and_readyBit_eq_zero_iff _).mp hzero] at h
  cases h

theorem awaitReady_of_busy
    (h : isReady (bus.input .w8 (base + Register.lineStatus) s).1 = false) (polls : Nat) :
    awaitReady bus base (polls + 1) s =
      awaitReady bus base polls (bus.input .w8 (base + Register.lineStatus) s).2 :=
  if_pos ((and_readyBit_eq_zero_iff _).mpr h)

end

theorem awaitReady_traced (bus : Bus σ) (base : UInt16) (polls : Nat) (s : σ × List Access) :
    ∃ statuses,
      (awaitReady bus.traced base polls s).2.2 =
        s.2 ++ statuses.map (.input .w8 (base + Register.lineStatus)) ∧
      Polled polls statuses (awaitReady bus.traced base polls s).1 := by
  induction polls generalizing s with
  | zero => exact ⟨[], (List.append_nil _).symm, .none⟩
  | succ polls ih =>
    let answer := bus.traced.input .w8 (base + Register.lineStatus) s
    have htrace : answer.2.2 = s.2 ++ [.input .w8 (base + Register.lineStatus) answer.1] := rfl
    cases hready : isReady answer.1 with
    | true =>
      rw [awaitReady_of_ready hready]
      exact ⟨[answer.1], htrace, .now hready polls⟩
    | false =>
      obtain ⟨statuses, haccesses, hpolled⟩ := ih answer.2
      rw [awaitReady_of_busy hready]
      refine ⟨answer.1 :: statuses, ?_, hpolled.later hready⟩
      rw [haccesses, htrace, List.append_assoc]
      rfl

variable {port : SerialPort}

theorem writeByte_of_not_functional (h : port.functional = false) (bus : Bus σ) (byte : UInt8)
    (s : σ) : writeByte bus port byte s = (port, s) := by
  rw [writeByte, h]
  rfl

/-- A functional port makes one attempt at a byte, and if it fails is not functional any more. -/
theorem writeByte_traced (h : port.functional = true) (bus : Bus σ) (byte : UInt8)
    (s : σ × List Access) :
    ∃ a : Attempt, a.byte = byte ∧ Polled maxPolls a.statuses a.sent ∧
      (writeByte bus.traced port byte s).2.2 = s.2 ++ a.accesses port.base ∧
      (writeByte bus.traced port byte s).1 = if a.sent then port else idle port.base := by
  obtain ⟨statuses, haccesses, hpolled⟩ := awaitReady_traced bus port.base maxPolls s
  rw [writeByte, if_pos h]
  rcases hawait : awaitReady bus.traced port.base maxPolls s with ⟨_ | _, after⟩
  all_goals rw [hawait] at haccesses hpolled
  case false =>
    refine ⟨⟨byte, statuses, false⟩, rfl, hpolled, ?_, rfl⟩
    exact haccesses.trans (congrArg (s.2 ++ ·) (List.append_nil _).symm)
  case true =>
    refine ⟨⟨byte, statuses, true⟩, rfl, hpolled, ?_, rfl⟩
    exact (congrArg (· ++ _) haccesses).trans (List.append_assoc ..)

/-! ## Many bytes -/

/-- The attempts made for bytes, up to the first that fails, and whether none did. -/
inductive Transmission : Bytes → List Attempt → Bool → Prop
  | done : Transmission [] [] true
  | sent {a : Attempt} {bytes : Bytes} {attempts : List Attempt} {all : Bool}
      (polled : Polled maxPolls a.statuses a.sent) (sent : a.sent = true)
      (rest : Transmission bytes attempts all) :
      Transmission (a.byte :: bytes) (a :: attempts) all
  | dropped {a : Attempt} (polled : Polled maxPolls a.statuses a.sent) (dropped : a.sent = false)
      (bytes : Bytes) : Transmission (a.byte :: bytes) [a] false

theorem writeBytes_cons (bus : Bus σ) (port : SerialPort) (byte : UInt8) (bytes : Bytes) (s : σ) :
    writeBytes bus port (byte :: bytes) s =
      writeBytes bus (writeByte bus port byte s).1 bytes (writeByte bus port byte s).2 := rfl

theorem writeBytes_append (bus : Bus σ) (port : SerialPort) (bytes more : Bytes) (s : σ) :
    writeBytes bus port (bytes ++ more) s =
      writeBytes bus (writeBytes bus port bytes s).1 more (writeBytes bus port bytes s).2 :=
  List.foldl_append ..

theorem writeBytes_of_not_functional (h : port.functional = false) (bus : Bus σ) (bytes : Bytes)
    (s : σ) : writeBytes bus port bytes s = (port, s) := by
  induction bytes with
  | nil => rfl
  | cons byte bytes ih => rw [writeBytes_cons, writeByte_of_not_functional h, ih]

/-- All the accesses that writing makes. -/
theorem writeBytes_traced (h : port.functional = true) (bus : Bus σ) (bytes : Bytes)
    (s : σ × List Access) :
    ∃ attempts all, Transmission bytes attempts all ∧
      (writeBytes bus.traced port bytes s).2.2 =
        s.2 ++ attempts.flatMap (Attempt.accesses port.base) ∧
      (writeBytes bus.traced port bytes s).1 = if all then port else idle port.base := by
  induction bytes generalizing s with
  | nil => exact ⟨[], true, .done, (List.append_nil _).symm, rfl⟩
  | cons byte bytes ih =>
    obtain ⟨a, rfl, hpolled, haccesses, hport⟩ := writeByte_traced h bus byte s
    rw [writeBytes_cons]
    cases hsent : a.sent with
    | true =>
      rw [hsent, if_pos rfl] at hport
      obtain ⟨attempts, all, hrest, hadded, hlast⟩ := ih (writeByte bus.traced port a.byte s).2
      rw [hport]
      refine ⟨a :: attempts, all, .sent hpolled hsent hrest, ?_, hlast⟩
      rw [hadded, haccesses, List.append_assoc, List.flatMap_cons]
    | false =>
      rw [hsent, if_neg Bool.false_ne_true] at hport
      rw [hport, writeBytes_of_not_functional rfl]
      refine ⟨[a], false, .dropped hpolled hsent bytes, ?_, rfl⟩
      rw [haccesses, List.flatMap_singleton]

/-- The byte that an access writes to a port. -/
def writtenBy (target : UInt16) : Access → Option UInt8
  | .input .. => none
  | .output port value => if port = target then some value else none

/-- The bytes that accesses write to a port, in order. -/
def written (target : UInt16) (accesses : List Access) : Bytes :=
  accesses.filterMap (writtenBy target)

theorem written_accesses (base : UInt16) (a : Attempt) :
    written base (a.accesses base) = if a.sent then [a.byte] else [] := by
  have hreads : (a.statuses.map (Access.input .w8 (base + Register.lineStatus))).filterMap
      (writtenBy base) = [] := by
    rw [List.filterMap_map, List.filterMap_eq_nil_iff]
    exact fun _ _ => rfl
  have hdata : writtenBy base (.output (base + Register.data) a.byte) = some a.byte :=
    if_pos (UInt16.add_zero base)
  rw [written, Attempt.accesses, List.filterMap_append, hreads, List.nil_append]
  cases a.sent with
  | true => exact List.filterMap_cons_some hdata
  | false => rfl

namespace Transmission

variable {bytes : Bytes} {attempts : List Attempt} {all : Bool}

/-- The bytes that arrive, in order. -/
theorem written_eq (base : UInt16) (attempts : List Attempt) :
    written base (attempts.flatMap (Attempt.accesses base)) =
      (attempts.filter Attempt.sent).map Attempt.byte := by
  induction attempts with
  | nil => rfl
  | cons a attempts ih =>
    rw [List.flatMap_cons, written, List.filterMap_append]
    show written base _ ++ written base _ = _
    rw [written_accesses, ih]
    cases hsent : a.sent <;> simp [hsent]

theorem prefix_attempted (h : Transmission bytes attempts all) :
    attempts.map Attempt.byte <+: bytes := by
  induction h with
  | done => exact List.prefix_rfl
  | sent polled hsent rest ih => exact List.cons_prefix_cons.mpr ⟨rfl, ih⟩
  | dropped polled hdropped bytes => exact List.cons_prefix_cons.mpr ⟨rfl, List.nil_prefix⟩

theorem polled (h : Transmission bytes attempts all) :
    ∀ a ∈ attempts, Polled maxPolls a.statuses a.sent := by
  induction h with
  | done => simp
  | sent polled hsent rest ih => exact List.forall_mem_cons.mpr ⟨polled, ih⟩
  | dropped polled hdropped bytes => simpa using polled

/-- Only the last attempt can fail. -/
theorem sent_of_mem_dropLast (h : Transmission bytes attempts all) :
    ∀ a ∈ attempts.dropLast, a.sent = true := by
  induction h with
  | done => simp
  | dropped polled hdropped bytes => simp
  | @sent a bytes attempts all polled hsent rest ih =>
    cases attempts with
    | nil => simp
    | cons next attempts => exact List.forall_mem_cons.mpr ⟨hsent, ih⟩

theorem all_iff (h : Transmission bytes attempts all) :
    all = true ↔ ∀ a ∈ attempts, a.sent = true := by
  induction h with
  | done => simp
  | sent polled hsent rest ih => rw [ih, List.forall_mem_cons, and_iff_right hsent]
  | dropped polled hdropped bytes => simp [hdropped]

/-- The bytes that are sent are the first ones, and all of them if no attempt failed. -/
theorem prefix_sent (h : Transmission bytes attempts all) :
    (attempts.filter Attempt.sent).map Attempt.byte <+: bytes ∧
      ((attempts.filter Attempt.sent).map Attempt.byte = bytes ↔ all = true) := by
  induction h with
  | done => exact ⟨List.prefix_rfl, by simp⟩
  | sent polled hsent rest ih =>
    rw [List.filter_cons_of_pos hsent, List.map_cons, List.cons_prefix_cons, List.cons_inj_right]
    exact ⟨⟨rfl, ih.1⟩, ih.2⟩
  | dropped polled hdropped bytes => simp [hdropped]

end Transmission

/-! ## Devices that are busy for a while -/

/-- A device at a base port that is busy for `busy` reads of its line status after each byte.
    `waits n s` says that in the state `s` it is busy for `n` more. -/
structure Drains (bus : Bus σ) (base : UInt16) (busy : Nat) (waits : Nat → σ → Prop) : Prop where
  ready : ∀ s, waits 0 s →
    isReady (bus.input .w8 (base + Register.lineStatus) s).1 = true ∧
      waits 0 (bus.input .w8 (base + Register.lineStatus) s).2
  held : ∀ n s, waits (n + 1) s →
    isReady (bus.input .w8 (base + Register.lineStatus) s).1 = false ∧
      waits n (bus.input .w8 (base + Register.lineStatus) s).2
  take : ∀ byte s, waits 0 s → waits busy (bus.output (base + Register.data) byte s)

namespace Drains

variable {bus : Bus σ} {base : UInt16} {busy : Nat} {waits : Nat → σ → Prop}

/-- A device does not see that it is traced. -/
theorem traced (h : Drains bus base busy waits) :
    Drains bus.traced base busy fun n s => waits n s.1 where
  ready s := h.ready s.1
  held n s := h.held n s.1
  take byte s := h.take byte s.1

/-- The device gets ready if it is busy for less than the number of reads. -/
theorem awaitReady (h : Drains bus base busy waits) (polls : Nat) {n : Nat} {s : σ}
    (hs : waits n s) :
    ((awaitReady bus base polls s).1 = true ↔ n < polls) ∧
      (n < polls → waits 0 (awaitReady bus base polls s).2) := by
  induction polls generalizing n s with
  | zero => exact ⟨by simp [SerialPort.awaitReady], fun hlt => absurd hlt (Nat.not_lt_zero n)⟩
  | succ polls ih =>
    cases n with
    | zero =>
      obtain ⟨hready, hafter⟩ := h.ready s hs
      rw [awaitReady_of_ready hready]
      exact ⟨by simp, fun _ => hafter⟩
    | succ n =>
      obtain ⟨hready, hafter⟩ := h.held n s hs
      rw [awaitReady_of_busy hready, Nat.add_lt_add_iff_right]
      exact ih hafter

/-- A byte gets through if the device is busy for less than `maxPolls` reads. -/
theorem writeByte (h : Drains bus port.base busy waits) (hport : port.functional = true) {n : Nat}
    {s : σ} (hs : waits n s) (byte : UInt8) :
    ((writeByte bus port byte s).1.functional = true ↔ n < maxPolls) ∧
      (n < maxPolls → (writeByte bus port byte s).1 = port ∧
        waits busy (writeByte bus port byte s).2) := by
  obtain ⟨hready, hafter⟩ := h.awaitReady maxPolls hs
  rw [SerialPort.writeByte, if_pos hport]
  rcases hawait : SerialPort.awaitReady bus port.base maxPolls s with ⟨_ | _, after⟩
  all_goals rw [hawait] at hready hafter
  case false =>
    have hlate : ¬ n < maxPolls := fun hlt => Bool.false_ne_true (hready.mpr hlt)
    exact ⟨⟨fun hidle => absurd hidle Bool.false_ne_true, fun hlt => absurd hlt hlate⟩,
      fun hlt => absurd hlt hlate⟩
  case true =>
    exact ⟨⟨fun _ => hready.mp rfl, fun _ => hport⟩,
      fun hlt => ⟨rfl, h.take byte after (hafter hlt)⟩⟩

/-- All bytes get through if the device is ready in time for the first, and after it for the next. -/
theorem writeBytes (h : Drains bus port.base busy waits) (hport : port.functional = true)
    (bytes : Bytes) {n : Nat} {s : σ} (hs : waits n s) :
    (writeBytes bus port bytes s).1.functional = true ↔
      bytes = [] ∨ n < maxPolls ∧ (bytes.length ≤ 1 ∨ busy < maxPolls) := by
  induction bytes generalizing n s with
  | nil => exact ⟨fun _ => .inl rfl, fun _ => hport⟩
  | cons byte bytes ih =>
    obtain ⟨hfunctional, hafter⟩ := h.writeByte hport hs byte
    rw [writeBytes_cons]
    rcases Nat.lt_or_ge n maxPolls with hlt | hge
    · obtain ⟨hsame, hbusy⟩ := hafter hlt
      rw [hsame, ih hbusy]
      cases bytes with
      | nil => simp [hlt]
      | cons next bytes => simpa [hlt] using Or.inr
    · have hidle : (SerialPort.writeByte bus port byte s).1.functional = false := by
        rw [← Bool.not_eq_true, hfunctional]
        exact Nat.not_lt.mpr hge
      rw [writeBytes_of_not_functional hidle, hidle]
      simp [Nat.not_lt.mpr hge]

end Drains

end SerialPort

namespace Machine

/-- A machine whose only device is set up and is busy for `n` more reads of its line status. -/
structure Busy (base : UInt16) (busy n : Nat) (m : Machine) (u : Uart) : Prop where
  uarts_eq : m.uarts = [u]
  base_eq : u.base = base
  isSetUp : u.isSetUp = true
  stallAfter_eq : u.stallAfter = none
  lineStatus_eq : u.lineStatus = 0x60
  busy_eq : u.busy = busy
  wait_eq : u.wait = n

namespace Busy

variable {base : UInt16} {busy n : Nat} {m : Machine} {u : Uart}

theorem locate?_eq (h : Busy base busy n m u) (register : UInt16) (hr : register.toNat < 8) :
    m.locate? (base + register) = some (0, u, register.toNat) := by
  have hregister : u.register? (base + register) = some register.toNat := by
    rw [Uart.register?, h.base_eq, UInt16.add_comm, UInt16.add_sub_cancel]
    exact if_pos hr
  simp [locate?, h.uarts_eq, hregister]

theorem input_eq (h : Busy base busy n m u) :
    Machine.bus.input .w8 (base + SerialPort.Register.lineStatus) m =
      (u.poll.1.toUInt32, { m with uarts := [u.poll.2], polls := m.polls + 1 }) := by
  have hlocate := h.locate?_eq SerialPort.Register.lineStatus (by decide)
  have hstatus : SerialPort.Register.lineStatus.toNat = 5 := rfl
  simp [bus, input, hlocate, hstatus, h.isSetUp, h.uarts_eq]

theorem output_eq (h : Busy base busy n m u) (byte : UInt8) :
    Machine.bus.output (base + SerialPort.Register.data) byte m =
      { m with uarts := [u.take byte] } := by
  have hlocate := h.locate?_eq SerialPort.Register.data (by decide)
  have hdata : SerialPort.Register.data.toNat = 0 := rfl
  simp [bus, output, hlocate, hdata, h.isSetUp, h.uarts_eq]

theorem not_stalled (h : Busy base busy n m u) : u.stalled = false := by
  rw [Uart.stalled, h.stallAfter_eq]

end Busy

theorem drains (base : UInt16) (busy : Nat) :
    SerialPort.Drains Machine.bus base busy fun n m => ∃ u, Busy base busy n m u where
  ready := by
    rintro m ⟨u, h⟩
    have hpoll : u.poll = (0x60, u) := by
      simp [Uart.poll, h.not_stalled, h.wait_eq, h.lineStatus_eq]
    have hready : SerialPort.isReady (0x60 : UInt8).toUInt32 = true := by decide
    rw [h.input_eq, hpoll]
    exact ⟨hready, u, { h with uarts_eq := rfl }⟩
  held := by
    rintro n m ⟨u, h⟩
    have hbusy : u.busyStatus = 0x40 := by
      rw [Uart.busyStatus, h.lineStatus_eq]
      rfl
    have hpoll : u.poll = (0x40, { u with wait := n }) := by
      simp [Uart.poll, h.not_stalled, h.wait_eq, hbusy]
    have hready : SerialPort.isReady (0x40 : UInt8).toUInt32 = false := by decide
    rw [h.input_eq, hpoll]
    exact ⟨hready, _, { h with uarts_eq := rfl, wait_eq := rfl }⟩
  take := by
    rintro byte m ⟨u, h⟩
    rw [h.output_eq]
    exact ⟨_, { h with uarts_eq := rfl, wait_eq := h.busy_eq }⟩

end Machine

namespace SerialPort

/-! ## Calls -/

/-- A call on a serial port. -/
inductive Call
  | byte (value : UInt8)
  | text (value : String)

/-- The bytes that a call gives the port: a byte as it is, a text with returns. -/
def Call.bytes : Call → Bytes
  | byte value => [value]
  | text value => Text.utf8 (Text.returned value)

/-- Makes a call. -/
def perform (bus : Bus σ) (port : SerialPort) (s : σ) : Call → SerialPort × σ
  | .byte value => writeByte bus port value s
  | .text value => writeText bus port value s

/-- Makes calls in order. -/
def performAll (bus : Bus σ) (port : SerialPort) (calls : List Call) (s : σ) : SerialPort × σ :=
  calls.foldl (fun (p : SerialPort × σ) call => perform bus p.1 p.2 call) (port, s)

theorem perform_eq (bus : Bus σ) (port : SerialPort) (s : σ) (call : Call) :
    perform bus port s call = writeBytes bus port call.bytes s := by
  cases call with
  | byte value => rfl
  | text value => rw [Call.bytes, ← withReturns_utf8]; rfl

/-- Calls write their bytes, and nothing depends on how these are spread over the calls. -/
theorem performAll_eq (bus : Bus σ) (port : SerialPort) (calls : List Call) (s : σ) :
    performAll bus port calls s = writeBytes bus port (calls.flatMap Call.bytes) s := by
  induction calls generalizing port s with
  | nil => rfl
  | cons call calls ih =>
    rw [List.flatMap_cons, writeBytes_append, ← perform_eq]
    exact ih _ _

theorem exists_start (bus : Bus σ) {port : SerialPort} (h : port.base ≤ 0xfff8) (baud : UInt32)
    (s : σ) : ∃ started s', start bus port baud s = some (started, s') ∧ started.base = port.base := by
  have hroom : port.base.toNat + 7 < 2 ^ 16 := by
    have := UInt16.le_iff_toNat_le.mp h
    rw [show (0xfff8 : UInt16).toNat = 0xfff8 from rfl] at this
    omega
  rw [start, dif_pos hroom]
  rcases detect bus port.base s with ⟨_ | _, after⟩
  · exact ⟨_, _, rfl, rfl⟩
  · exact ⟨_, _, rfl, rfl⟩

/-- **What a serial port sends.** A port that was started and found its device is given calls. For
    their bytes, in order, it makes attempts, and these are all the accesses it makes. At most
    100000 reads of the line status are made for a byte; the byte is sent exactly if one of them
    tells that the device is ready, and dropped after 100000 that do not. What arrives at the data
    register is a prefix of the bytes. The first byte dropped is the last one attempted, and the
    port is then not functional: such a port makes no access at all, also if it is started again
    and finds no device. To a device that is busy for a number of reads after each byte all arrive
    exactly if there is at most one, or the number is below 100000. -/
theorem written_performAll (bus : Bus σ) (port : SerialPort) (hbase : port.base ≤ 0xfff8)
    (baud : UInt32) (s : σ × List Access) :
    (∀ idle : SerialPort, idle.functional = false → ∀ calls t,
      performAll bus.traced idle calls t = (idle, t)) ∧
    ∃ started s', start bus.traced port baud s = some (started, s') ∧
      (started.functional = true → ∀ calls : List Call,
        let bytes := calls.flatMap Call.bytes
        let last := performAll bus.traced started calls s'
        ∃ attempts : List Attempt,
          let added := attempts.flatMap (Attempt.accesses port.base)
          let sent := written port.base added
          last.2.2 = s'.2 ++ added ∧
          attempts.map Attempt.byte <+: bytes ∧ sent <+: bytes ∧
          (∀ a ∈ attempts, a.statuses.length ≤ 100000 ∧
            (∀ status ∈ a.statuses.dropLast, isReady status = false) ∧
            (a.sent = true ↔ ∃ status ∈ a.statuses, isReady status = true) ∧
            (a.sent = false → a.statuses.length = 100000)) ∧
          (∀ a ∈ attempts.dropLast, a.sent = true) ∧
          (last.1.functional = true ↔ ∀ a ∈ attempts, a.sent = true) ∧
          (sent = bytes ↔ last.1.functional = true) ∧
          ∀ busy waits, Drains bus port.base busy waits → waits 0 s'.1 →
            (sent = bytes ↔ bytes.length ≤ 1 ∨ busy < 100000)) := by
  constructor
  · intro idle hidle calls t
    rw [performAll_eq, writeBytes_of_not_functional hidle]
  · obtain ⟨started, s', hstart, hsame⟩ := exists_start bus.traced hbase baud s
    refine ⟨started, s', hstart, fun hfound calls => ?_⟩
    intro bytes last
    have hlast : last = writeBytes bus.traced started bytes s' := performAll_eq ..
    obtain ⟨attempts, all, htransmission, hadded, hport⟩ :=
      writeBytes_traced hfound bus bytes s'
    rw [← hlast] at hadded hport
    rw [hsame] at hadded
    have hall : last.1.functional = true ↔ all = true := by
      rw [hport]
      cases all with
      | true => simp [hfound]
      | false => simp [idle]
    obtain ⟨hfirst, hwhole⟩ := htransmission.prefix_sent
    rw [← Transmission.written_eq port.base] at hfirst hwhole
    refine ⟨attempts, hadded, htransmission.prefix_attempted, hfirst, fun a ha => ?_,
      htransmission.sent_of_mem_dropLast, hall.trans htransmission.all_iff, hwhole.trans hall.symm,
      fun busy waits hdrains hwaits => ?_⟩
    · have hpolled := htransmission.polled a ha
      exact ⟨hpolled.length_le, hpolled.early, hpolled.ready_iff, hpolled.length_of_not_ready⟩
    · have hdevice : Drains bus.traced started.base busy _ := hsame ▸ hdrains.traced
      rw [hwhole.trans hall.symm, hlast, hdevice.writeBytes hfound bytes hwaits]
      cases bytes with
      | nil => simp
      | cons byte bytes => simp [maxPolls]

/-- A device that is busy for 100000 reads after each byte is sent the first byte of a text and not
    the second, after which the port is silent. -/
theorem written_performAll_stalled :
    ∃ started s', start Machine.bus.traced (idle 0x3f8) 115200
        ({ uarts := [{ base := 0x3f8, busy := 100000 }] }, []) = some (started, s') ∧
      let last := performAll Machine.bus.traced started [.text "\n"] s'
      last.1.functional = false ∧
      ∃ added, last.2.2 = s'.2 ++ added ∧ written 0x3f8 added <+: [0x0d, 0x0a] ∧
        written 0x3f8 added ≠ [0x0d, 0x0a] ∧
        ∀ calls t, performAll Machine.bus.traced last.1 calls t = (last.1, t) := by
  obtain ⟨hsilent, started, s', hstart, hcalls⟩ := written_performAll Machine.bus (idle 0x3f8)
    (by decide) 115200 ({ uarts := [{ base := 0x3f8, busy := 100000 }] }, [])
  have hfound : started.functional = true := by
    cases hstart
    rfl
  have hready : ∃ u, Machine.Busy 0x3f8 100000 0 s'.1 u := by
    cases hstart
    exact ⟨_, rfl, rfl, rfl, rfl, rfl, rfl, rfl⟩
  obtain ⟨attempts, hadded, -, hfirst, -, -, -, hwhole, hdrains⟩ := hcalls hfound [.text "\n"]
  have hlost := (not_congr (hdrains _ _ (Machine.drains 0x3f8 100000) hready)).mpr (by decide)
  have hdown := eq_false_of_ne_true (mt hwhole.mpr hlost)
  exact ⟨started, s', hstart, hdown, _, hadded, hfirst, hlost, hsilent _ hdown⟩

/-- A line feed that is given as a byte and not as a text is sent without a return. -/
theorem written_performAll_lineFeed :
    ∃ started s', start Machine.bus.traced (idle 0x3f8) 115200
        ({ uarts := [{ base := 0x3f8 }] }, []) = some (started, s') ∧
      started.functional = true ∧
      let last := performAll Machine.bus.traced started [.byte 0x0a] s'
      written 0x3f8 (last.2.2.drop s'.2.length) = [0x0a] ∧
      ¬ [0x0a] <+: withReturns [0x0a] := by
  refine ⟨_, _, rfl, rfl, ?_⟩
  decide +kernel

end SerialPort

end BootHandoff
