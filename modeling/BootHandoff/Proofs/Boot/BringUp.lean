/-
  Where a boot brings up its console. A record may announce a console behind I/O ports at any 32-bit
  address, of which the low half is taken for the base port. So an address whose eight ports are not
  all in the port space is not seen as such: the console is looked for at another port, or the boot
  stops on an overflow if a register of that one lies past the last port. Otherwise the console is
  where it was announced, or where it was configured (`startConsole_traced`).
-/
import BootHandoff.Proofs.Boot.Confinement
import BootHandoff.Proofs.Console.Programming

namespace BootHandoff

variable {σ : Type}

/-- Only a register past the last port keeps a port from being started. -/
theorem SerialPort.start_eq_none_iff (bus : Bus σ) (port : SerialPort) (baud : UInt32) (s : σ) :
    start bus port baud s = none ↔ 0xfff8 < port.base := by
  constructor
  · intro hnone
    by_contra hle
    obtain ⟨started, s', hstart, -⟩ := exists_start bus (UInt16.not_lt.mp hle) baud s
    rw [hnone] at hstart
    cases hstart
  · intro hlt
    have hpast : 0xfff8 < port.base.toNat := UInt16.lt_iff_toNat_lt.mp hlt
    rw [start, dif_neg (by omega)]

namespace Console

theorem start_eq_none_iff (bus : Bus σ) (c : Console) (base : UInt16) (baud : UInt32) (s : σ) :
    Console.start bus c base baud s = none ↔ 0xfff8 < base := by
  refine Iff.trans ?_ (SerialPort.start_eq_none_iff bus (.idle base) baud s)
  rw [Console.start]
  cases hstart : SerialPort.start bus (.idle base) baud s with
  | none => exact ⟨fun _ => rfl, fun _ => rfl⟩
  | some result =>
    obtain ⟨port, after⟩ := result
    refine iff_of_false ?_ (Option.some_ne_none _)
    dsimp only
    by_cases hfunctional : port.functional = true
    · rw [if_pos hfunctional]
      rcases port.writeText bus banner after with ⟨last, after'⟩
      exact Option.some_ne_none _
    · rw [if_neg hfunctional]
      exact Option.some_ne_none _

/-- A start begins with a search at its base port. -/
theorem exists_probe_of_start {bus : Bus σ} {base : UInt16} {baud : UInt32}
    {s s' : σ × List Access} {found : Bool} {c : Console}
    (h : Console.start bus.traced {} base baud s = some (found, c, s')) :
    ∃ probe answered rest, SerialPort.Probe base probe answered ∧
      s'.2 = s.2 ++ (probe ++ rest) := by
  obtain ⟨port, after, hstart, hdone⟩ := start_cases h
  obtain ⟨-, probe, hprobe, hlost, hfound⟩ := SerialPort.traced_of_start hstart
  obtain ⟨-, hfunctional, -, rfl⟩ | ⟨-, hidle, -, rfl⟩ := hdone
  · obtain ⟨-, more, hmore, -⟩ := SerialPort.grows_writeText bus port banner after
    refine ⟨probe, _, SerialPort.programming base baud ++ more, hprobe, ?_⟩
    rw [hmore, hfound hfunctional, List.append_assoc, List.append_assoc]
    rfl
  · exact ⟨probe, _, [], hprobe, by rw [List.append_nil, hlost hidle]⟩

end Console

namespace Boot

open Coreboot (SerialRecord)

/-- The record of a console that is announced behind I/O ports. -/
def ioConsole? (serial : Option SerialRecord) : Option SerialRecord :=
  serial.filter fun r => r.type = SerialRecord.ioMapped

/-- The base port of the console that a boot is told about: the announced one if its eight ports are
    all in the port space, and else the configured one. -/
def announcedBase (settings : Settings) (serial : Option SerialRecord) : Nat :=
  (ioConsole? serial).elim settings.fallbackPort.toNat fun r =>
    if r.base.toNat + 7 < 2 ^ 16 then r.base.toNat else settings.fallbackPort.toNat

theorem toNat_consoleSettings (settings : Settings) (serial : Option SerialRecord) :
    (consoleSettings settings serial).1.toNat =
      (ioConsole? serial).elim settings.fallbackPort.toNat fun r => r.base.toNat % 2 ^ 16 := by
  cases serial with
  | none => rfl
  | some record =>
    rw [consoleSettings, ioConsole?, Option.filter_some]
    by_cases htype : record.type = SerialRecord.ioMapped
    · rw [if_pos htype, if_pos (decide_eq_true htype)]
      exact UInt32.toNat_toUInt16 record.base
    · rw [if_neg htype, if_neg (by simpa using htype)]
      rfl

theorem announcedBase_eq_iff (settings : Settings) (serial : Option SerialRecord) :
    (consoleSettings settings serial).1.toNat = announcedBase settings serial ↔
      ∀ r ∈ ioConsole? serial,
        r.base.toNat + 7 < 2 ^ 16 ∨ r.base.toNat % 2 ^ 16 = settings.fallbackPort.toNat := by
  rw [toNat_consoleSettings, announcedBase]
  cases ioConsole? serial with
  | none => simp
  | some record =>
    simp only [Option.elim_some, Option.mem_some_iff, forall_eq']
    split
    · rename_i hfits
      simp only [hfits, true_or, iff_true]
      exact Nat.mod_eq_of_lt (by omega)
    · rename_i hpast
      rw [or_iff_right hpast]

theorem startConsole_eq_none_iff (bus : Bus σ) (settings : Settings)
    (serial : Option SerialRecord) (s : σ) :
    startConsole bus settings serial s = none ↔ 0xfff8 < (consoleSettings settings serial).1 := by
  rw [startConsole]
  dsimp only
  rw [← Console.start_eq_none_iff bus {} _ (consoleSettings settings serial).2 s]
  split
  · rename_i hnone
    exact ⟨fun _ => hnone, fun _ => rfl⟩
  · rename_i hstart
    rw [hstart]
    exact iff_of_false (Option.some_ne_none _) (Option.some_ne_none _)

/-- The console that a boot brings up has searched for its device first. -/
theorem head?_of_startConsole {bus : Bus σ} {settings : Settings} {serial : Option SerialRecord}
    {s : σ × List Access} {started : Console × (σ × List Access)} {added : List Access}
    (h : startConsole bus.traced settings serial s = some started)
    (hadded : started.2.2 = s.2 ++ added) :
    added.head? = some (.output ((consoleSettings settings serial).1 + SerialPort.Register.scratch)
      0x55) := by
  unfold startConsole at h
  dsimp only at h
  split at h
  · cases h
  · rename_i found console after hstart
    obtain ⟨probe, answered, rest, hprobe, hwhole⟩ := Console.exists_probe_of_start hstart
    cases h
    rw [List.append_cancel_left (hadded.symm.trans hwhole)]
    cases hprobe <;> rfl

/-- **Where the console is brought up.** The base port is the configured one, or the low half of the
    address of a console that is announced behind I/O ports. It is the base port of the console that
    the boot was told about unless such an address leaves the port space and its low half is not the
    configured port. If a register would lie past the last port, bringing up the console stops on an
    overflow. Otherwise it is done, beginning with a write to the scratch register, and makes no
    access but to the eight ports from the base port on. -/
theorem startConsole_traced (bus : Bus σ) (settings : Settings) (serial : Option SerialRecord)
    (s : σ × List Access) :
    let base := (consoleSettings settings serial).1
    let started? := startConsole bus.traced settings serial s
    base.toNat =
        (ioConsole? serial).elim settings.fallbackPort.toNat (fun r => r.base.toNat % 2 ^ 16) ∧
      (base.toNat = announcedBase settings serial ↔ ∀ r ∈ ioConsole? serial,
        r.base.toNat + 7 < 2 ^ 16 ∨ r.base.toNat % 2 ^ 16 = settings.fallbackPort.toNat) ∧
      (0xfff8 < base ∧ started? = none ∨
        base ≤ 0xfff8 ∧ ∃ started added, started? = some started ∧ started.2.2 = s.2 ++ added ∧
          added.head? = some (.output (base + SerialPort.Register.scratch) 0x55) ∧
          ∀ a ∈ added, a.AtDevice base) := by
  intro base started?
  refine ⟨toNat_consoleSettings settings serial, announcedBase_eq_iff settings serial, ?_⟩
  have hnone : started? = none ↔ 0xfff8 < base :=
    startConsole_eq_none_iff bus.traced settings serial s
  cases hstarted : started? with
  | none => exact .inl ⟨hnone.mp hstarted, rfl⟩
  | some started =>
    have hle : base ≤ 0xfff8 := by
      rw [← UInt16.not_lt, ← hnone, hstarted]
      exact Option.some_ne_none started
    obtain ⟨-, -, added, hadded, hdevice⟩ := uses_startConsole hstarted
    exact .inr ⟨hle, started, added, rfl, hadded, head?_of_startConsole hstarted hadded,
      hdevice.atDevice⟩

/-- The record of a console behind I/O ports at an address. -/
def consoleAt (address : UInt32) : SerialRecord := ⟨SerialRecord.ioMapped, address, 115200, 1, 0⟩

/-- One register past the last port stops a boot, and an address past all ports makes it search
    where nothing was announced or configured. -/
theorem startConsole_strayAddress :
    startConsole floatingBus.traced {} (some (consoleAt 0xfff9)) ((), []) = none ∧
      (startConsole floatingBus.traced {} (some (consoleAt 0x102f8)) ((), [])).map (·.2.2) =
        some [.output 0x2ff 0x55, .input .w8 0x2ff 0xffffffff] ∧
      announcedBase {} (some (consoleAt 0xfff9)) = 0x3f8 ∧
      announcedBase {} (some (consoleAt 0x102f8)) = 0x3f8 := by
  refine ⟨?_, by decide +kernel, by decide, by decide⟩
  exact Option.isNone_iff_eq_none.mp (by decide +kernel)

end Boot

end BootHandoff
