/-
  The accesses of the console and of whoever uses it. `Grows base reads t t'`: the trace `t'` is `t`
  with accesses to the device at `base` added, and with the reads `reads` among them, in order.
  What the serial port does adds none but accesses to its device (`grows_start`,
  `grows_writeBytes`), and so does what the console does, since it keeps the port that it was
  started on (`Console.On`).
-/
import BootHandoff.Console
import BootHandoff.Proofs.Console.Transmission

namespace BootHandoff

variable {σ : Type}

/-! ## Traces -/

/-- An access of eight bits to one of the eight ports from a base port on. -/
def Access.AtDevice (base : UInt16) : Access → Prop
  | .input width port _ =>
    width = .w8 ∧ base.toNat ≤ port.toNat ∧ port.toNat ≤ base.toNat + 7
  | .output port _ => base.toNat ≤ port.toNat ∧ port.toNat ≤ base.toNat + 7

/-- Accesses to the device at a base port with other reads among them. -/
inductive Among (base : UInt16) : List (PortWidth × UInt16) → List Access → Prop
  | none : Among base [] []
  | device {a : Access} {reads : List (PortWidth × UInt16)} {accesses : List Access}
      (h : a.AtDevice base) (rest : Among base reads accesses) : Among base reads (a :: accesses)
  | read (width : PortWidth) (port : UInt16) (value : UInt32)
      {reads : List (PortWidth × UInt16)} {accesses : List Access}
      (rest : Among base reads accesses) :
      Among base ((width, port) :: reads) (.input width port value :: accesses)

namespace Among

variable {base : UInt16} {reads more : List (PortWidth × UInt16)} {accesses later : List Access}

theorem append (h : Among base reads accesses) (h' : Among base more later) :
    Among base (reads ++ more) (accesses ++ later) := by
  induction h with
  | none => exact h'
  | device ha rest ih => exact .device ha ih
  | read width port value rest ih => exact .read width port value ih

theorem of_device (h : ∀ a ∈ accesses, a.AtDevice base) : Among base [] accesses := by
  induction accesses with
  | nil => exact .none
  | cons a accesses ih =>
    obtain ⟨ha, hrest⟩ := List.forall_mem_cons.mp h
    exact .device ha (ih hrest)

/-- Without other reads all accesses are to the device. -/
theorem atDevice (h : Among base [] accesses) : ∀ a ∈ accesses, a.AtDevice base := by
  generalize hreads : ([] : List (PortWidth × UInt16)) = reads at h
  induction h with
  | none => simp
  | device ha rest ih => exact List.forall_mem_cons.mpr ⟨ha, ih hreads⟩
  | read => cases hreads

/-- Where the first other read stands. -/
theorem split {width : PortWidth} {port : UInt16}
    (h : Among base ((width, port) :: reads) accesses) :
    ∃ before value after, accesses = before ++ .input width port value :: after ∧
      (∀ a ∈ before, a.AtDevice base) ∧ Among base reads after := by
  generalize hreads : (width, port) :: reads = all at h
  induction h with
  | none => cases hreads
  | @device a _ _ ha rest ih =>
    obtain ⟨before, value, after, rfl, hbefore, hafter⟩ := ih hreads
    exact ⟨a :: before, value, after, rfl, List.forall_mem_cons.mpr ⟨ha, hbefore⟩, hafter⟩
  | read width port value rest =>
    cases hreads
    exact ⟨[], value, _, rfl, by simp, rest⟩

end Among

/-- A trace is another one with accesses to a device added, and with other reads among them. -/
def Grows (base : UInt16) (reads : List (PortWidth × UInt16)) (t t' : List Access) : Prop :=
  ∃ added, t' = t ++ added ∧ Among base reads added

namespace Grows

variable {base : UInt16} {reads more : List (PortWidth × UInt16)} {t t' t'' : List Access}

theorem refl (base : UInt16) (t : List Access) : Grows base [] t t :=
  ⟨[], (List.append_nil t).symm, .none⟩

theorem trans (h : Grows base reads t t') (h' : Grows base more t' t'') :
    Grows base (reads ++ more) t t'' := by
  obtain ⟨added, rfl, hadded⟩ := h
  obtain ⟨later, rfl, hlater⟩ := h'
  exact ⟨added ++ later, List.append_assoc .., hadded.append hlater⟩

theorem device {a : Access} (h : a.AtDevice base) (t : List Access) :
    Grows base [] t (t ++ [a]) := ⟨[a], rfl, .device h .none⟩

/-- At most one other read stands, if it was made, in one place of the trace. -/
theorem exists_probe (h : Grows base reads [] t) (hreads : reads.length ≤ 1) :
    ∃ before probe between, t = before ++ probe ++ between ∧
      (∀ a ∈ before ++ between, a.AtDevice base) ∧
      (reads = [] ∧ probe = [] ∨
        ∃ width port value, reads = [(width, port)] ∧ probe = [.input width port value]) := by
  obtain ⟨_, rfl, hadded⟩ := h
  rcases reads with _ | ⟨⟨width, port⟩, _ | ⟨_, _⟩⟩
  · refine ⟨t, [], [], by simp, ?_, .inl ⟨rfl, rfl⟩⟩
    rw [List.append_nil]
    exact hadded.atDevice
  · obtain ⟨before, value, between, rfl, hbefore, hbetween⟩ := hadded.split
    refine ⟨before, [.input width port value], between, List.append_cons .., ?_,
      .inr ⟨width, port, value, rfl, rfl⟩⟩
    exact List.forall_mem_append.mpr ⟨hbefore, hbetween.atDevice⟩
  · exact absurd hreads (by simp)

end Grows

/-! ## The serial port -/

namespace SerialPort

variable {port : SerialPort} {base register : UInt16}

/-- A register of a device that lies below the top of the port space. -/
theorem toNat_register (hbase : base.toNat + 7 < 2 ^ 16) (hregister : register.toNat ≤ 7) :
    base.toNat ≤ (base + register).toNat ∧ (base + register).toNat ≤ base.toNat + 7 := by
  rw [UInt16.toNat_add, Nat.mod_eq_of_lt (by omega)]
  omega

section

variable (hbase : base.toNat + 7 < 2 ^ 16) (hregister : register.toNat ≤ 7) (bus : Bus σ)

include hbase hregister

theorem grows_readRegister (s : σ × List Access) :
    Grows base [] s.2 (readRegister bus.traced base register s).2.2 :=
  let value := (bus.input .w8 (base + register) s.1).1
  have hread : (Access.input .w8 (base + register) value).AtDevice base :=
    ⟨rfl, toNat_register hbase hregister⟩
  .device hread s.2

theorem grows_writeRegister (value : UInt8) (s : σ × List Access) :
    Grows base [] s.2 (writeRegister bus.traced base register value s).2 :=
  have hwrite : (Access.output (base + register) value).AtDevice base :=
    toNat_register hbase hregister
  .device hwrite s.2

end

section

variable (hbase : base.toNat + 7 < 2 ^ 16) (bus : Bus σ)

include hbase

theorem grows_keepsScratch (value : UInt8) (s : σ × List Access) :
    Grows base [] s.2 (keepsScratch bus.traced base value s).2.2 :=
  (grows_writeRegister hbase (by decide) bus value s).trans
    (grows_readRegister hbase (by decide) bus _)

theorem grows_detect (s : σ × List Access) :
    Grows base [] s.2 (detect bus.traced base s).2.2 := by
  have hfirst := grows_keepsScratch hbase bus 0x55 s
  rw [detect]
  rcases h₁ : keepsScratch bus.traced base 0x55 s with ⟨_ | _, s₁⟩
  all_goals rw [h₁] at hfirst
  case false => exact hfirst
  have hsecond := hfirst.trans (grows_keepsScratch hbase bus 0xaa s₁)
  dsimp only
  rcases h₂ : keepsScratch bus.traced base 0xaa s₁ with ⟨_ | _, s₂⟩
  all_goals rw [h₂] at hsecond
  case false => exact hsecond
  exact hsecond.trans (grows_readRegister hbase (by decide) bus s₂)

theorem grows_program (baud : UInt32) (s : σ × List Access) :
    Grows base [] s.2 (program bus.traced base baud s).2 := by
  have hsetup : ∀ w ∈ setup baud, w.1.toNat ≤ 7 := by
    simp [setup]
    decide
  rw [program]
  generalize setup baud = writes at hsetup
  induction writes generalizing s with
  | nil => exact .refl base s.2
  | cons w writes ih =>
    obtain ⟨hw, hwrites⟩ := List.forall_mem_cons.mp hsetup
    exact (grows_writeRegister hbase hw bus w.2 s).trans (ih _ hwrites)

end

/-- A start stays at the device that it looks for. -/
theorem grows_start {bus : Bus σ} {baud : UInt32} {s s' : σ × List Access} {started : SerialPort}
    (h : start bus.traced port baud s = some (started, s')) :
    port.base.toNat + 7 < 2 ^ 16 ∧ started.base = port.base ∧ Grows port.base [] s.2 s'.2 := by
  rw [start] at h
  split at h
  · rename_i hbase
    have hdetect := grows_detect hbase bus s
    split at h
    · rename_i after hfound
      rw [hfound] at hdetect
      cases h
      exact ⟨hbase, rfl, hdetect.trans (grows_program hbase bus baud after)⟩
    · rename_i after hfound
      rw [hfound] at hdetect
      cases h
      exact ⟨hbase, rfl, hdetect⟩
  · cases h

theorem atDevice_accesses (hbase : base.toNat + 7 < 2 ^ 16) (a : Attempt) :
    ∀ access ∈ a.accesses base, access.AtDevice base := by
  intro access haccess
  rcases List.mem_append.mp haccess with hread | hwrite
  · obtain ⟨status, -, rfl⟩ := List.mem_map.mp hread
    exact ⟨rfl, toNat_register hbase (by decide)⟩
  · split at hwrite
    · rw [List.mem_singleton.mp hwrite]
      exact toNat_register hbase (by decide)
    · cases hwrite

/-- So does writing, which keeps the base of the port. -/
theorem grows_writeBytes (bus : Bus σ) (port : SerialPort) (bytes : Bytes)
    (s : σ × List Access) :
    (writeBytes bus.traced port bytes s).1.base = port.base ∧
      Grows port.base [] s.2 (writeBytes bus.traced port bytes s).2.2 := by
  cases hport : port.functional with
  | false =>
    rw [writeBytes_of_not_functional hport]
    exact ⟨rfl, .refl _ _⟩
  | true =>
    obtain ⟨attempts, all, -, hadded, hlast⟩ := writeBytes_traced hport bus bytes s
    refine ⟨by rw [hlast]; split <;> rfl, _, hadded, .of_device fun access haccess => ?_⟩
    obtain ⟨a, -, ha⟩ := List.mem_flatMap.mp haccess
    exact atDevice_accesses (port.base_le hport) a access ha

theorem grows_writeText (bus : Bus σ) (port : SerialPort) (text : String)
    (s : σ × List Access) :
    (writeText bus.traced port text s).1.base = port.base ∧
      Grows port.base [] s.2 (writeText bus.traced port text s).2.2 :=
  grows_writeBytes bus port (withReturns text.toUTF8.data.toList) s

end SerialPort

/-! ## The console -/

namespace Console

/-- The port of the console, if it has one, is at a base port. -/
def On (base : UInt16) (c : Console) : Prop := ∀ port, c.port = some port → port.base = base

/-- From one state of the console and the machine to another the trace grows, and the console
    stays where it is. -/
structure Uses (base : UInt16) (reads : List (PortWidth × UInt16))
    (s s' : Console × (σ × List Access)) : Prop where
  on : s'.1.On base
  grows : Grows base reads s.2.2 s'.2.2

variable {base : UInt16} {reads more : List (PortWidth × UInt16)}
  {s s' s'' : Console × (σ × List Access)}

theorem Uses.refl (h : s.1.On base) : Uses base [] s s := ⟨h, .refl base s.2.2⟩

theorem Uses.trans (h : Uses base reads s s') (h' : Uses base more s' s'') :
    Uses base (reads ++ more) s s'' := ⟨h'.on, h.grows.trans h'.grows⟩

theorem print_of_port {c : Console} {port : SerialPort} (h : c.port = some port) (bus : Bus σ)
    (text : String) (s : σ) : c.print bus text s =
      ({ c with port := some (port.writeText bus text s).1 }, (port.writeText bus text s).2) := by
  rw [print, h]

theorem print_of_no_port {c : Console} (h : c.port = none) (bus : Bus σ) (text : String) (s : σ) :
    c.print bus text s = (c, s) := by
  rw [print, h]

theorem uses_print (h : s.1.On base) (bus : Bus σ) (text : String) :
    Uses base [] s (s.1.print bus.traced text s.2) := by
  cases hport : s.1.port with
  | none =>
    rw [print_of_no_port hport]
    exact .refl h
  | some port =>
    rw [print_of_port hport]
    obtain ⟨hbase, hgrows⟩ := SerialPort.grows_writeText bus port text s.2
    rw [h port hport] at hbase hgrows
    refine ⟨?_, hgrows⟩
    rintro written ⟨⟩
    exact hbase

theorem uses_log (h : s.1.On base) (bus : Bus σ) (r : Record) :
    Uses base [] s (s.1.log bus.traced r s.2) := by
  rw [log]
  split
  · exact uses_print h bus _
  · exact .refl h

/-- The two ways in which a start that is done ends. If the device was found, its port becomes that
    of the console once the greeting is written, and else the console stays as it was. -/
theorem start_cases {bus : Bus σ} {baud : UInt32} {s s' : σ} {found : Bool} {c c' : Console}
    (h : Console.start bus c base baud s = some (found, c', s')) :
    ∃ port after, SerialPort.start bus (.idle base) baud s = some (port, after) ∧
      (found = true ∧ port.functional = true ∧
          c' = { c with port := some (port.writeText bus banner after).1 } ∧
          s' = (port.writeText bus banner after).2 ∨
        found = false ∧ port.functional = false ∧ c' = c ∧ s' = after) := by
  rw [Console.start] at h
  cases hstart : SerialPort.start bus (.idle base) baud s with
  | none =>
    rw [hstart] at h
    cases h
  | some result =>
    obtain ⟨port, after⟩ := result
    rw [hstart] at h
    refine ⟨port, after, rfl, ?_⟩
    dsimp only at h
    cases hfunctional : port.functional with
    | true =>
      rw [if_pos hfunctional] at h
      rcases hwrite : port.writeText bus banner after with ⟨last, after'⟩
      rw [hwrite] at h
      cases h
      exact .inl ⟨rfl, rfl, rfl, rfl⟩
    | false =>
      rw [if_neg (Bool.eq_false_iff.mp hfunctional)] at h
      cases h
      exact .inr ⟨rfl, rfl, rfl, rfl⟩

/-- A console that is started for the first time is on the port that it was started on. -/
theorem uses_start {bus : Bus σ} {baud : UInt32} {s s' : σ × List Access} {found : Bool}
    {c : Console} (h : Console.start bus.traced {} base baud s = some (found, c, s')) :
    base.toNat + 7 < 2 ^ 16 ∧ c.On base ∧ Grows base [] s.2 s'.2 := by
  obtain ⟨port, after, hstart, hdone⟩ := start_cases h
  obtain ⟨hbase, hsame, hgrows⟩ := SerialPort.grows_start hstart
  obtain ⟨-, -, rfl, rfl⟩ | ⟨-, -, rfl, rfl⟩ := hdone
  · obtain ⟨hlast, hmore⟩ := SerialPort.grows_writeText bus port banner after
    rw [hsame] at hlast hmore
    refine ⟨hbase, ?_, hgrows.trans hmore⟩
    rintro written ⟨⟩
    exact hlast
  · refine ⟨hbase, ?_, hgrows⟩
    rintro written ⟨⟩

end Console

end BootHandoff
