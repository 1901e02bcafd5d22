/-
  Which tables the board information is gathered from, and what it says. `fadtBytes?` and
  `window?` read the FADT and the window of an MCFG from the memory alone; `outcome_survey` gives
  the end of the survey for every memory and every root pointer: the information in the first
  tables that carry the right signature, with the XSDT gone through before the RSDT, or the error
  of a table that is missing or cannot be read.
-/
import BootHandoff.Platform.BoardInfo
import BootHandoff.Proofs.Acpi.Listing
import BootHandoff.Proofs.Handoff.Order

namespace BootHandoff.Acpi

variable (mem : Memory)

/-! ## The tables that are read -/

/-- The bytes of the FADT at an address, no more than it declares and no more than 129. -/
def fadtBytes? (address : Address) : Option Bytes := do
  let header ← (mem.read address 36).toOption
  (mem.read address (min (header.word32 4).toNat 129)).toOption

/-- Base and size of the window that the MCFG at an address describes first: a MiB for each bus
    from the first to the last. A table of less than 60 bytes describes none. -/
def windowAt? (address : Address) : Option (Address × UInt64) := do
  let header ← (mem.read address 36).toOption
  if (header.word32 4).toNat < 60 then pure (0, 0)
  else do
    let place ← address.offset? 44
    let bs ← (mem.read place 16).toOption
    pure (bs.word64 0,
      UInt64.ofNat (((bs.byte 11).toNat + 1 - (bs.byte 10).toNat) * 2 ^ 20))

/-- Base and size of the window of an MCFG that may be missing. -/
def window? : Option Address → Option (Address × UInt64)
  | none => some (0, 0)
  | some address => windowAt? mem address

variable {α : Type}

theorem reads_fadt_bind {f : Fadt → Survey α} {g : Bytes → Option α} (address : Address)
    (hf : ∀ bs, Reads (f (Fadt.ofBytes bs)) (g bs)) :
    Reads (Fadt.read mem address >>= f) (fadtBytes? mem address >>= g) := by
  rw [Fadt.read, fadtBytes?, readHeader]
  simp only [bind_assoc, pure_bind]
  refine (reads_readBytes mem address 36).bind fun header _ => ?_
  exact (reads_readBytes mem address _).bind fun bs _ => hf bs

/-- Base and size of a window as the board information has them. -/
def extentOf (window : Option PcieWindow) : Address × UInt64 :=
  ((window.map (·.base)).getD 0, (window.map (·.size)).getD 0)

theorem extentOf_ofBytes (bs : Bytes) :
    extentOf (some (PcieWindow.ofBytes bs)) =
      (bs.word64 0, UInt64.ofNat (((bs.byte 11).toNat + 1 - (bs.byte 10).toNat) * 2 ^ 20)) := rfl

theorem reads_windowAt_bind {f : Option PcieWindow → Survey α} {g : Address × UInt64 → Option α}
    (address : Address) (hf : ∀ window, Reads (f window) (g (extentOf window))) :
    Reads (PcieWindow.read? mem address >>= f) (windowAt? mem address >>= g) := by
  rw [PcieWindow.read?, windowAt?, readHeader]
  simp only [bind_assoc, pure_bind]
  refine (reads_readBytes mem address 36).bind fun header _ => ?_
  show Reads ((if (header.word32 4).toNat < 60 then _ else _) >>= f) _
  by_cases h : (header.word32 4).toNat < 60
  · rw [if_pos h, if_pos h, bind_assoc]
    exact (hf none).note_bind ..
  · rw [if_neg h, if_neg h, show PcieWindow.allocationOffset = 44 from rfl]
    cases address.offset? 44 with
    | none => exact ⟨_, rfl⟩
    | some place =>
      show Reads ((readBytes mem place 16 >>= fun bs => pure (some (PcieWindow.ofBytes bs))) >>= f)
        (((mem.read place 16).toOption >>= _) >>= g)
      simp only [bind_assoc, pure_bind]
      refine (reads_readBytes mem place 16).bind fun bs _ => ?_
      rw [← extentOf_ofBytes]
      exact hf _

theorem reads_window_bind {f : Option PcieWindow → Survey α} {g : Address × UInt64 → Option α}
    (mcfg : Option Address) (hf : ∀ window, Reads (f window) (g (extentOf window))) :
    Reads (BoardInfo.findWindow mem mcfg >>= f) (window? mem mcfg >>= g) := by
  cases mcfg with
  | none => exact hf none
  | some address => exact reads_windowAt_bind mem address hf

end BootHandoff.Acpi

namespace BootHandoff.BoardInfo

open Acpi

/-- The board information in listed tables, the bytes of the FADT, and base and size of the
    configuration window. -/
def gathered (tables : List Listed) (fadt : Bytes) (window : Address × UInt64) : BoardInfo where
  pmControl := (fadt.word32 64).toUInt64
  pmTimer := (fadt.word32 76).toUInt64
  resetRegister := fadt.word64 120
  resetValue := fadt.byte 128
  pmEvent := (fadt.word32 56).toUInt64
  pmGpeEnable := UInt64.ofNat (((fadt.word32 80).toNat + (fadt.byte 92).toNat / 2) % 2 ^ 32)
  pcieBase := window.1
  pcieSize := window.2
  tpm12 := carried (Bytes.ofAscii "TCPA") tables
  tpm20 := carried (Bytes.ofAscii "TPM2") tables

theorem ofTables_ofBytes (tables : List Listed) (bs : Bytes) (window : Option PcieWindow) :
    ofTables (Listing.ofTables tables) (Fadt.ofBytes bs) window =
      gathered tables bs (extentOf window) := by
  have hgpe : (Fadt.ofBytes bs).gpe0Enable.toUInt64 =
      UInt64.ofNat (((bs.word32 80).toNat + (bs.byte 92).toNat / 2) % 2 ^ 32) := by
    have hbyte := (bs.byte 92).toNat_lt
    rw [← UInt64.toNat_inj, UInt32.toNat_toUInt64, Address.toNat_ofNat (by omega)]
    simp [Fadt.gpe0Enable, Fadt.ofBytes, UInt32.toNat_add, UInt32.toNat_div]
  rw [ofTables, hgpe]
  rfl

variable (mem : Memory)

/-- Where a FADT is listed, the rest only reads it and the first MCFG. -/
theorem reads_find {rsdp : Rsdp} {tables : List Listed} {address : Address}
    (hlisted : rsdp.listed? mem = some tables)
    (hfadt : firstWith? (Bytes.ofAscii "FACP") tables = some address) :
    Reads (find mem rsdp) (do
      let bs ← fadtBytes? mem address
      let window ← window? mem (firstWith? (Bytes.ofAscii "MCFG") tables)
      pure (gathered tables bs window, Fadt.ofBytes bs)) := by
  have hlisting := reads_rsdp_listing mem rsdp
  rw [hlisted] at hlisting
  refine hlisting.bind_of_some ?_
  have hfound : (Listing.ofTables tables).fadt = some address := hfadt
  rw [hfound]
  refine Reads.note_bind ?_ ..
  refine reads_fadt_bind mem address fun bs => ?_
  refine Reads.forM_note_bind ?_ ..
  refine reads_window_bind mem _ fun window => ?_
  rw [ofTables_ofBytes]
  exact (Reads.pure _).forM_note_bind ..

/-! ## The survey -/

theorem outcome_run_survey {σ κ : Type} (rsdp : Rsdp) (host : Procedure.Host σ) (sink : Sink κ)
    (s : σ) (k : κ) :
    ((survey rsdp).run host sink (fun _ => mem) s k).outcome =
      ((find mem rsdp).outcome.map Prod.fst).mapError Procedure.faultOf := by
  cases h : (find mem rsdp).outcome with
  | error fault =>
    exact (Procedure.run_of_sends (Handoff.sends_survey_error mem h) host sink s k).2
  | ok found => exact (Procedure.run_of_sends (Handoff.sends_survey mem h) host sink s k).2

/-- **Table selection.** The end of the survey over every memory and every root pointer. With the
    tables of the XSDT before those of the RSDT, the first `FACP` and the first `MCFG` are read,
    and any `TPM2` or `TCPA` counts. A root table, an entry or the header of a listed table that
    cannot be read comes first among the errors, then a missing FADT, then a FADT or a window
    that cannot be read. -/
theorem outcome_survey {σ κ : Type} (rsdp : Rsdp) (host : Procedure.Host σ) (sink : Sink κ)
    (s : σ) (k : κ) :
    let outcome := ((survey rsdp).run host sink (fun _ => mem) s k).outcome
    let unreadable := ∃ e, outcome = .error (.cause (.failed (.badAddress e)))
    match rsdp.listed? mem with
    | none => unreadable
    | some tables =>
      match firstWith? (Bytes.ofAscii "FACP") tables with
      | none => outcome = .error (.cause (.failed .fadtNotFound))
      | some fadt =>
        match fadtBytes? mem fadt, window? mem (firstWith? (Bytes.ofAscii "MCFG") tables) with
        | some bs, some window => outcome = .ok (gathered tables bs window)
        | _, _ => unreadable := by
  intro outcome unreadable
  have hrun : outcome = ((find mem rsdp).outcome.map Prod.fst).mapError Procedure.faultOf :=
    outcome_run_survey mem rsdp host sink s k
  have hfailed : (∃ e, (find mem rsdp).outcome = .error (.cause (.badAddress e))) →
      unreadable := fun ⟨e, he⟩ => ⟨e, by rw [hrun, he]; rfl⟩
  have hlisting := reads_rsdp_listing mem rsdp
  cases hlisted : rsdp.listed? mem with
  | none =>
    rw [hlisted] at hlisting
    obtain ⟨e, he⟩ := hlisting
    exact hfailed ⟨e, by rw [find, Logged.outcome_bind, he]; rfl⟩
  | some tables =>
    dsimp only
    rw [hlisted] at hlisting
    cases hfadt : firstWith? (Bytes.ofAscii "FACP") tables with
    | none =>
      have hnone : (Listing.ofTables tables).fadt = none := hfadt
      have hfind : (find mem rsdp).outcome = .error (.cause .fadtNotFound) := by
        rw [find, Logged.outcome_bind_of_ok hlisting, hnone]
        rfl
      exact hrun.trans (by rw [hfind]; rfl)
    | some address =>
      dsimp only
      have hfind := reads_find mem hlisted hfadt
      cases hbytes : fadtBytes? mem address with
      | none =>
        rw [hbytes] at hfind
        exact hfailed hfind
      | some bs =>
        cases hwindow : window? mem (firstWith? (Bytes.ofAscii "MCFG") tables) with
        | none =>
          rw [hbytes, hwindow] at hfind
          exact hfailed hfind
        | some window =>
          rw [hbytes, hwindow] at hfind
          have hok : (find mem rsdp).outcome =
              .ok (gathered tables bs window, Fadt.ofBytes bs) := hfind
          exact hrun.trans (by rw [hok]; rfl)

end BootHandoff.BoardInfo
