/-
  Where the output of a console goes. A console can be started again and again, with other uses in
  between; `History` is all that was done with it, with the accesses that were made. The output goes
  to the device of the last start that found one, until that device is given up (`outletAfter?`). A
  start that finds no device changes nothing in that. So it does not silence the console: what is
  printed after it is dropped exactly if it would have been dropped without it
  (`accesses_after_lost`).
-/
import BootHandoff.Proofs.Console.Transcript

namespace BootHandoff

variable {σ : Type} {base : UInt16}

open SerialPort

/-! ## Devices that are given up -/

/-- Accesses that end with giving up the device at a base port: the line status is read as often as
    is done for one byte, and never tells that the device is ready. -/
def GivesUp (base : UInt16) (accesses : List Access) : Prop :=
  maxPolls ≤ accesses.length ∧
    ∀ a ∈ accesses.drop (accesses.length - maxPolls), a.tellsBusy base = true

instance (base : UInt16) (accesses : List Access) : Decidable (GivesUp base accesses) :=
  inferInstanceAs (Decidable (_ ∧ _))

theorem not_givesUp_of_getLast? {accesses : List Access}
    (h : ∀ a ∈ accesses.getLast?, a.tellsBusy base = false) : ¬ GivesUp base accesses := by
  rintro ⟨hlong, hbusy⟩
  have hpolls : 0 < maxPolls := by decide
  have hlast := List.getLast?_eq_some_getLast (List.ne_nil_of_length_pos (l := accesses) (by omega))
  have hread := hbusy _ (List.mem_of_getLast? (by rw [List.getLast?_drop, if_neg (by omega), hlast]))
  rw [h _ hlast] at hread
  cases hread

theorem givesUp_append {earlier reads : List Access} (hlength : reads.length = maxPolls)
    (hbusy : ∀ a ∈ reads, a.tellsBusy base = true) : GivesUp base (earlier ++ reads) := by
  have hdrop : (earlier ++ reads).drop ((earlier ++ reads).length - maxPolls) = reads := by
    rw [List.length_append, hlength, Nat.add_sub_cancel, List.drop_left]
  refine ⟨?_, fun a ha => hbusy a (hdrop ▸ ha)⟩
  rw [List.length_append, hlength]
  exact Nat.le_add_left ..

namespace SerialPort

theorem tellsBusy_lineStatus (base : UInt16) (status : UInt32) :
    (Access.input .w8 (base + Register.lineStatus) status).tellsBusy base = !isReady status := by
  simp [Access.tellsBusy]

namespace Transmission

variable {bytes : Bytes} {attempts : List Attempt} {all : Bool}

/-- Writing gives up the device exactly if it does not get through. -/
theorem givesUp_iff (h : Transmission bytes attempts all) {earlier : List Access}
    (hearlier : ∀ a ∈ earlier.getLast?, a.tellsBusy base = false) :
    GivesUp base (earlier ++ attempts.flatMap (Attempt.accesses base)) ↔ all = false := by
  induction h generalizing earlier with
  | done =>
    rw [List.flatMap_nil, List.append_nil]
    exact iff_of_false (not_givesUp_of_getLast? hearlier) (by decide)
  | @sent a _ attempts _ _ hsent _ ih =>
    rw [List.flatMap_cons, ← List.append_assoc]
    refine ih ?_
    rw [Attempt.accesses, if_pos hsent, ← List.append_assoc, List.getLast?_concat]
    rintro _ ⟨⟩
    rfl
  | @dropped a hpolled hdropped bytes =>
    have hreads : a.accesses base =
        a.statuses.map (.input .w8 (base + Register.lineStatus)) := by
      rw [Attempt.accesses, hdropped]
      exact List.append_nil _
    rw [List.flatMap_singleton, hreads]
    refine iff_of_true (givesUp_append ?_ fun access haccess => ?_) rfl
    · rw [List.length_map]
      exact hpolled.length_of_not_ready hdropped
    · obtain ⟨status, hstatus, rfl⟩ := List.mem_map.mp haccess
      have hbusy : isReady status ≠ true := fun hready => by
        rw [hpolled.ready_iff.mpr ⟨status, hstatus, hready⟩] at hdropped
        cases hdropped
      rw [tellsBusy_lineStatus, Bool.eq_false_iff.mpr hbusy]
      rfl

/-- For every byte there is an access. -/
theorem accesses_eq_nil_iff (h : Transmission bytes attempts all) :
    attempts.flatMap (Attempt.accesses base) = [] ↔ bytes = [] := by
  have hattempt {a : Attempt} (hpolled : Polled maxPolls a.statuses a.sent)
      (more : List Access) : a.accesses base ++ more ≠ [] := fun hnil => by
    have hreads := (List.append_eq_nil_iff.mp (List.append_eq_nil_iff.mp hnil).1).1
    exact hpolled.ne_nil (by decide) (List.map_eq_nil_iff.mp hreads)
  cases h with
  | done => exact iff_of_true rfl rfl
  | sent hpolled hsent rest => exact iff_of_false (hattempt hpolled _) (List.cons_ne_nil _ _)
  | dropped hpolled hdropped bytes =>
    exact iff_of_false (hattempt hpolled _) (List.cons_ne_nil _ _)

end Transmission

theorem withReturns_utf8_eq_nil_iff (text : String) :
    withReturns (Text.utf8 text) = [] ↔ text = "" := by
  have hreturns : withReturns (Text.utf8 text) = [] ↔ Text.utf8 text = [] := by
    rw [withReturns, List.flatMap_eq_nil_iff, List.eq_nil_iff_forall_not_mem]
    refine forall₂_congr fun b _ => iff_of_false ?_ id
    split <;> exact List.cons_ne_nil _ _
  rw [hreturns, ← List.length_eq_zero_iff, ← String.utf8ByteSize_eq_zero_iff]
  rfl

/-- What becomes of a functional port, and of the accesses so far, when a text is written. -/
theorem writeText_traced {port : SerialPort} (h : port.functional = true) (bus : Bus σ)
    (text : String) {s : σ × List Access}
    (hs : ∀ a ∈ s.2.getLast?, a.tellsBusy port.base = false) :
    let written := writeText bus.traced port text s
    written.1.base = port.base ∧
      (written.1.functional = true ↔ ¬ GivesUp port.base written.2.2) ∧
      (written.2.2 = s.2 ↔ text = "") := by
  obtain ⟨attempts, all, htransmission, hadded, hport⟩ :=
    writeBytes_traced h bus (withReturns (Text.utf8 text)) s
  have hwritten : writeText bus.traced port text s =
      writeBytes bus.traced port (withReturns (Text.utf8 text)) s := rfl
  rw [hwritten]
  refine ⟨(grows_writeText bus port text s).1, ?_, ?_⟩
  · rw [hadded, hport, htransmission.givesUp_iff hs, Bool.not_eq_false]
    cases all with
    | true => exact iff_of_true h rfl
    | false => exact Iff.rfl
  · rw [hadded, List.append_right_eq_self, htransmission.accesses_eq_nil_iff,
      withReturns_utf8_eq_nil_iff]

end SerialPort

namespace Console

/-! ## The outlet -/

/-- The base port of the device that the output of a console goes to, if it goes to any. -/
def outlet? (c : Console) : Option UInt16 := (c.port.filter (·.functional)).map (·.base)

/-- What is left of an outlet after accesses: nothing if they give the device up. -/
def keptBy (accesses : List Access) (outlet : Option UInt16) : Option UInt16 :=
  outlet.filter fun base => ¬ GivesUp base accesses

theorem outlet?_of_port {c : Console} {port : SerialPort} (h : c.port = some port) :
    c.outlet? = if port.functional then some port.base else none := by
  rw [outlet?, h, Option.filter_some]
  cases port.functional with
  | true => rfl
  | false => rfl

theorem keptBy_nil (outlet : Option UInt16) : keptBy [] outlet = outlet := by
  have hkept (base : UInt16) : ¬ GivesUp base [] := not_givesUp_of_getLast? (by simp)
  cases outlet with
  | none => rfl
  | some base => rw [keptBy, Option.filter_some, if_pos (decide_eq_true (hkept base))]

/-- A console that prints a text, if it has an outlet: the accesses go there, and there are some
    unless the text is empty. -/
structure Voices (text : String) (c : Console) (accesses : List Access) (c' : Console) : Prop where
  outlet?_eq : c'.outlet? = keptBy accesses c.outlet?
  eq_nil_iff : accesses = [] ↔ c.outlet? = none ∨ text = ""
  atDevice : ∀ base ∈ c.outlet?, ∀ a ∈ accesses, a.AtDevice base

theorem Voices.silent {c c' : Console} {text : String} (h : c.outlet? = none ∨ text = "")
    (hport : c'.port = c.port) : Voices text c [] c' where
  outlet?_eq := by rw [keptBy_nil, outlet?, outlet?, hport]
  eq_nil_iff := iff_of_true rfl h
  atDevice := by simp

theorem voices_print (bus : Bus σ) (c : Console) (text : String) (s : σ) :
    let printed := c.print bus.traced text (s, [])
    Voices text c printed.2.2 printed.1 := by
  intro printed
  cases hport : c.port with
  | none =>
    have hprinted : printed = (c, s, []) := print_of_no_port hport ..
    rw [hprinted]
    exact .silent (.inl (by rw [outlet?, hport]; rfl)) rfl
  | some port =>
    have hprinted : printed = ({ c with port := some (port.writeText bus.traced text (s, [])).1 },
        (port.writeText bus.traced text (s, [])).2) := print_of_port hport ..
    rw [hprinted]
    cases hfunctional : port.functional with
    | false =>
      have hidle : port.writeText bus.traced text (s, []) = (port, s, []) :=
        writeBytes_of_not_functional hfunctional ..
      rw [hidle]
      exact .silent (.inl (by rw [outlet?_of_port hport, hfunctional]; rfl)) hport.symm
    | true =>
      obtain ⟨hbase, hkept, hnil⟩ := writeText_traced hfunctional bus text (s := (s, [])) (by simp)
      obtain ⟨-, added, hadded, hdevice⟩ := grows_writeText bus port text (s, [])
      have houtlet : c.outlet? = some port.base := by
        rw [outlet?_of_port hport, hfunctional]
        rfl
      refine ⟨?_, ?_, ?_⟩
      · rw [houtlet, outlet?_of_port rfl, hbase, keptBy, Option.filter_some]
        simp only [hkept, decide_eq_true_eq]
      · rw [houtlet, or_iff_right (Option.some_ne_none _)]
        exact hnil
      · rw [houtlet]
        rintro _ ⟨⟩
        rw [hadded]
        exact hdevice.atDevice

/-- An operation voices its text, if it has one. -/
theorem voices_perform (bus : Bus σ) {c : Console} {before : List Operation}
    (hlogger : c.logger = installed? before) (op : Operation) (s : σ) :
    let done := perform bus.traced (c, (s, [])) op
    Voices ((op.text? before).getD "") c done.2.2 done.1 := by
  intro done
  have hlogger : ((c, (s, [])) : Console × (σ × List Access)).1.logger = _ := hlogger
  cases hop : op.text? before with
  | none =>
    obtain ⟨hport, hsame⟩ := perform_of_silent hlogger hop bus.traced
    rw [show done.2 = _ from hsame]
    exact .silent (.inr rfl) hport
  | some text =>
    rw [show done = _ from perform_of_text hlogger hop bus.traced]
    exact voices_print bus c text s

/-- A start that finds its device makes it the outlet, unless it is given up at once. -/
theorem outlet?_of_start {bus : Bus σ} {c c' : Console} {baud : UInt32} {s s' : σ} {found : Bool}
    {accesses : List Access}
    (h : start bus.traced c base baud (s, []) = some (found, c', s', accesses)) :
    c'.logger = c.logger ∧
      c'.outlet? = if found then keptBy accesses (some base) else c.outlet? := by
  obtain ⟨port, after, hstart, ⟨rfl, hfunctional, rfl, hafter⟩ | ⟨rfl, -, rfl, -⟩⟩ := start_cases h
  case inr => exact ⟨rfl, rfl⟩
  obtain ⟨hsame, probe, -, -, hfound⟩ := traced_of_start hstart
  have hbase : port.base = base := hsame
  -- What comes before the greeting ends with a write to the modem control register.
  have hprogrammed : ∀ a ∈ after.2.getLast?, a.tellsBusy port.base = false := by
    rw [hfound hfunctional, ← List.append_assoc, programming, setup]
    simp [Access.tellsBusy]
  obtain ⟨hwritten, hkept, -⟩ := writeText_traced hfunctional bus banner hprogrammed
  rw [← hafter, hbase] at hkept
  refine ⟨rfl, ?_⟩
  rw [outlet?_of_port rfl, hwritten, hbase, if_pos rfl, keptBy, Option.filter_some]
  simp only [hkept, decide_eq_true_eq]

/-! ## Histories -/

/-- A thing done with a console, and the accesses that it made: a start with its answer, or another
    operation. -/
inductive Entry
  | start (base : UInt16) (baud : UInt32) (found : Bool) (accesses : List Access)
  | use (op : Operation) (accesses : List Access)

namespace Entry

/-- The entry is a start that found its device. -/
def finds : Entry → Bool
  | start _ _ found _ => found
  | use .. => false

/-- The operation of an entry that is no start. -/
def operation? : Entry → Option Operation
  | start .. => none
  | use op _ => some op

/-- The outlet after an entry, if the one before it is known. -/
def outletAfter? (outlet : Option UInt16) : Entry → Option UInt16
  | start base _ found accesses => if found then keptBy accesses (some base) else outlet
  | use _ accesses => keptBy accesses outlet

end Entry

/-- The operations in a history. -/
def operations (entries : List Entry) : List Operation := entries.filterMap Entry.operation?

/-- The outlet of a console with a history: the device of the last start that found one, as long as
    it is not given up. -/
def outletAfter? (entries : List Entry) : Option UInt16 :=
  entries.foldl Entry.outletAfter? none

/-- A console and its machine go through a history. There is no entry for a start at a port whose
    registers do not all have an address: it ends every history. -/
inductive History (bus : Bus σ) : Console × σ → List Entry → Console × σ → Prop
  | done (s : Console × σ) : History bus s [] s
  | start {c c' : Console} {s s' : σ} {last : Console × σ} {base : UInt16} {baud : UInt32}
      {found : Bool} {accesses : List Access} {entries : List Entry}
      (h : Console.start bus.traced c base baud (s, []) = some (found, c', s', accesses))
      (rest : History bus (c', s') entries last) :
      History bus (c, s) (.start base baud found accesses :: entries) last
  | use {c c' : Console} {s s' : σ} {last : Console × σ} {op : Operation}
      {accesses : List Access} {entries : List Entry}
      (h : perform bus.traced (c, (s, [])) op = (c', s', accesses))
      (rest : History bus (c', s') entries last) :
      History bus (c, s) (.use op accesses :: entries) last

namespace History

variable {bus : Bus σ} {s last : Console × σ} {entries more : List Entry}

theorem split (h : History bus s (entries ++ more) last) :
    ∃ middle, History bus s entries middle ∧ History bus middle more last := by
  induction entries generalizing s with
  | nil => exact ⟨s, .done s, h⟩
  | cons entry entries ih =>
    cases h with
    | start h rest =>
      obtain ⟨middle, hfirst, hlast⟩ := ih rest
      exact ⟨middle, .start h hfirst, hlast⟩
    | use h rest =>
      obtain ⟨middle, hfirst, hlast⟩ := ih rest
      exact ⟨middle, .use h hfirst, hlast⟩

/-- What a history leaves: the first logger, and the outlet. -/
theorem outlet?_eq (h : History bus s entries last) {before : List Operation}
    (hlogger : s.1.logger = installed? before) :
    last.1.logger = installed? (before ++ operations entries) ∧
      last.1.outlet? = entries.foldl Entry.outletAfter? s.1.outlet? := by
  induction h generalizing before with
  | done s => exact ⟨by rw [operations, List.filterMap_nil, List.append_nil, hlogger], rfl⟩
  | @start c c' s s' last base baud found accesses entries h rest ih =>
    obtain ⟨hsame, houtlet⟩ := outlet?_of_start h
    obtain ⟨hlast, hleft⟩ := ih (hsame.trans hlogger)
    exact ⟨hlast, hleft.trans (congrArg (entries.foldl Entry.outletAfter?) houtlet)⟩
  | @use c c' s s' last op accesses entries h rest ih =>
    have hvoices := voices_perform bus hlogger op s
    have hinstalled := logger_perform bus.traced (c, (s, [])) op
    rw [h] at hvoices hinstalled
    have hnext : c'.logger = installed? (before ++ [op]) := by
      rw [hinstalled, installed?_append, ← hlogger]
    obtain ⟨hlast, hleft⟩ := ih hnext
    refine ⟨?_, hleft.trans (congrArg (entries.foldl Entry.outletAfter?) hvoices.outlet?_eq)⟩
    rw [hlast, List.append_assoc]
    rfl

end History

/-- Without a start that finds a device an outlet can only be lost. -/
theorem eq_some_of_mem_outletAfter? {entries : List Entry}
    (hlost : ∀ entry ∈ entries, entry.finds = false) {outlet : Option UInt16}
    (h : base ∈ entries.foldl Entry.outletAfter? outlet) : outlet = some base := by
  induction entries generalizing outlet with
  | nil => exact h
  | cons entry entries ih =>
    obtain ⟨hentry, hentries⟩ := List.forall_mem_cons.mp hlost
    have hnext := ih hentries h
    cases entry with
    | start port baud found accesses =>
      rwa [Entry.outletAfter?, show found = false from hentry] at hnext
    | use op accesses => exact (Option.filter_eq_some_iff.mp hnext).1

/-- **What is printed after a start that failed.** A console has a history, in which a start finds no
    device, and after it none finds one up to a use of the console. Then the use makes an access
    exactly if it prints something and the console has an outlet, which is the one from before the
    failed start unless it was given up since. So all output is dropped if the console had no outlet
    before that start, and otherwise it goes where it went before. -/
theorem accesses_after_lost {bus : Bus σ} {s : σ} {last : Console × σ}
    {before between : List Entry} {baud : UInt32} {probe accesses : List Access} {op : Operation}
    (h : History bus ({}, s)
      (before ++ .start base baud false probe :: (between ++ [.use op accesses])) last)
    (hlost : ∀ entry ∈ between, entry.finds = false) :
    let printed := (op.text? (operations (before ++ between))).getD ""
    (outletAfter? before = none → accesses = []) ∧
    (accesses = [] ↔ outletAfter? (before ++ between) = none ∨ printed = "") ∧
    ∀ outlet ∈ outletAfter? (before ++ between),
      outletAfter? before = some outlet ∧ ∀ a ∈ accesses, a.AtDevice outlet := by
  intro printed
  have hsplit : before ++ .start base baud false probe :: (between ++ [.use op accesses]) =
      (before ++ .start base baud false probe :: between) ++ [.use op accesses] := by
    rw [List.append_assoc, List.cons_append]
  rw [hsplit] at h
  obtain ⟨⟨c, t⟩, hnow, huse⟩ := h.split
  have hfresh : ({} : Console).logger = installed? [] := rfl
  obtain ⟨hlogger, houtlet⟩ := hnow.outlet?_eq hfresh
  have hsame : operations (before ++ .start base baud false probe :: between) =
      operations (before ++ between) := by
    rw [operations, operations, List.filterMap_append, List.filterMap_append]
    rfl
  -- The failed start is passed over by the fold.
  have hpassed : c.outlet? = between.foldl Entry.outletAfter? (outletAfter? before) := by
    rw [houtlet, List.foldl_append]
    rfl
  have hbetween : outletAfter? (before ++ between) = c.outlet? := by
    rw [hpassed, outletAfter?, List.foldl_append]
    rfl
  rw [List.nil_append, hsame] at hlogger
  have hvoices := voices_perform bus hlogger op t
  have hkept {outlet : UInt16} (houtlet : c.outlet? = some outlet) :
      outletAfter? before = some outlet :=
    eq_some_of_mem_outletAfter? hlost (hpassed ▸ houtlet)
  cases huse with
  | use hperform =>
    rw [hperform] at hvoices
    rw [hbetween]
    refine ⟨fun hnone => hvoices.eq_nil_iff.mpr (.inl ?_), hvoices.eq_nil_iff, fun outlet hmem => ?_⟩
    · refine Option.eq_none_iff_forall_ne_some.mpr fun outlet hsome => ?_
      rw [hkept hsome] at hnone
      cases hnone
    · exact ⟨hkept hmem, hvoices.atDevice outlet hmem⟩

/-- A machine with one serial device. -/
def oneDevice : Machine := { uarts := [{ base := 0x3f8 }] }

/-- What a device that is ready gets of a text of one letter. -/
def letterSent : List Access := [.input .w8 0x3fd 0x60, .output 0x3f8 0x78]

/-- A console is started on its device, then at a port without one, and prints a letter. -/
theorem exists_lostStart :
    ∃ greeting probe last, History Machine.bus ({}, oneDevice) [.start 0x3f8 115200 true greeting,
      .start 0x2f8 115200 false probe, .use (.print "x") letterSent] last := by
  let restarted (c : Console) (m : Machine) := start Machine.bus.traced c 0x2f8 115200 (m, [])
  let printed (c : Console) (m : Machine) := perform Machine.bus.traced (c, (m, [])) (.print "x")
  have hrun : (start Machine.bus.traced {} 0x3f8 115200 (oneDevice, [])).any (fun first =>
      first.1 && (restarted first.2.1 first.2.2.1).any fun second =>
        !second.1 && decide ((printed second.2.1 second.2.2.1).2.2 = letterSent)) = true := by
    decide +kernel
  obtain ⟨⟨_ | _, c, m, greeting⟩, hfirst, hrun⟩ := (Option.any_eq_true _ _).mp hrun
  case false => cases hrun
  obtain ⟨⟨_ | _, c', m', probe⟩, hsecond, hprint⟩ := (Option.any_eq_true _ _).mp hrun
  case true => cases hprint
  have hprint : printed c' m' = ((printed c' m').1, (printed c' m').2.1, letterSent) :=
    Prod.ext rfl (Prod.ext rfl (of_decide_eq_true hprint))
  exact ⟨greeting, probe, _, .start hfirst (.start hsecond (.use hprint (.done _)))⟩

/-- The letter goes to the device that the console was started on. -/
theorem accesses_after_lost_letter :
    ∃ greeting probe last, History Machine.bus ({}, oneDevice) [.start 0x3f8 115200 true greeting,
        .start 0x2f8 115200 false probe, .use (.print "x") letterSent] last ∧
      outletAfter? [.start 0x3f8 115200 true greeting] = some 0x3f8 ∧
      ∀ a ∈ letterSent, a.AtDevice 0x3f8 := by
  obtain ⟨greeting, probe, last, h⟩ := exists_lostStart
  refine ⟨greeting, probe, last, h, ?_⟩
  have hsplit : History Machine.bus ({}, oneDevice) ([.start 0x3f8 115200 true greeting] ++
      .start 0x2f8 115200 false probe :: ([] ++ [.use (.print "x") letterSent])) last := h
  obtain ⟨hdropped, -, hdevice⟩ := accesses_after_lost hsplit (by simp)
  obtain ⟨outlet, houtlet⟩ :=
    Option.ne_none_iff_exists'.mp (mt hdropped (List.cons_ne_nil _ _))
  have hkept : keptBy greeting (some 0x3f8) = some outlet := houtlet
  obtain rfl : 0x3f8 = outlet := Option.some.inj (Option.filter_eq_some_iff.mp hkept).1
  exact ⟨houtlet, (hdevice _ houtlet).2⟩

/-- A start that fails does not silence a console. -/
theorem not_silent_after_lost :
    ¬ ∀ (m : Machine) (last : Console × Machine) (before between : List Entry) (base : UInt16)
      (baud : UInt32) (probe accesses : List Access) (op : Operation),
      History Machine.bus ({}, m)
        (before ++ .start base baud false probe :: (between ++ [.use op accesses])) last →
      (∀ entry ∈ between, entry.finds = false) → accesses = [] := by
  intro hsilent
  obtain ⟨greeting, probe, last, h⟩ := exists_lostStart
  have hnil := hsilent oneDevice last [.start 0x3f8 115200 true greeting] [] 0x2f8 115200 probe
    letterSent (.print "x") h (by simp)
  cases hnil

end Console

end BootHandoff
