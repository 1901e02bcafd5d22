/-
  What a procedure sends. `Sends mem p hobs outcome`: over the memory `mem` the procedure `p`
  publishes the blocks `hobs`, in order, and ends with `outcome`, whatever its reads of ports
  give. A run of such a procedure hands the blocks to its sink one after another (`run_of_sends`),
  so that what a sink holds in the end, and how the run ends, depends on the blocks alone.
-/
import BootHandoff.Proofs.Procedure.Writing

namespace BootHandoff

/-! ## Sinks -/

/-- A sink to which blocks are handed in order, up to the first one that it refuses: its state and
    the refusal, if there is one. -/
def Sink.deliver {κ : Type} (sink : Sink κ) : κ → List Hob → κ × Option HobError
  | k, [] => (k, none)
  | k, hob :: hobs =>
    match sink.append k hob with
    | .ok k => sink.deliver k hobs
    | .error e => (k, some e)

/-- A recorder without a capacity keeps all. -/
theorem Sink.deliver_recorder (held hobs : List Hob) :
    (Sink.recorder none).deliver held hobs = (held ++ hobs, none) := by
  induction hobs generalizing held with
  | nil => rw [deliver, List.append_nil]
  | cons hob hobs ih =>
    rw [List.append_cons]
    exact ih (held ++ [hob])

namespace Procedure

variable {ε α β σ κ ι : Type}

/-! ## Sending -/

/-- Over a memory, a procedure sends blocks in order and ends in one way, whatever its reads of
    ports give. -/
inductive Sends (mem : Memory) : Procedure ε α → List Hob → Except (Fault ε) α → Prop
  | done (a : α) : Sends mem (.done a) [] (.ok a)
  | stop (fault : Fault ε) : Sends mem (.stop fault) [] (.error fault)
  | note {r : Record} {next : Procedure ε α} {hobs : List Hob} {outcome : Except (Fault ε) α}
      (h : Sends mem next hobs outcome) : Sends mem (.note r next) hobs outcome
  | readPort {width : PortWidth} {port : UInt16} {next : UInt32 → Procedure ε α}
      {hobs : List Hob} {outcome : Except (Fault ε) α}
      (h : ∀ v, Sends mem (next v) hobs outcome) :
      Sends mem (.readPort width port next) hobs outcome
  | withMemory {next : Memory → Procedure ε α} {hobs : List Hob}
      {outcome : Except (Fault ε) α} (h : Sends mem (next mem) hobs outcome) :
      Sends mem (.withMemory next) hobs outcome
  | publish {hob : Hob} {next : Procedure ε α} {hobs : List Hob}
      {outcome : Except (Fault ε) α} (h : Sends mem next hobs outcome) :
      Sends mem (.publish hob next) (hob :: hobs) outcome

namespace Sends

variable {mem : Memory} {p : Procedure ε α} {f : α → Procedure ε β} {a : α}
  {hobs more : List Hob} {outcome : Except (Fault ε) β} {fault : Fault ε}

theorem bind (hp : Sends mem p hobs (.ok a)) (hf : Sends mem (f a) more outcome) :
    Sends mem (p >>= f) (hobs ++ more) outcome := by
  show Sends mem (p.bind f) (hobs ++ more) outcome
  generalize he : (Except.ok a : Except (Fault ε) α) = result at hp
  induction hp with
  | done b => cases he; exact hf
  | stop fault => cases he
  | note h ih => exact .note (ih he)
  | readPort h ih => exact .readPort fun v => ih v he
  | withMemory h ih => exact .withMemory (ih he)
  | publish h ih => exact .publish (ih he)

/-- What fails goes no further. -/
theorem bind_error (hp : Sends mem p hobs (.error fault)) (f : α → Procedure ε β) :
    Sends mem (p >>= f) hobs (.error fault) := by
  show Sends mem (p.bind f) hobs (.error fault)
  generalize he : (Except.error fault : Except (Fault ε) α) = result at hp
  induction hp with
  | done b => cases he
  | stop fault => cases he; exact .stop _
  | note h ih => exact .note (ih he)
  | readPort h ih => exact .readPort fun v => ih v he
  | withMemory h ih => exact .withMemory (ih he)
  | publish h ih => exact .publish (ih he)

/-- A step that sends nothing. -/
theorem silent_bind (hp : Sends mem p [] (.ok a)) (hf : Sends mem (f a) more outcome) :
    Sends mem (p >>= f) more outcome := by
  simpa using hp.bind hf

/-- A value given at the end sends nothing. -/
theorem then_pure (hp : Sends mem p hobs (.ok a)) (b : β) :
    Sends mem (p >>= fun _ => pure b) hobs (.ok b) := by
  simpa using hp.bind (f := fun _ => pure b) (.done b)

end Sends

variable (mem : Memory)

variable {mem} in
/-- What is written first is sent first. -/
theorem Writes.sends {p rest : Procedure ε α} {hobs more : List Hob}
    {outcome : Except (Fault ε) α} (hp : Writes p hobs rest) (h : Sends mem rest more outcome) :
    Sends mem p (hobs ++ more) outcome := by
  induction hp with
  | rest p => exact h
  | note hp ih => exact .note (ih h)
  | publish hp ih => exact .publish (ih h)

/-- A procedure that does nothing but write. -/
theorem Writes.sends_all {p : Procedure ε α} {hobs : List Hob} {a : α}
    (hp : Writes p hobs (.done a)) : Sends mem p hobs (.ok a) := by
  have hdone : Sends mem (.done a : Procedure ε α) [] (.ok a) := .done a
  have h := hp.sends hdone
  rwa [List.append_nil] at h

theorem sends_ofLogged (x : Logged ε α) : Sends mem (ofLogged x) [] x.outcome := by
  obtain ⟨records, outcome⟩ := x
  unfold ofLogged
  induction records with
  | nil =>
    cases outcome with
    | ok a => exact .done a
    | error fault => exact .stop fault
  | cons r records ih => exact .note ih

theorem sends_examine (reader : Memory → Logged ε α) :
    Sends mem (examine reader) [] (reader mem).outcome := .withMemory (sends_ofLogged mem _)

/-! ## Running -/

/-- How a run ends that sent blocks, given the refusal of its sink and the end it would have come
    to without one. -/
def endOfRun (refusal : Option HobError) (outcome : Except (Fault ε) α) :
    Except (Fault (StopCause ε)) α :=
  match refusal with
  | some e => .error (.cause (.refused e))
  | none => outcome.mapError faultOf

/-- A run hands the blocks to the sink in order, up to a refusal, whoever is the host. -/
theorem run_of_sends {mem : Memory} {p : Procedure ε α} {hobs : List Hob}
    {outcome : Except (Fault ε) α} (h : Sends mem p hobs outcome) (host : Host σ)
    (sink : Sink κ) (s : σ) (k : κ) :
    (p.run host sink (fun _ => mem) s k).sink = (sink.deliver k hobs).1 ∧
      (p.run host sink (fun _ => mem) s k).outcome =
        endOfRun (sink.deliver k hobs).2 outcome := by
  induction h generalizing s k with
  | done a => exact ⟨rfl, rfl⟩
  | stop fault => exact ⟨rfl, rfl⟩
  | note h ih => exact ih _ _
  | readPort h ih => exact ih _ _ _
  | withMemory h ih => exact ih _ _
  | @publish hob next hobs outcome h ih =>
    rw [run, Sink.deliver]
    cases sink.append k hob with
    | ok k' => exact ih _ _
    | error e => exact ⟨rfl, rfl⟩

end Procedure

end BootHandoff
