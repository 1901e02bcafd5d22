/-
  How a run ends, seen from the sink. `Ends sink memory p k reads k' outcome`: from the state `k`
  of the sink the procedure `p` reads the ports `reads`, in order, leaves the sink in the state
  `k'` and ends with `outcome`, whatever the ports give and whoever is the host. The memory may
  depend on what the sink holds. A run of such a procedure comes to that end with every host
  (`run_of_ends`), so that no two hosts can be told apart by it, and the ports read are what an
  observer notes (`reads_of_ends`).
-/
import BootHandoff.Proofs.Procedure.Sending

namespace BootHandoff

namespace Procedure

variable {ε α β σ κ : Type}

/-- From a state of the sink the procedure reads ports and comes to one end. -/
inductive Ends (sink : Sink κ) (memory : κ → Memory) :
    Procedure ε α → κ → List (PortWidth × UInt16) → κ →
      Except (Fault (StopCause ε)) α → Prop
  | done (a : α) (k : κ) : Ends sink memory (.done a) k [] k (.ok a)
  | stop (fault : Fault ε) (k : κ) : Ends sink memory (.stop fault) k [] k (.error (faultOf fault))
  | note {r : Record} {next : Procedure ε α} {k k' : κ} {reads : List (PortWidth × UInt16)}
      {outcome : Except (Fault (StopCause ε)) α}
      (h : Ends sink memory next k reads k' outcome) :
      Ends sink memory (.note r next) k reads k' outcome
  | readPort {width : PortWidth} {port : UInt16} {next : UInt32 → Procedure ε α} {k k' : κ}
      {reads : List (PortWidth × UInt16)} {outcome : Except (Fault (StopCause ε)) α}
      (h : ∀ v, Ends sink memory (next v) k reads k' outcome) :
      Ends sink memory (.readPort width port next) k ((width, port) :: reads) k' outcome
  | withMemory {next : Memory → Procedure ε α} {k k' : κ} {reads : List (PortWidth × UInt16)}
      {outcome : Except (Fault (StopCause ε)) α}
      (h : Ends sink memory (next (memory k)) k reads k' outcome) :
      Ends sink memory (.withMemory next) k reads k' outcome
  | accepted {hob : Hob} {next : Procedure ε α} {k k₁ k' : κ}
      {reads : List (PortWidth × UInt16)} {outcome : Except (Fault (StopCause ε)) α}
      (happend : sink.append k hob = .ok k₁) (h : Ends sink memory next k₁ reads k' outcome) :
      Ends sink memory (.publish hob next) k reads k' outcome
  | refused {hob : Hob} {next : Procedure ε α} {k : κ} {e : HobError}
      (happend : sink.append k hob = .error e) :
      Ends sink memory (.publish hob next) k [] k (.error (.cause (.refused e)))

variable {sink : Sink κ} {memory : κ → Memory}

/-! ## Putting procedures together -/

section

variable {p : Procedure ε α} {f : α → Procedure ε β} {a : α} {k k₁ k' : κ}
  {reads more : List (PortWidth × UInt16)} {outcome : Except (Fault (StopCause ε)) β}

theorem Ends.bind (hp : Ends sink memory p k reads k₁ (.ok a))
    (hf : Ends sink memory (f a) k₁ more k' outcome) :
    Ends sink memory (p >>= f) k (reads ++ more) k' outcome := by
  show Ends sink memory (p.bind f) k (reads ++ more) k' outcome
  generalize he : (Except.ok a : Except (Fault (StopCause ε)) α) = result at hp
  induction hp with
  | done b k => cases he; exact hf
  | stop fault k => cases he
  | note h ih => exact .note (ih hf he)
  | readPort h ih => exact .readPort fun v => ih v hf he
  | withMemory h ih => exact .withMemory (ih hf he)
  | accepted happend h ih => exact .accepted happend (ih hf he)
  | refused happend => cases he

/-- What ends with a fault goes no further. -/
theorem Ends.bind_error {fault : Fault (StopCause ε)}
    (hp : Ends sink memory p k reads k' (.error fault)) (f : α → Procedure ε β) :
    Ends sink memory (p >>= f) k reads k' (.error fault) := by
  show Ends sink memory (p.bind f) k reads k' (.error fault)
  generalize he : (Except.error fault : Except (Fault (StopCause ε)) α) = result at hp
  induction hp with
  | done b k => cases he
  | stop fault k => cases he; exact .stop _ _
  | note h ih => exact .note (ih he)
  | readPort h ih => exact .readPort fun v => ih v he
  | withMemory h ih => exact .withMemory (ih he)
  | accepted happend h ih => exact .accepted happend (ih he)
  | refused happend => cases he; exact .refused happend

end

section

variable {p rest : Procedure ε α} {hobs : List Hob} {k k₁ k' : κ}
  {reads : List (PortWidth × UInt16)} {outcome : Except (Fault (StopCause ε)) α}

/-- Where the sink takes what is written first, the end is that of the rest. -/
theorem Writes.ends (hp : Writes p hobs rest) (hd : sink.deliver k hobs = (k₁, none))
    (h : Ends sink memory rest k₁ reads k' outcome) :
    Ends sink memory p k reads k' outcome := by
  induction hp generalizing k with
  | rest p =>
    cases hd
    exact h
  | note hp ih => exact .note (ih hd h)
  | @publish hob next rest hobs hp ih =>
    rw [Sink.deliver] at hd
    cases happend : sink.append k hob with
    | ok k₂ =>
      rw [happend] at hd
      exact .accepted happend (ih hd h)
    | error e =>
      rw [happend] at hd
      cases hd

/-- Where the sink refuses some of what is written first, there the run ends. -/
theorem Writes.ends_refused {e : HobError} (hp : Writes p hobs rest)
    (hd : sink.deliver k hobs = (k', some e)) :
    Ends sink memory p k [] k' (.error (.cause (.refused e))) := by
  induction hp generalizing k with
  | rest p => cases hd
  | note hp ih => exact .note (ih hd)
  | @publish hob next rest hobs hp ih =>
    rw [Sink.deliver] at hd
    cases happend : sink.append k hob with
    | ok k₁ =>
      rw [happend] at hd
      exact .accepted happend (ih hd)
    | error e =>
      rw [happend] at hd
      cases hd
      exact .refused happend

end

theorem ends_ofLogged (x : Logged ε α) (k : κ) :
    Ends sink memory (ofLogged x) k [] k (x.outcome.mapError faultOf) := by
  obtain ⟨records, outcome⟩ := x
  unfold ofLogged
  induction records with
  | nil =>
    cases outcome with
    | ok a => exact .done a k
    | error fault => exact .stop fault k
  | cons r records ih => exact .note ih

theorem ends_examine (reader : Memory → Logged ε α) (k : κ) :
    Ends sink memory (examine reader) k [] k ((reader (memory k)).outcome.mapError faultOf) :=
  .withMemory (ends_ofLogged _ k)

section

variable {reader : Memory → Logged ε α} {a : α} {f : α → Procedure ε β} {k k' : κ}
  {reads : List (PortWidth × UInt16)} {outcome : Except (Fault (StopCause ε)) β}

theorem ends_examine_bind (h : (reader (memory k)).outcome = .ok a)
    (hf : Ends sink memory (f a) k reads k' outcome) :
    Ends sink memory (examine reader >>= f) k reads k' outcome := by
  have hread : Ends sink memory (examine reader) k [] k _ := ends_examine reader k
  rw [h] at hread
  exact hread.bind hf

theorem ends_examine_bind_error {fault : Fault ε}
    (h : (reader (memory k)).outcome = .error fault) (f : α → Procedure ε β) :
    Ends sink memory (examine reader >>= f) k [] k (.error (faultOf fault)) := by
  have hread : Ends sink memory (examine reader) k [] k _ := ends_examine reader k
  rw [h] at hread
  exact hread.bind_error f

end

/-! ## Running -/

variable {p : Procedure ε α} {k k' : κ} {reads : List (PortWidth × UInt16)}
  {outcome : Except (Fault (StopCause ε)) α}

/-- A run comes to that end, whoever is the host. -/
theorem run_of_ends (h : Ends sink memory p k reads k' outcome) (host : Host σ) (s : σ) :
    (p.run host sink memory s k).sink = k' ∧
      (p.run host sink memory s k).outcome = outcome := by
  induction h generalizing s with
  | done a k => exact ⟨rfl, rfl⟩
  | stop fault k => exact ⟨rfl, rfl⟩
  | note h ih => exact ih _
  | readPort h ih => exact ih _ _
  | withMemory h ih => exact ih _
  | accepted happend h ih =>
    rw [run, happend]
    exact ih s
  | refused happend =>
    rw [run, happend]
    exact ⟨rfl, rfl⟩

theorem reads_foldl_note (ports : PortSpace) (records : List Record) (s : Observed) :
    (records.foldl (fun s r => (Host.observer ports).note r s) s).reads = s.reads := by
  induction records generalizing s with
  | nil => rfl
  | cons r records ih => exact ih _

/-- An observer notes the reads of ports, whatever the ports give. -/
theorem reads_of_ends (h : Ends sink memory p k reads k' outcome) (ports : PortSpace)
    (s : Observed) :
    (p.run (Host.observer ports) sink memory s k).host.reads = s.reads ++ reads := by
  induction h generalizing s with
  | done a k => exact (List.append_nil _).symm
  | stop fault k => exact (List.append_nil _).symm
  | note h ih => exact ih _
  | readPort h ih =>
    rw [List.append_cons]
    exact ih _ _
  | withMemory h ih => exact ih _
  | accepted happend h ih =>
    rw [run, happend]
    exact ih s
  | refused happend =>
    rw [run, happend, List.append_nil]
    exact reads_foldl_note ports _ s

end Procedure

end BootHandoff
