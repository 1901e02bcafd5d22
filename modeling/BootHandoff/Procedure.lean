/-
  Procedures of the hand-off. A procedure writes log records, reads memory and I/O ports and
  publishes blocks, one step after another, and ends with a value or a fault. What it does next
  depends on nothing but the values read. Who logs and answers the reads of ports (a `Host`),
  where the blocks go (a `Sink`) and what is in memory once they are there is chosen when it is
  run; a block that the sink refuses ends the run.
-/
import BootHandoff.Hob.Sink
import BootHandoff.Memory
import BootHandoff.Ports

namespace BootHandoff

/-- A procedure with failures in `ε` and values in `α`. -/
inductive Procedure (ε α : Type)
  | done (a : α)
  | stop (fault : Fault ε)
  | note (r : Record) (next : Procedure ε α)
  | readPort (width : PortWidth) (port : UInt16) (next : UInt32 → Procedure ε α)
  /-- Goes on with the memory as it is at this step. -/
  | withMemory (next : Memory → Procedure ε α)
  | publish (hob : Hob) (next : Procedure ε α)

namespace Procedure

variable {ε α β σ κ : Type}

/-- One procedure after another. -/
protected def bind : Procedure ε α → (α → Procedure ε β) → Procedure ε β
  | done a, f => f a
  | stop fault, _ => stop fault
  | note r next, f => note r (next.bind f)
  | readPort width port next, f => readPort width port fun v => (next v).bind f
  | withMemory next, f => withMemory fun mem => (next mem).bind f
  | publish hob next, f => publish hob (next.bind f)

instance : Monad (Procedure ε) where
  pure := done
  bind := Procedure.bind

/-- The procedure that writes the log of a run and ends as it ended. -/
def ofLogged (x : Logged ε α) : Procedure ε α :=
  x.records.foldr note <|
    match x.outcome with
    | .ok a => done a
    | .error fault => stop fault

instance : MonadLift (Logged ε) (Procedure ε) where
  monadLift := ofLogged

/-- Writes one record. -/
def log (source : Source) (level : Level) (message : String) : Procedure ε Unit :=
  note (.of source level message) (done ())

/-- Reads a port. -/
def readFrom (width : PortWidth) (port : UInt16) : Procedure ε UInt32 :=
  readPort width port done

/-- Runs a reader of memory on the memory as it is at this step. -/
def examine (reader : Memory → Logged ε α) : Procedure ε α :=
  withMemory fun mem => ofLogged (reader mem)

/-- Publishes one block. -/
def emit (hob : Hob) : Procedure ε Unit := publish hob (done ())

/-! ## Running -/

/-- What logs the records of a procedure and answers its reads, with states in `σ`. -/
structure Host (σ : Type) where
  note : Record → σ → σ
  readPort : PortWidth → UInt16 → σ → UInt32 × σ

/-- What ends a run other than an overflow. -/
inductive StopCause (ε : Type)
  /-- The sink refused a block. -/
  | refused (e : HobError)
  /-- The procedure failed. -/
  | failed (e : ε)
deriving DecidableEq, Repr

/-- The end of a run: the states of host and sink, and the result. -/
structure Run (σ κ ε α : Type) where
  host : σ
  sink : κ
  outcome : Except (Fault (StopCause ε)) α

/-- A fault of the procedure as the end of a run. -/
def faultOf : Fault ε → Fault (StopCause ε)
  | .overflow => .overflow
  | .cause e => .cause (.failed e)

/-- Runs a procedure from a state of the host and a state of the sink. The memory is a function
    of the state of the sink, as the sink may keep its blocks in memory. -/
def run (host : Host σ) (sink : Sink κ) (memory : κ → Memory) :
    Procedure ε α → σ → κ → Run σ κ ε α
  | done a, s, k => ⟨s, k, .ok a⟩
  | stop fault, s, k => ⟨s, k, .error (faultOf fault)⟩
  | note r next, s, k => run host sink memory next (host.note r s) k
  | readPort width port next, s, k =>
    let (v, s) := host.readPort width port s
    run host sink memory (next v) s k
  | withMemory next, s, k => run host sink memory (next (memory k)) s k
  | publish hob next, s, k =>
    match sink.append k hob with
    | .ok k => run host sink memory next s k
    | .error e =>
      ⟨(sink.complaints e).foldl (fun s r => host.note r s) s, k, .error (.cause (.refused e))⟩

theorem run_done (host : Host σ) (sink : Sink κ) (memory : κ → Memory) (a : α) (s : σ) (k : κ) :
    (pure a : Procedure ε α).run host sink memory s k = ⟨s, k, .ok a⟩ := rfl

theorem run_examine (host : Host σ) (sink : Sink κ) (memory : κ → Memory)
    (reader : Memory → Logged ε α) (s : σ) (k : κ) :
    (examine reader).run host sink memory s k =
      (ofLogged (reader (memory k))).run host sink memory s k := rfl

/-- A sequence runs its first part, and its second part from where the first one ended. -/
theorem run_bind (host : Host σ) (sink : Sink κ) (memory : κ → Memory) (p : Procedure ε α)
    (f : α → Procedure ε β) (s : σ) (k : κ) :
    (p >>= f).run host sink memory s k =
      match p.run host sink memory s k with
      | ⟨s', k', .ok a⟩ => (f a).run host sink memory s' k'
      | ⟨s', k', .error fault⟩ => ⟨s', k', .error fault⟩ := by
  show (p.bind f).run host sink memory s k = _
  induction p generalizing s k with
  | done a => rfl
  | stop fault => rfl
  | note r next ih => exact ih _ _
  | readPort width port next ih => exact ih _ _ _
  | withMemory next ih => exact ih _ _ _
  | publish hob next ih =>
    rw [Procedure.bind, run, run]
    cases sink.append k hob with
    | error e => rfl
    | ok k' => exact ih _ _

theorem bind_done (p : Procedure ε α) : p.bind done = p := by
  induction p with
  | done a => rfl
  | stop fault => rfl
  | note r next ih => rw [Procedure.bind, ih]
  | readPort width port next ih => rw [Procedure.bind]; exact congrArg _ (funext ih)
  | withMemory next ih => rw [Procedure.bind]; exact congrArg _ (funext ih)
  | publish hob next ih => rw [Procedure.bind, ih]

theorem bind_assoc (p : Procedure ε α) (f : α → Procedure ε β) {γ : Type}
    (g : β → Procedure ε γ) : (p.bind f).bind g = p.bind fun a => (f a).bind g := by
  induction p with
  | done a => rfl
  | stop fault => rfl
  | note r next ih => simp only [Procedure.bind, ih]
  | readPort width port next ih => simp only [Procedure.bind, ih]
  | withMemory next ih => simp only [Procedure.bind, ih]
  | publish hob next ih => simp only [Procedure.bind, ih]

instance : LawfulMonad (Procedure ε) :=
  LawfulMonad.mk' _ bind_done (fun _ _ => rfl) (fun p f g => bind_assoc p f g)

/-! ## A host that only observes -/

/-- What a run has logged and which ports it has read. -/
structure Observed where
  records : List Record := []
  reads : List (PortWidth × UInt16) := []
deriving DecidableEq, Repr

/-- The host over a port space in which reading has no effect. -/
def Host.observer (ports : PortSpace) : Host Observed where
  note r s := { s with records := s.records ++ [r] }
  readPort width port s :=
    (ports.read width port, { s with reads := s.reads ++ [(width, port)] })

end Procedure

end BootHandoff
