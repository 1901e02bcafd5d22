/-
  Procedures that start with writing. `Writes p hobs rest`: before anything else the procedure `p`
  publishes the blocks `hobs`, in order, with log records between them, and then goes on as `rest`.
  Neither memory nor ports have a say in it, so that the same holds whoever the host is and
  whatever the sink does with memory.
-/
import BootHandoff.Procedure

namespace BootHandoff.Procedure

variable {ε α β ι : Type}

/-- The procedure publishes blocks, in order, and goes on as another one. -/
inductive Writes : Procedure ε α → List Hob → Procedure ε α → Prop
  | rest (p : Procedure ε α) : Writes p [] p
  | note {r : Record} {next rest : Procedure ε α} {hobs : List Hob} (h : Writes next hobs rest) :
      Writes (.note r next) hobs rest
  | publish {hob : Hob} {next rest : Procedure ε α} {hobs : List Hob}
      (h : Writes next hobs rest) : Writes (.publish hob next) (hob :: hobs) rest

namespace Writes

variable {p : Procedure ε α} {f : α → Procedure ε β} {rest : Procedure ε β} {a : α}
  {hobs more : List Hob}

/-- What comes after a part that writes and gives a value. -/
theorem bind (hp : Writes p hobs (.done a)) (hf : Writes (f a) more rest) :
    Writes (p >>= f) (hobs ++ more) rest := by
  show Writes (p.bind f) (hobs ++ more) rest
  generalize he : Procedure.done a = last at hp
  induction hp with
  | rest p =>
    subst he
    exact hf
  | note h ih => exact .note (ih he)
  | publish h ih => exact .publish (ih he)

/-- A part that writes, with nothing said of what comes after it. -/
theorem bind_rest (hp : Writes p hobs (.done a)) (f : α → Procedure ε β) :
    Writes (p >>= f) hobs (f a) := by
  simpa using hp.bind (.rest (f a))

/-- A part that only logs. -/
theorem silent_bind (hp : Writes p [] (.done a)) (hf : Writes (f a) more rest) :
    Writes (p >>= f) more rest := by
  simpa using hp.bind hf

end Writes

theorem writes_log (source : Source) (level : Level) (message : String) :
    Writes (log source level message : Procedure ε Unit) [] (.done ()) := .note (.rest _)

theorem writes_emit (hob : Hob) : Writes (emit hob : Procedure ε Unit) [hob] (.done ()) :=
  .publish (.rest _)

/-- A loop writes what its rounds write, one round after another. -/
theorem writes_forM {f : ι → Procedure ε Unit} {g : ι → List Hob}
    (h : ∀ i, Writes (f i) (g i) (.done ())) (items : List ι) :
    Writes (items.forM f) (items.flatMap g) (.done ()) := by
  induction items with
  | nil => exact .rest _
  | cons i items ih => exact (h i).bind ih

theorem writes_forM_emit (hobs : List Hob) :
    Writes (hobs.forM emit : Procedure ε Unit) hobs (.done ()) := by
  simpa using writes_forM writes_emit hobs

end BootHandoff.Procedure
