/-
  Computations that keep a log and may stop. A run stops with a cause of its own, or because a sum
  of words left its range. The log is kept up to the point where a run stops. `outcome_bind` and
  `records_bind` say how two runs in sequence compose.
-/
import BootHandoff.Log

namespace BootHandoff

/-- Why a computation stops early. -/
inductive Fault (ε : Type)
  /-- A sum does not fit its word. -/
  | overflow
  /-- A failure of the task itself. -/
  | cause (e : ε)
deriving DecidableEq, Repr

/-- A log together with the result of the run that wrote it. -/
structure Logged (ε α : Type) where
  records : List Record
  outcome : Except (Fault ε) α

namespace Logged

variable {ε δ α β : Type}

/-- The run that writes nothing and gives `a`. -/
protected def pure (a : α) : Logged ε α := ⟨[], .ok a⟩

/-- One run after another: the second starts only if the first gives a value, and its log follows
    the first one's. -/
protected def bind (x : Logged ε α) (f : α → Logged ε β) : Logged ε β :=
  match x.outcome with
  | .ok a => let y := f a; ⟨x.records ++ y.records, y.outcome⟩
  | .error e => ⟨x.records, .error e⟩

instance : Monad (Logged ε) where
  pure := Logged.pure
  bind := Logged.bind

/-- Writes one record. -/
def note (source : Source) (level : Level) (message : String) : Logged ε Unit :=
  ⟨[Record.of source level message], .ok ()⟩

/-- Stops with a cause. -/
def fail (e : ε) : Logged ε α := ⟨[], .error (.cause e)⟩

/-- A sum of words, which stops the run when it does not fit. -/
def sum (x : Option α) : Logged ε α :=
  match x with
  | some a => ⟨[], .ok a⟩
  | none => ⟨[], .error .overflow⟩

/-- A step that writes nothing, with its errors seen as causes of the run. -/
def ofExcept (f : δ → ε) (x : Except δ α) : Logged ε α :=
  ⟨[], x.mapError fun e => .cause (f e)⟩

@[simp] theorem outcome_pure (a : α) : (pure a : Logged ε α).outcome = .ok a := rfl

@[simp] theorem records_pure (a : α) : (pure a : Logged ε α).records = [] := rfl

@[simp] theorem outcome_note (s : Source) (l : Level) (m : String) :
    (note s l m : Logged ε Unit).outcome = .ok () := rfl

@[simp] theorem outcome_fail (e : ε) :
    (fail e : Logged ε α).outcome = .error (.cause e) := rfl

@[simp] theorem outcome_ofExcept (f : δ → ε) (x : Except δ α) :
    (ofExcept f x).outcome = x.mapError fun e => .cause (f e) := rfl

theorem outcome_ofExcept_eq_ok_iff {f : δ → ε} {x : Except δ α} {a : α} :
    (ofExcept f x).outcome = .ok a ↔ x = .ok a := by
  cases x with
  | error e =>
    constructor
    · rintro ⟨⟩
    · rintro ⟨⟩
  | ok b =>
    constructor
    · rintro ⟨⟩
      rfl
    · rintro ⟨⟩
      rfl

theorem outcome_bind (x : Logged ε α) (f : α → Logged ε β) :
    (x >>= f).outcome = x.outcome >>= fun a => (f a).outcome := by
  show (x.bind f).outcome = _
  unfold Logged.bind
  cases x.outcome <;> rfl

theorem outcome_bind_of_ok {x : Logged ε α} {a : α} (h : x.outcome = .ok a)
    (f : α → Logged ε β) : (x >>= f).outcome = (f a).outcome := by
  rw [outcome_bind, h]
  rfl

/-- A run of two steps gives a value if both do, the second from what the first gave. -/
theorem outcome_bind_eq_ok_iff {x : Logged ε α} {f : α → Logged ε β} {b : β} :
    (x >>= f).outcome = .ok b ↔ ∃ a, x.outcome = .ok a ∧ (f a).outcome = .ok b := by
  rw [outcome_bind]
  cases x.outcome with
  | error fault =>
    constructor
    · rintro ⟨⟩
    · rintro ⟨a, ⟨⟩, -⟩
  | ok a =>
    constructor
    · intro h
      exact ⟨a, rfl, h⟩
    · rintro ⟨_, ⟨⟩, h⟩
      exact h

theorem outcome_sum_eq_ok_iff {x : Option α} {a : α} :
    (sum x : Logged ε α).outcome = .ok a ↔ x = some a := by
  cases x with
  | none =>
    constructor
    · rintro ⟨⟩
    · rintro ⟨⟩
  | some b =>
    constructor
    · rintro ⟨⟩
      rfl
    · rintro ⟨⟩
      rfl

/-- Two ways on that are the same after whatever a run may give. -/
theorem bind_congr_of_ok {x : Logged ε α} {f g : α → Logged ε β}
    (h : ∀ a, x.outcome = .ok a → f a = g a) : x >>= f = x >>= g := by
  show x.bind f = x.bind g
  unfold Logged.bind
  cases hx : x.outcome with
  | error fault => rfl
  | ok a =>
    dsimp only
    rw [h a hx]

theorem outcome_note_bind (s : Source) (l : Level) (m : String) (f : Unit → Logged ε β) :
    (note s l m >>= f).outcome = (f ()).outcome := outcome_bind_of_ok rfl f

theorem outcome_sum_bind {x : Option α} {a : α} (h : x = some a) (f : α → Logged ε β) :
    (sum x >>= f).outcome = (f a).outcome := outcome_bind_of_ok (by rw [h]; rfl) f

theorem records_bind (x : Logged ε α) (f : α → Logged ε β) :
    (x >>= f).records =
      x.records ++ match x.outcome with
        | .ok a => (f a).records
        | .error _ => [] := by
  show (x.bind f).records = _
  unfold Logged.bind
  cases x.outcome <;> simp

instance : LawfulMonad (Logged ε) :=
  LawfulMonad.mk' _
    (fun x => by
      show x.bind Logged.pure = x
      obtain ⟨records, outcome⟩ := x
      cases outcome <;> simp [Logged.bind, Logged.pure])
    (fun _ _ => rfl)
    (fun x f g => by
      show (x.bind f).bind g = x.bind fun a => (f a).bind g
      obtain ⟨records, outcome⟩ := x
      cases outcome with
      | error e => rfl
      | ok a =>
        simp only [Logged.bind]
        cases (f a).outcome <;> simp)

end Logged

end BootHandoff
