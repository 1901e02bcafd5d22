/-
  The blocks that a run publishes. A traced sink takes what a sink takes and keeps beside it the
  blocks that were taken, in order. A run into it is the run into the sink itself (`run_traced`),
  so that what it kept in the end is what that run published (`Procedure.published`). Unlike the
  blocks that a recorder holds, these are the blocks of a run into any sink, with a memory that
  changes as the sink fills.
-/
import BootHandoff.Proofs.Procedure.Sending

namespace BootHandoff

variable {ε α σ κ : Type}

namespace Sink

/-- The sink that also keeps the blocks that it took. -/
def traced (sink : Sink κ) : Sink (κ × List Hob) where
  append t hob := (sink.append t.1 hob).map fun k => (k, t.2 ++ [hob])
  complaints := sink.complaints

variable {sink : Sink κ} {k k' : κ} {held : List Hob} {hob : Hob}

theorem append_traced_of_ok (h : sink.append k hob = .ok k') :
    sink.traced.append (k, held) hob = .ok (k', held ++ [hob]) := by
  show (sink.append k hob).map _ = _
  rw [h]
  rfl

theorem append_traced_of_error {e : HobError} (h : sink.append k hob = .error e) :
    sink.traced.append (k, held) hob = .error e := by
  show (sink.append k hob).map _ = _
  rw [h]
  rfl

/-- What is delivered to a traced sink is delivered to the sink, and the blocks taken are the first
    ones, all of them if none is refused. -/
theorem deliver_of_traced {hobs : List Hob} {t : κ × List Hob} {refusal : Option HobError}
    (h : sink.traced.deliver (k, held) hobs = (t, refusal)) :
    sink.deliver k hobs = (t.1, refusal) ∧
      ∃ taken, taken <+: hobs ∧ t.2 = held ++ taken ∧ (refusal = none → taken = hobs) := by
  induction hobs generalizing k held with
  | nil =>
    cases h
    exact ⟨rfl, [], List.nil_prefix, (List.append_nil held).symm, fun _ => rfl⟩
  | cons hob hobs ih =>
    rw [deliver] at h
    rw [deliver]
    cases happend : sink.append k hob with
    | error e =>
      rw [append_traced_of_error happend] at h
      cases h
      refine ⟨rfl, [], List.nil_prefix, (List.append_nil held).symm, ?_⟩
      intro hnone
      cases hnone
    | ok next =>
      rw [append_traced_of_ok happend] at h
      obtain ⟨hdeliver, taken, htaken, hheld, hall⟩ := ih h
      refine ⟨hdeliver, hob :: taken, List.cons_prefix_cons.mpr ⟨rfl, htaken⟩, ?_, ?_⟩
      · exact hheld.trans (List.append_cons held hob taken).symm
      · intro hnone
        rw [hall hnone]

section

variable {t t' : κ × List Hob} {hobs : List Hob} {refusal : Option HobError}

theorem subset_of_deliver_traced (h : sink.traced.deliver t hobs = (t', refusal)) :
    t'.2 ⊆ t.2 ++ hobs := by
  obtain ⟨-, taken, htaken, hheld, -⟩ := deliver_of_traced h
  rw [hheld]
  exact List.append_subset.mpr ⟨List.subset_append_left _ _,
    List.subset_append_of_subset_right _ htaken.subset⟩

theorem append_subset_of_deliver_traced (h : sink.traced.deliver t hobs = (t', none)) :
    t.2 ++ hobs ⊆ t'.2 := by
  obtain ⟨-, taken, -, hheld, hall⟩ := deliver_of_traced h
  rw [hheld, hall rfl]
  exact List.Subset.refl _

end

end Sink

namespace Procedure

/-- A run into a traced sink is the run into the sink. -/
theorem run_traced (p : Procedure ε α) (host : Host σ) (sink : Sink κ) (memory : κ → Memory)
    (s : σ) (k : κ) (held : List Hob) :
    let run := p.run host sink memory s k
    let tracedRun := p.run host sink.traced (fun t => memory t.1) s (k, held)
    tracedRun.host = run.host ∧ tracedRun.sink.1 = run.sink ∧ tracedRun.outcome = run.outcome := by
  induction p generalizing s k held with
  | done a => exact ⟨rfl, rfl, rfl⟩
  | stop fault => exact ⟨rfl, rfl, rfl⟩
  | note r next ih => exact ih _ _ _
  | readPort width port next ih => exact ih _ _ _ _
  | withMemory next ih => exact ih _ _ _ _
  | publish hob next ih =>
    dsimp only [run]
    cases happend : sink.append k hob with
    | ok k' =>
      rw [Sink.append_traced_of_ok happend]
      exact ih s k' _
    | error e =>
      rw [Sink.append_traced_of_error happend]
      exact ⟨rfl, rfl, rfl⟩

/-- The blocks that a run publishes, in order: those that its sink takes. -/
def published (p : Procedure ε α) (host : Host σ) (sink : Sink κ) (memory : κ → Memory) (s : σ)
    (k : κ) : List Hob :=
  (p.run host sink.traced (fun t => memory t.1) s (k, [])).sink.2

end Procedure

end BootHandoff
