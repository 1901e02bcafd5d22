/-
  Procedures that nothing can bring to overflow: whatever the memory shows and the ports give,
  none of their steps stops for a sum that leaves its range, and what they publish has a length
  that its header can hold (`Safe`). A run of such a procedure ends with a value, a failure of its
  own or the refusal of its sink (`outcome_run_of_safe`), and where its sink is a list, the guards
  of the builder never stop it either (`run_rawList_of_safe`).
-/
import BootHandoff.Proofs.Guard.HobList

namespace BootHandoff.Procedure

variable {ε α β σ κ ι : Type}

/-- No step of the procedure overflows, and every block is short enough for its header. -/
inductive Safe : Procedure ε α → Prop
  | done (a : α) : Safe (.done a)
  | stop (e : ε) : Safe (.stop (.cause e))
  | note {r : Record} {next : Procedure ε α} (h : Safe next) : Safe (.note r next)
  | readPort {width : PortWidth} {port : UInt16} {next : UInt32 → Procedure ε α}
      (h : ∀ v, Safe (next v)) : Safe (.readPort width port next)
  | withMemory {next : Memory → Procedure ε α} (h : ∀ mem, Safe (next mem)) :
      Safe (.withMemory next)
  | publish {hob : Hob} {next : Procedure ε α} (hsize : hob.size ≤ maxHobSize) (h : Safe next) :
      Safe (.publish hob next)

/-! ## Putting procedures together -/

theorem Safe.bind {p : Procedure ε α} {f : α → Procedure ε β} (hp : Safe p)
    (hf : ∀ a, Safe (f a)) : Safe (p >>= f) := by
  show Safe (p.bind f)
  induction hp with
  | done a => exact hf a
  | stop e => exact .stop e
  | note h ih => exact .note ih
  | readPort h ih => exact .readPort ih
  | withMemory h ih => exact .withMemory ih
  | publish hsize h ih => exact .publish hsize ih

theorem safe_log (source : Source) (level : Level) (message : String) :
    Safe (log source level message : Procedure ε Unit) := .note (.done ())

theorem safe_emit {hob : Hob} (h : hob.size ≤ maxHobSize) :
    Safe (emit hob : Procedure ε Unit) := .publish h (.done ())

theorem safe_ofLogged {x : Logged ε α} (h : x.outcome ≠ .error .overflow) :
    Safe (ofLogged x) := by
  obtain ⟨records, outcome⟩ := x
  unfold ofLogged
  induction records with
  | cons r records ih => exact .note (ih h)
  | nil =>
    cases outcome with
    | ok a => exact .done a
    | error fault =>
      cases fault with
      | overflow => exact absurd rfl h
      | cause e => exact .stop e

theorem safe_examine {reader : Memory → Logged ε α}
    (h : ∀ mem, (reader mem).outcome ≠ .error .overflow) : Safe (examine reader) :=
  .withMemory fun mem => safe_ofLogged (h mem)

theorem safe_forM {f : ι → Procedure ε Unit} {items : List ι} (h : ∀ i ∈ items, Safe (f i)) :
    Safe (items.forM f) := by
  induction items with
  | nil => exact .done ()
  | cons i items ih =>
    have hrest : Safe (items.forM f) := ih fun j hj => h j (List.mem_cons_of_mem i hj)
    exact (h i List.mem_cons_self).bind fun _ => hrest

/-! ## Running -/

theorem outcome_run_of_safe {p : Procedure ε α} (h : Safe p) (host : Host σ) (sink : Sink κ)
    (memory : κ → Memory) (s : σ) (k : κ) :
    (p.run host sink memory s k).outcome ≠ .error .overflow := by
  induction h generalizing s k with
  | done a =>
    intro h
    cases h
  | stop e =>
    intro h
    cases h
  | note h ih => exact ih _ _
  | readPort h ih => exact ih _ _ _
  | withMemory h ih => exact ih _ _ _
  | publish hsize h ih =>
    rw [run]
    split
    · exact ih _ _
    · intro h
      cases h

open Guard (RawList rawList)

/-- The builder of a list goes along with the list, block by block. What keeps its guards quiet is
    that the table stays in front of the closing block. -/
theorem run_rawList_of_safe {p : Procedure ε α} (h : Safe p) (host : Host σ)
    (memory : Option RawList → Memory) (s : σ) {l : HobList} (hstart : Phit.size ≤ l.closing) :
    let plain := p.run host Sink.hobList (fun l => memory (some (.ofList l))) s l
    p.run host rawList memory s (some (.ofList l)) =
      ⟨plain.host, some (.ofList plain.sink), plain.outcome⟩ := by
  induction h generalizing s l with
  | done a => rfl
  | stop e => rfl
  | note h ih => exact ih _ hstart
  | readPort h ih => exact ih _ _ hstart
  | withMemory h ih => exact ih _ _ hstart
  | @publish hob next hsize h ih =>
    have hbare : hob.bareSize + 7 < 2 ^ 64 := by
      have hle : hob.bareSize ≤ hob.size := le_alignLength hob.bareSize
      unfold maxHobSize at hsize
      omega
    have happend : rawList.append (some (.ofList l)) hob =
        ((l.append hob).map RawList.ofList).map some := by
      simp only [rawList, RawList.append_ofList hstart hbare]
    have hplain : Sink.hobList.append l hob = l.append hob := rfl
    simp only [run, happend, hplain]
    cases hl : l.append hob with
    | error e => rfl
    | ok m =>
      have hclosing := HobList.closing_of_append hl
      exact ih s (by omega)

end BootHandoff.Procedure
