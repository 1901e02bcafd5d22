/-
  Boots that come to their halt, taken apart. Such a boot has read its tables or failed to
  (`exists_tables_of_run`), started a console, and made one attempt to build the list; from there it
  goes on to the halt, whatever came of the attempt (`exists_built_of_runFromTables`).
-/
import BootHandoff.Boot

namespace BootHandoff.Boot

variable {σ : Type} {bus : Bus σ} {mem : Memory} {settings : Settings} {addressBits : UInt8}
  {s : σ} {halted : Halted σ}

theorem exists_tables_of_run {pointer : Address}
    (h : run bus mem settings addressBits pointer s = some halted) :
    ∃ tables : Except Coreboot.TableError Coreboot.Info,
      (Coreboot.Info.read mem pointer).outcome = tables.mapError .cause ∧
        runFromTables bus mem settings addressBits tables s = some halted := by
  unfold run at h
  split at h
  · cases h
  · rename_i e hread
    exact ⟨.error e, hread, h⟩
  · rename_i info hread
    exact ⟨.ok info, hread, h⟩

/-- What the boot reports at its halt, the list and the outcome, is what the attempt to build the
    list came to. -/
theorem exists_built_of_runFromTables {tables : Except Coreboot.TableError Coreboot.Info}
    (h : runFromTables bus mem settings addressBits tables s = some halted) :
    ∃ started,
      startConsole bus settings (tables.toOption.bind (·.serial)) s = some started ∧
      let built := buildFromTables bus mem settings addressBits tables
        (log bus .info s!"crab-payload {version} starting" started)
      built.list = halted.list ∧ built.outcome = halted.outcome.mapError .cause ∧
        halted.machine = (halt bus (logOutcome bus halted.outcome built.state)).2 := by
  unfold runFromTables at h
  split at h
  · cases h
  · rename_i started hstarted
    refine ⟨started, hstarted, ?_⟩
    dsimp only at h
    split at h
    · cases h
    · rename_i hbuilt
      cases h
      exact ⟨rfl, hbuilt, rfl⟩
    · rename_i hbuilt
      cases h
      exact ⟨rfl, hbuilt, rfl⟩

end BootHandoff.Boot
