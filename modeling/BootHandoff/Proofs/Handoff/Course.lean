/-
  The courses of the hand-off. From one state of the sink the description of the platform can go
  six ways: it stops at a refusal in one of three runs of blocks, for want of the root pointer, for
  want of the board information, or not at all (`Course`). Which way it goes, and where it comes
  to, depends on the sink and on memory alone (`course_run`). Memory may change with what the sink
  holds: the root pointer is looked for in the memory as it is once the boot loader's facts are
  described, the board information in the memory as it is once the tables are announced.
-/
import BootHandoff.Proofs.Handoff.Order
import BootHandoff.Proofs.Procedure.Ending

namespace BootHandoff

open Acpi (AcpiError Fadt Rsdp)
open Procedure (Ends Host StopCause)

variable {ε α σ κ : Type} {sink : Sink κ} {memory : κ → Memory}

/-! ## The survey -/

/-- The ports that the SCI diagnostic reads: the PM1a control register, unless the tables settle
    the question. -/
def SciCheck.reads (fadt : Fadt) : List (PortWidth × UInt16) :=
  if fadt.hardwareReduced || fadt.smiCommand ≠ 0 then []
  else [(width fadt, fadt.pm1aControl.toUInt16)]

section

variable {k k' : κ} {reads : List (PortWidth × UInt16)}
  {outcome : Except (Fault (StopCause ε)) α}

/-- What follows the diagnostic is the same whatever the register holds. -/
theorem SciCheck.ends_run_bind (fadt : Fadt) {next : Procedure ε α}
    (h : Ends sink memory next k reads k' outcome) :
    Ends sink memory (run fadt >>= fun _ => next) k (SciCheck.reads fadt ++ reads) k' outcome := by
  rw [run, SciCheck.reads]
  split
  · exact h
  · refine .readPort fun control => ?_
    show Ends sink memory (Procedure.bind (ite _ _ _) _) k reads k' outcome
    split
    · exact .note h
    · exact h

end

namespace BoardInfo

variable {rsdp : Rsdp} {k k' : κ} {reads : List (PortWidth × UInt16)}
  {outcome : Except (Fault (StopCause AcpiError)) α}

theorem ends_survey_bind {board : BoardInfo} {fadt : Fadt}
    (h : (find (memory k) rsdp).outcome = .ok (board, fadt))
    {f : BoardInfo → Procedure AcpiError α} (hf : Ends sink memory (f board) k reads k' outcome) :
    Ends sink memory (survey rsdp >>= f) k (SciCheck.reads fadt ++ reads) k' outcome := by
  rw [survey, bind_assoc]
  refine Procedure.ends_examine_bind h ?_
  show Ends sink memory ((SciCheck.run fadt >>= fun _ => pure board) >>= f) k _ k' outcome
  rw [bind_assoc]
  exact SciCheck.ends_run_bind fadt hf

theorem ends_survey_bind_error {fault : Fault AcpiError}
    (h : (find (memory k) rsdp).outcome = .error fault) (f : BoardInfo → Procedure AcpiError α) :
    Ends sink memory (survey rsdp >>= f) k [] k (.error (Procedure.faultOf fault)) := by
  rw [survey, bind_assoc]
  exact Procedure.ends_examine_bind_error h _

end BoardInfo

/-! ## The platform -/

namespace Handoff

/-- The blocks that wait for the board information. -/
def surveyedHobs (info : Coreboot.Info) (board : BoardInfo) : List Hob :=
  boardHob board ::
    info.memoryMap.flatMap (reservedHobs (Tolud.estimate info.memoryMap) board.pcieBase)

section

variable (sink : Sink κ) (memory : κ → Memory) (info : Coreboot.Info) (k : κ)

/-- The sink takes what the boot loader's facts give, and the root pointer is found after that. -/
structure Locates (k₁ : κ) (locations : TableLocations) (rsdp : Rsdp) : Prop where
  described : sink.deliver k (bootLoaderHobs info) = (k₁, none)
  found : (TableLocations.find (memory k₁) info).outcome = .ok (locations, rsdp)

/-- The sink also takes the locations of the tables. -/
structure Announces (k₁ k₂ : κ) (locations : TableLocations) (rsdp : Rsdp) : Prop
    extends Locates sink memory info k k₁ locations rsdp where
  announced : sink.deliver k₁ (locationHobs locations) = (k₂, none)

/-- The board information is found after that. -/
structure Surveys (k₁ k₂ : κ) (locations : TableLocations) (rsdp : Rsdp) (board : BoardInfo)
    (fadt : Fadt) : Prop extends Announces sink memory info k k₁ k₂ locations rsdp where
  surveyed : (BoardInfo.find (memory k₂) rsdp).outcome = .ok (board, fadt)

/-- The ways that the description of the platform can go from a state of the sink: the ports that
    are read, the last state of the sink, and the end. -/
inductive Course : List (PortWidth × UInt16) → κ →
    Except (Fault (StopCause AcpiError)) Summary → Prop
  /-- The boot loader's facts are too much for the sink. -/
  | crowded {k' : κ} {e : HobError}
      (described : sink.deliver k (bootLoaderHobs info) = (k', some e)) :
      Course [] k' (.error (.cause (.refused e)))
  /-- There is no good root pointer. -/
  | unlocated {k₁ : κ} {fault : Fault AcpiError}
      (described : sink.deliver k (bootLoaderHobs info) = (k₁, none))
      (missing : (TableLocations.find (memory k₁) info).outcome = .error fault) :
      Course [] k₁ (.error (Procedure.faultOf fault))
  /-- The locations of the tables are too much for the sink. -/
  | unannounced {k₁ k' : κ} {locations : TableLocations} {rsdp : Rsdp} {e : HobError}
      (locates : Locates sink memory info k k₁ locations rsdp)
      (announced : sink.deliver k₁ (locationHobs locations) = (k', some e)) :
      Course [] k' (.error (.cause (.refused e)))
  /-- The tables do not give the board information. -/
  | unsurveyed {k₁ k₂ : κ} {locations : TableLocations} {rsdp : Rsdp} {fault : Fault AcpiError}
      (announces : Announces sink memory info k k₁ k₂ locations rsdp)
      (missing : (BoardInfo.find (memory k₂) rsdp).outcome = .error fault) :
      Course [] k₂ (.error (Procedure.faultOf fault))
  /-- What is left is too much for the sink. -/
  | unfinished {k₁ k₂ k' : κ} {locations : TableLocations} {rsdp : Rsdp} {board : BoardInfo}
      {fadt : Fadt} {e : HobError}
      (surveys : Surveys sink memory info k k₁ k₂ locations rsdp board fadt)
      (finished : sink.deliver k₂ (surveyedHobs info board) = (k', some e)) :
      Course (SciCheck.reads fadt) k' (.error (.cause (.refused e)))
  | finished {k₁ k₂ k' : κ} {locations : TableLocations} {rsdp : Rsdp} {board : BoardInfo}
      {fadt : Fadt} (surveys : Surveys sink memory info k k₁ k₂ locations rsdp board fadt)
      (finished : sink.deliver k₂ (surveyedHobs info board) = (k', none)) :
      Course (SciCheck.reads fadt) k'
        (.ok ⟨Tolud.estimate info.memoryMap, locations, board⟩)

/-- There is always a way to go. -/
theorem exists_course : ∃ reads k' outcome, Course sink memory info k reads k' outcome := by
  rcases hdescribed : sink.deliver k (bootLoaderHobs info) with ⟨k₁, _ | e⟩
  case some => exact ⟨_, _, _, .crowded hdescribed⟩
  rcases hfound : (TableLocations.find (memory k₁) info).outcome with fault | ⟨locations, rsdp⟩
  case error => exact ⟨_, _, _, .unlocated hdescribed hfound⟩
  have hlocates : Locates sink memory info k k₁ locations rsdp := ⟨hdescribed, hfound⟩
  rcases hannounced : sink.deliver k₁ (locationHobs locations) with ⟨k₂, _ | e⟩
  case some => exact ⟨_, _, _, .unannounced hlocates hannounced⟩
  have hannounces : Announces sink memory info k k₁ k₂ locations rsdp := ⟨hlocates, hannounced⟩
  rcases hsurveyed : (BoardInfo.find (memory k₂) rsdp).outcome with fault | ⟨board, fadt⟩
  case error => exact ⟨_, _, _, .unsurveyed hannounces hsurveyed⟩
  have hsurveys : Surveys sink memory info k k₁ k₂ locations rsdp board fadt :=
    ⟨hannounces, hsurveyed⟩
  rcases hfinished : sink.deliver k₂ (surveyedHobs info board) with ⟨k', _ | e⟩
  case some => exact ⟨_, _, _, .unfinished hsurveys hfinished⟩
  exact ⟨_, _, _, .finished hsurveys hfinished⟩

end

/-! ## Where a course comes to -/

variable {info : Coreboot.Info} {k k₁ k₂ k' : κ} {locations : TableLocations} {rsdp : Rsdp}
  {reads : List (PortWidth × UInt16)} {outcome : Except (Fault (StopCause AcpiError)) Summary}

/-- The rest of the way once the root pointer is found. -/
theorem Locates.ends (h : Locates sink memory info k k₁ locations rsdp)
    (hrest : Ends sink memory (publishTables info (locations, rsdp)) k₁ reads k' outcome) :
    Ends sink memory (describePlatform info) k reads k' outcome :=
  (writes_describePlatform info).ends h.described (Procedure.ends_examine_bind h.found hrest)

/-- The rest of the way once the tables are announced. -/
theorem Announces.ends (h : Announces sink memory info k k₁ k₂ locations rsdp)
    (hrest : Ends sink memory (BoardInfo.survey rsdp >>= finish info locations) k₂ reads k'
      outcome) :
    Ends sink memory (describePlatform info) k reads k' outcome :=
  h.toLocates.ends ((writes_publishTables info locations rsdp).ends h.announced hrest)

/-- The rest of the way once the board information is known. -/
theorem Surveys.ends {board : BoardInfo} {fadt : Fadt}
    (h : Surveys sink memory info k k₁ k₂ locations rsdp board fadt)
    (hrest : Ends sink memory (finish info locations board) k₂ [] k' outcome) :
    Ends sink memory (describePlatform info) k (SciCheck.reads fadt) k' outcome := by
  have hsurvey := BoardInfo.ends_survey_bind h.surveyed hrest
  rw [List.append_nil] at hsurvey
  exact h.toAnnounces.ends hsurvey

theorem Course.ends (h : Course sink memory info k reads k' outcome) :
    Ends sink memory (describePlatform info) k reads k' outcome := by
  cases h with
  | crowded hdescribed => exact (writes_describePlatform info).ends_refused hdescribed
  | unlocated hdescribed hmissing =>
    exact (writes_describePlatform info).ends hdescribed
      (Procedure.ends_examine_bind_error hmissing _)
  | unannounced hlocates hannounced =>
    exact hlocates.ends ((writes_publishTables info _ _).ends_refused hannounced)
  | unsurveyed hannounces hmissing =>
    exact hannounces.ends (BoardInfo.ends_survey_bind_error hmissing _)
  | unfinished hsurveys hfinished =>
    exact hsurveys.ends ((writes_finish info _ _).ends_refused hfinished)
  | finished hsurveys hfinished =>
    exact hsurveys.ends ((writes_finish info _ _).ends hfinished (.done _ _))

/-- Only one course ends well. -/
theorem Course.surveys_of_ok {summary : Summary}
    (h : Course sink memory info k reads k' (.ok summary)) :
    ∃ k₁ k₂ rsdp fadt,
      Surveys sink memory info k k₁ k₂ summary.tableLocations rsdp summary.boardInfo fadt ∧
        sink.deliver k₂ (surveyedHobs info summary.boardInfo) = (k', none) := by
  cases h with
  | finished hsurveys hfinished => exact ⟨_, _, _, _, hsurveys, hfinished⟩

/-- A run of the description takes a course. -/
theorem course_run (host : Host σ) (sink : Sink κ) (memory : κ → Memory) (info : Coreboot.Info)
    (s : σ) (k : κ) :
    let run := (describePlatform info).run host sink memory s k
    ∃ reads, Course sink memory info k reads run.sink run.outcome := by
  intro run
  obtain ⟨reads, k', outcome, hcourse⟩ := exists_course sink memory info k
  obtain ⟨hsink, houtcome⟩ := Procedure.run_of_ends hcourse.ends host s
  refine ⟨reads, ?_⟩
  rw [show run.sink = k' from hsink, show run.outcome = outcome from houtcome]
  exact hcourse

end Handoff

/-! ## The payload -/

namespace Boot

variable {info : Coreboot.Info} {k k₁ k' : κ} {reads : List (PortWidth × UInt16)}
  {settings : Settings} {addressBits : UInt8}

/-- Without a platform the payload is not described. -/
theorem ends_describe_error {fault : Fault (StopCause AcpiError)}
    (h : Ends sink memory (Handoff.describePlatform info) k reads k' (.error fault)) :
    Ends sink memory (describe settings addressBits info) k reads k' (.error fault) :=
  h.bind_error _

theorem writes_describePayload (settings : Settings) (addressBits : UInt8) (summary : Summary) :
    Procedure.Writes (Handoff.describePayload settings addressBits >>= fun _ => pure summary :
      Procedure AcpiError Summary) (Handoff.payloadHobs settings addressBits) (.done summary) :=
  (Procedure.writes_forM_emit _).bind_rest _

theorem ends_describe {summary : Summary}
    (h : Ends sink memory (Handoff.describePlatform info) k reads k₁ (.ok summary))
    (hpayload : sink.deliver k₁ (Handoff.payloadHobs settings addressBits) = (k', none)) :
    Ends sink memory (describe settings addressBits info) k reads k' (.ok summary) := by
  rw [← List.append_nil reads]
  exact h.bind ((writes_describePayload _ _ summary).ends hpayload (.done summary k'))

/-- The payload is too much for the sink. -/
theorem ends_describe_refused {summary : Summary} {e : HobError}
    (h : Ends sink memory (Handoff.describePlatform info) k reads k₁ (.ok summary))
    (hpayload : sink.deliver k₁ (Handoff.payloadHobs settings addressBits) = (k', some e)) :
    Ends sink memory (describe settings addressBits info) k reads k'
      (.error (.cause (.refused e))) := by
  rw [← List.append_nil reads]
  exact h.bind ((writes_describePayload _ _ summary).ends_refused hpayload)

end Boot

end BootHandoff
