import CoinjoinEmulator.Shutdown
import Mathlib.Tactic.Tauto

/-! When a shutdown releases the run (manager.py).  A `SystemExit` is caught inside the two `try`
blocks that call the engine and a cleanup action.  A signal at any other boundary leaves
`run_engine`. -/

namespace CoinjoinEmulator

open ProofKit

/-- What makes the exit code non-zero. -/
def ShutdownEvent.isFailure : ShutdownEvent → Bool
  | .received _ | .runFailed | .failed _ => true
  | .called _ | .finalizing _ | .wroteMarker _ => false

namespace ManagerRun

variable (w : ManagerRun)

/-- `run_engine` returns an exit code.  The driver's cleanup was called before the marker was
finalized, and both codes are non-zero when a signal arrived or a step failed. -/
def Releases : Prop :=
  ∃ code log, w.runEngine.run [] = .ok code log ∧
    ∃ before final after, log = before ++ .finalizing final :: after ∧
      .called .driverCleanup ∈ before ∧ (∀ action, .called action ∉ after) ∧
      ((∃ event ∈ log, event.isFailure) → final ≠ 0 ∧ code ≠ 0)

/-! ### Boundaries outside the two try blocks -/

def Quiet (places : List Boundary) : Prop := ∀ place ∈ places, w.arrives place = none

/-- The exception of a signal that arrives here, or else what comes after it. -/
def signalled {α : Type} (place : Boundary) (next : Except Raised α) : Except Raised α :=
  match w.arrives place with
  | some signal => .error (.systemExit (.int (128 + signal.signum)))
  | none => next

/-- What the `try` block around a cleanup action ends with. -/
def attempt (action : CleanupAction) : Except Raised Unit :=
  w.signalled (.cleanupStep action 1)
    (w.action action >>= fun _ => w.signalled (.cleanupStep action 2) (.ok ()))

def stepFails (action : CleanupAction) : Bool := w.attempt action matches .error _

/-- What the `try` block around `engine.run()` ends with. -/
def runOutcome : Except Raised Unit := w.signalled (.runEngine 2) w.engineRun

def runFails : Bool := w.runOutcome matches .error _

def runCode : Int :=
  match w.runOutcome with
  | .ok _ => 0
  | .error .keyboardInterrupt => 130
  | .error (.systemExit code) => code.exitCode
  | .error _ => 1

def exposedStep (action : CleanupAction) : List Boundary :=
  .cleanupStep action 0 ::
    if w.stepFails action then
      [.cleanupStep action 3, .cleanupStep action 4, .cleanupStep action 5]
    else []

def exposedStoreLogs : List Boundary :=
  if w.noLogs then []
  else .cleanup 4 ::
    if w.hasNode then .cleanup 6 :: .cleanup 7 :: w.exposedStep .storeLogs else [.cleanup 5]

def exposedDownload : List Boundary :=
  if w.downloadBtcData = "" then []
  else .cleanup 9 ::
    if w.hasNode then .cleanup 11 :: w.exposedStep .downloadBtcData else [.cleanup 10]

def exposedCleanup : List Boundary :=
  .cleanup 0 :: .cleanup 1 :: (w.exposedStep .stopCoinjoins ++
    .cleanup 2 :: (w.exposedStep .shutdownEngine ++
      .cleanup 3 :: (w.exposedStoreLogs ++ .cleanup 8 :: (w.exposedDownload ++
        .cleanup 12 :: .cleanup 13 :: (w.exposedStep .driverCleanup ++
          [.cleanup 14, .cleanup 15])))))

def exposedExcept : List Boundary :=
  match w.runOutcome with
  | .error .keyboardInterrupt => [.runEngine 3, .runEngine 4, .runEngine 5]
  | .error (.systemExit _) => [.runEngine 6, .runEngine 7]
  | .error (.exception _) => [.runEngine 8, .runEngine 9, .runEngine 10]
  | _ => []

def exposedReport : List Boundary :=
  if w.runFails then
    .runEngine 12 :: .runEngine 13 ::
      if w.reportInfrastructureState matches .error (.exception _) then [.runEngine 14] else []
  else []

def storeFails : Bool := !w.noLogs && w.hasNode && w.stepFails .storeLogs

def downloadFails : Bool := w.downloadBtcData ≠ "" && w.hasNode && w.stepFails .downloadBtcData

/-- Whether a step of `cleanup` fails. -/
def stepsFail : Bool :=
  w.stepFails .stopCoinjoins || w.stepFails .shutdownEngine || w.storeFails || w.downloadFails ||
    w.stepFails .driverCleanup

/-- The boundaries of the three functions that a run of `run_engine` passes outside the `try`
blocks around `engine.run()` and around a cleanup action, when no signal arrives at one of them. -/
def exposed : List Boundary :=
  .runEngine 0 :: .runEngine 1 :: (w.exposedExcept ++ .runEngine 11 :: (w.exposedReport ++
    .runEngine 15 :: (w.exposedCleanup ++
      ((if w.stepsFail then [.runEngine 16] else []) ++ [.runEngine 17]))))

/-- The failure report raises nothing but an `Exception`. -/
def reportCaught : Bool :=
  w.reportInfrastructureState matches .ok _ | .error (.exception _)

/-- `engine.run()` and the failure report raise nothing that the clauses around them let pass. -/
def Caught : Prop :=
  w.runOutcome ≠ .error .baseException ∧ (w.runFails → w.reportCaught)

/-! ### Programs that are cut off at a boundary -/

/-- The program passes these boundaries, appends the events and returns the value, unless a signal
arrives at one of the boundaries. -/
abbrev Passes {α : Type} (program : Manager α) (places : List Boundary) (value : α)
    (events : List ShutdownEvent) : Prop :=
  ReturnsWhen program (w.Quiet places) value events

section Passes

variable {w} {α β : Type} {program : Manager α} {places places' : List Boundary} {value : α}
  {events events' : List ShutdownEvent}

theorem quiet_cons {place : Boundary} :
    w.Quiet (place :: places) ↔ w.arrives place = none ∧ w.Quiet places := List.forall_mem_cons

theorem quiet_append : w.Quiet (places ++ places') ↔ w.Quiet places ∧ w.Quiet places' :=
  List.forall_mem_append

theorem quiet_nil : w.Quiet [] := fun _ h => nomatch h

theorem Passes.pure (value : α) : w.Passes (pure value) [] value [] :=
  (ReturnsWhen.pure value).congr (iff_of_true quiet_nil trivial) rfl rfl

theorem Passes.bind {next : α → Manager β} {result : β}
    (h : w.Passes program places value events)
    (hnext : w.Passes (next value) places' result events') :
    w.Passes (program >>= next) (places ++ places') result (events ++ events') :=
  (ReturnsWhen.bind h hnext).congr quiet_append rfl rfl

/-- A condition that holds, beside the boundaries. -/
theorem Passes.and_left {c : Prop} (h : w.Passes program places value events) (hc : c) :
    ReturnsWhen program (c ∧ w.Quiet places) value events :=
  ReturnsWhen.congr h (and_iff_right hc) rfl rfl

theorem passes_boundary (place : Boundary) : w.Passes (w.boundary place) [place] () [] := by
  unfold boundary
  cases harrives : w.arrives place with
  | none => exact (ReturnsWhen.pure ()).congr (by simp [Quiet, harrives]) rfl rfl
  | some signal =>
    refine ⟨fun h => ?_, fun _ log => ⟨_, _, rfl⟩⟩
    rw [quiet_cons, harrives] at h
    exact nomatch h.1

theorem Passes.boundary (place : Boundary) {next : Unit → Manager α}
    (h : w.Passes (next ()) places value events) :
    w.Passes (w.boundary place >>= next) (place :: places) value events :=
  Passes.bind (passes_boundary place) h

theorem Passes.note (event : ShutdownEvent) {next : Unit → Manager α}
    (h : w.Passes (next ()) places value events) :
    w.Passes (note event >>= next) places value (event :: events) :=
  ((ReturnsWhen.append [event]).bind h).congr (by simp) rfl rfl

end Passes

/-- What the handler appends if a signal arrives here. -/
def signalEvents (place : Boundary) : List ShutdownEvent :=
  match w.arrives place with
  | some signal => [.received signal]
  | none => []

/-- What the `try` block around a cleanup action appends. -/
def attemptEvents (action : CleanupAction) : List ShutdownEvent :=
  match w.arrives (.cleanupStep action 1), w.action action with
  | some signal, _ => [.received signal]
  | none, .error _ => [.called action]
  | none, .ok _ => .called action :: w.signalEvents (.cleanupStep action 2)

def stepEvents (action : CleanupAction) : List ShutdownEvent :=
  w.attemptEvents action ++ if w.stepFails action then [.failed action] else []

theorem run_attempt (action : CleanupAction) (log : List ShutdownEvent) :
    EStateM.run (do
      w.boundary (.cleanupStep action 1)
      note (.called action)
      ofExcept (w.action action)
      w.boundary (.cleanupStep action 2)
      return false) log = resultOf ((w.attempt action).map fun _ => false)
        (log ++ w.attemptEvents action) := by
  unfold attempt attemptEvents signalled signalEvents boundary
  cases w.arrives (.cleanupStep action 1) with
  | some signal => rfl
  | none =>
    cases w.action action with
    | error raised => rfl
    | ok _ =>
      cases w.arrives (.cleanupStep action 2) with
      | none => rfl
      | some signal =>
        rw [List.append_cons]
        rfl

theorem passes_cleanupStep (action : CleanupAction) :
    w.Passes (w.cleanupStep action) (w.exposedStep action) (w.stepFails action)
      (w.stepEvents action) := by
  refine Passes.boundary _ (ReturnsWhen.tryCatch (w.run_attempt action) ?_)
  unfold stepFails
  cases w.attempt action with
  | ok _ => exact Passes.pure false
  | error raised =>
    exact Passes.boundary _
      (Passes.note _ (Passes.boundary _ (Passes.boundary _ (Passes.pure true))))

/-! ### The parts of a shutdown -/

def storeEvents : List ShutdownEvent :=
  if w.noLogs then [] else if w.hasNode then w.stepEvents .storeLogs else []

def downloadEvents : List ShutdownEvent :=
  if w.downloadBtcData = "" then [] else if w.hasNode then w.stepEvents .downloadBtcData else []

def cleanupEvents : List ShutdownEvent :=
  w.stepEvents .stopCoinjoins ++ (w.stepEvents .shutdownEngine ++
    (w.storeEvents ++ (w.downloadEvents ++ w.stepEvents .driverCleanup)))

theorem passes_storeLogsPart :
    w.Passes w.storeLogsPart w.exposedStoreLogs w.storeFails w.storeEvents := by
  unfold storeLogsPart exposedStoreLogs storeFails storeEvents
  cases w.noLogs with
  | true => exact Passes.pure false
  | false =>
    cases w.hasNode with
    | true =>
      exact Passes.boundary _ (Passes.boundary _ (Passes.boundary _ (w.passes_cleanupStep _)))
    | false => exact Passes.boundary _ (Passes.boundary _ (Passes.pure false))

theorem passes_downloadPart :
    w.Passes w.downloadPart w.exposedDownload w.downloadFails w.downloadEvents := by
  unfold downloadPart exposedDownload downloadFails downloadEvents
  by_cases hpath : w.downloadBtcData = ""
  · simpa [hpath] using Passes.pure (w := w) false
  · cases w.hasNode with
    | true => simpa [hpath] using Passes.boundary _ (Passes.boundary _ (w.passes_cleanupStep _))
    | false => simpa [hpath] using Passes.boundary _ (Passes.boundary _ (Passes.pure false))

theorem passes_cleanup :
    w.Passes w.cleanup w.exposedCleanup w.stepsFail w.cleanupEvents := by
  have hend : w.Passes (do
      w.boundary (.cleanup 12)
      w.boundary (.cleanup 13)
      let driverFailed ← w.cleanupStep .driverCleanup
      w.boundary (.cleanup 14)
      w.boundary (.cleanup 15)
      return w.stepFails .stopCoinjoins || w.stepFails .shutdownEngine || w.storeFails ||
        w.downloadFails || driverFailed)
      (.cleanup 12 :: .cleanup 13 :: (w.exposedStep .driverCleanup ++ [.cleanup 14, .cleanup 15]))
      w.stepsFail (w.stepEvents .driverCleanup ++ []) :=
    Passes.boundary _ (Passes.boundary _ (Passes.bind (w.passes_cleanupStep _)
      (Passes.boundary _ (Passes.boundary _ (Passes.pure _)))))
  rw [List.append_nil] at hend
  refine Passes.boundary _ (Passes.boundary _ ?_)
  refine Passes.bind (w.passes_cleanupStep _) (Passes.boundary _ ?_)
  refine Passes.bind (w.passes_cleanupStep _) (Passes.boundary _ ?_)
  refine Passes.bind w.passes_storeLogsPart (Passes.boundary _ ?_)
  exact Passes.bind w.passes_downloadPart hend

def runEvents : List ShutdownEvent :=
  w.signalEvents (.runEngine 2) ++ if w.runFails then [.runFailed] else []

/-- The marker file that a run with this exit code leaves. -/
def marker (exitCode : Int) : String :=
  if exitCode = 0 then w.controllerDoneMarker else w.controllerFailedMarker

def markerWritten (path : String) : Bool := path = "" || !w.markerFails path

def markerEvents (path : String) : List ShutdownEvent :=
  if path ≠ "" ∧ w.markerFails path = false then [.wroteMarker path] else []

/-- What `finalize_controller_marker` returns. -/
def finalCode (exitCode : Int) : Int := if w.markerWritten (w.marker exitCode) then exitCode else 1

def finalEvents (exitCode : Int) : List ShutdownEvent :=
  w.markerEvents (w.marker exitCode) ++
    if w.markerWritten (w.marker exitCode) = false ∧ exitCode = 0 then
      w.markerEvents w.controllerFailedMarker
    else []

theorem passes_writeControllerMarker (path : String) :
    w.Passes (w.writeControllerMarker path) [] (w.markerWritten path) (w.markerEvents path) := by
  unfold writeControllerMarker markerWritten markerEvents
  by_cases hpath : path = ""
  · simpa [hpath] using Passes.pure (w := w) true
  · cases hfails : w.markerFails path with
    | true => simpa [hpath] using Passes.pure (w := w) false
    | false =>
      have hwrite : w.Passes (do
          note (.wroteMarker path)
          return true) [] true [.wroteMarker path] := Passes.note _ (Passes.pure _)
      simpa [hpath] using hwrite

theorem passes_finalizeControllerMarker (exitCode : Int) :
    w.Passes (w.finalizeControllerMarker exitCode) [] (w.finalCode exitCode)
      (.finalizing exitCode :: w.finalEvents exitCode) := by
  refine Passes.note _ (Passes.bind (w.passes_writeControllerMarker (w.marker exitCode)) ?_)
  unfold finalCode
  cases hwritten : w.markerWritten (w.marker exitCode) with
  | true => exact Passes.pure _
  | false =>
    by_cases hcode : exitCode = 0
    · have hfailed : w.Passes (do
          let _ ← w.writeControllerMarker w.controllerFailedMarker
          return (1 : Int)) [] 1 (w.markerEvents w.controllerFailedMarker ++ []) :=
        Passes.bind (w.passes_writeControllerMarker _) (Passes.pure _)
      simpa [hcode] using hfailed
    · simpa [hcode] using Passes.pure (w := w) (1 : Int)

/-! ### run_engine -/

theorem exitCode_ne_zero (code : ExitArgument) : code.exitCode ≠ 0 := by
  unfold ExitArgument.exitCode
  split
  · split <;> omega
  · omega

theorem runCode_eq_zero_iff : w.runCode = 0 ↔ w.runFails = false := by
  unfold runCode runFails
  cases w.runOutcome with
  | ok _ => exact iff_of_true rfl rfl
  | error raised =>
    refine iff_of_false ?_ (by simp)
    cases raised with
    | keyboardInterrupt => exact (by decide : (130 : Int) ≠ 0)
    | systemExit code => exact exitCode_ne_zero code
    | exception error => exact Int.one_ne_zero
    | baseException => exact Int.one_ne_zero

/-- The exit code that `run_engine` finalizes. -/
def exitCode : Int := if w.stepsFail then 1 else w.runCode

theorem run_engineRun (log : List ShutdownEvent) :
    EStateM.run (do
      w.boundary (.runEngine 2)
      ofExcept w.engineRun
      return (0 : Int)) log =
      resultOf (w.runOutcome.map fun _ => 0) (log ++ w.signalEvents (.runEngine 2)) := by
  unfold runOutcome signalled signalEvents boundary
  cases w.arrives (.runEngine 2) with
  | some signal => rfl
  | none =>
    rw [List.append_nil]
    cases w.engineRun <;> rfl

/-- The `try` statement around `engine.run()`. -/
theorem returnsWhen_run :
    ReturnsWhen (tryCatch (do
      w.boundary (.runEngine 2)
      ofExcept w.engineRun
      return 0) w.exceptRun)
      (w.runOutcome ≠ .error .baseException ∧ w.Quiet w.exposedExcept) w.runCode w.runEvents := by
  apply ReturnsWhen.tryCatch w.run_engineRun
  unfold exposedExcept runCode runFails
  cases w.runOutcome with
  | ok _ => exact Passes.and_left (Passes.pure 0) (by simp)
  | error raised =>
    cases raised with
    | keyboardInterrupt =>
      refine Passes.and_left (Passes.boundary _ (Passes.boundary _ (Passes.note _ ?_))) (by simp)
      exact Passes.boundary _ (Passes.pure _)
    | systemExit code =>
      refine Passes.and_left (Passes.boundary _ (Passes.note _ ?_)) (by simp)
      exact Passes.boundary _ (Passes.pure _)
    | exception error =>
      refine Passes.and_left (Passes.boundary _ (Passes.note _ ?_)) (by simp)
      exact Passes.boundary _ (Passes.boundary _ (Passes.pure _))
    | baseException => exact ⟨fun h => absurd rfl h.1, fun _ log => ⟨_, _, rfl⟩⟩

/-- The `try` statement around the failure report.  Its clause catches no `SystemExit`. -/
theorem returnsWhen_report :
    ReturnsWhen (tryCatch (do
      w.boundary (.runEngine 13)
      ofExcept w.reportInfrastructureState) w.exceptReport)
      (w.reportCaught ∧ w.Quiet (.runEngine 13 ::
        if w.reportInfrastructureState matches .error (.exception _) then [.runEngine 14] else []))
      () [] := by
  cases harrives : w.arrives (.runEngine 13) with
  | some signal =>
    refine ⟨fun h => ?_, fun _ log => ?_⟩
    · rw [quiet_cons, harrives] at h
      exact nomatch h.2.1
    · unfold boundary
      rw [harrives]
      exact ⟨_, _, rfl⟩
  | none =>
    have hbody : ∀ log, EStateM.run (do
        w.boundary (.runEngine 13)
        ofExcept w.reportInfrastructureState) log =
        resultOf w.reportInfrastructureState (log ++ []) := by
      intro log
      unfold boundary
      rw [harrives, List.append_nil]
      cases w.reportInfrastructureState <;> rfl
    refine ReturnsWhen.congr (ReturnsWhen.tryCatch
      hbody ?_) (by rw [quiet_cons, and_iff_right harrives]) rfl rfl
    unfold reportCaught
    cases w.reportInfrastructureState with
    | ok _ => exact Passes.and_left (Passes.pure ()) rfl
    | error raised =>
      cases raised with
      | exception error => exact Passes.and_left (passes_boundary _) rfl
      | _ => exact ⟨fun h => (nomatch h.1), fun _ log => ⟨_, _, rfl⟩⟩

/-- The failure report, which only a failed run makes. -/
theorem returnsWhen_reportPart :
    ReturnsWhen (w.reportPart w.runCode)
      ((w.runFails → w.reportCaught) ∧ w.Quiet w.exposedReport) () [] := by
  unfold reportPart exposedReport
  cases hfails : w.runFails with
  | false =>
    rw [if_pos (w.runCode_eq_zero_iff.2 hfails)]
    exact Passes.and_left (Passes.pure ()) (by simp)
  | true =>
    have hcode : w.runCode ≠ 0 := by
      rw [Ne, runCode_eq_zero_iff, hfails]
      decide
    rw [if_neg hcode]
    refine (ReturnsWhen.bind (passes_boundary _) w.returnsWhen_report).congr ?_ rfl rfl
    simp only [if_true, true_implies, quiet_cons, quiet_nil, and_true]
    exact and_left_comm

/-- The boundaries after the failure report. -/
def exposedEnd : List Boundary :=
  .runEngine 15 :: (w.exposedCleanup ++
    ((if w.stepsFail then [.runEngine 16] else []) ++ [.runEngine 17]))

theorem passes_end :
    w.Passes (do
      w.boundary (.runEngine 15)
      let failed ← w.cleanup
      let exitCode ← (if failed then do
          w.boundary (.runEngine 16)
          return 1
        else return w.runCode : Manager Int)
      w.boundary (.runEngine 17)
      w.finalizeControllerMarker exitCode) w.exposedEnd (w.finalCode w.exitCode)
      (w.cleanupEvents ++ (.finalizing w.exitCode :: w.finalEvents w.exitCode)) := by
  have hcode : w.Passes (if w.stepsFail then (do
      w.boundary (.runEngine 16)
      return 1) else pure w.runCode) (if w.stepsFail then [.runEngine 16] else []) w.exitCode [] := by
    unfold exitCode
    cases w.stepsFail with
    | true => exact Passes.boundary _ (Passes.pure 1)
    | false => exact Passes.pure _
  refine Passes.boundary _ (Passes.bind w.passes_cleanup (Passes.bind hcode ?_))
  exact Passes.boundary _ (w.passes_finalizeControllerMarker w.exitCode)

theorem returnsWhen_runEngine :
    ReturnsWhen w.runEngine (w.Caught ∧ w.Quiet w.exposed) (w.finalCode w.exitCode)
      (w.runEvents ++ (w.cleanupEvents ++
        (.finalizing w.exitCode :: w.finalEvents w.exitCode))) := by
  refine ReturnsWhen.congr (ReturnsWhen.bind (passes_boundary _) (ReturnsWhen.bind
    (passes_boundary _) (ReturnsWhen.bind w.returnsWhen_run (ReturnsWhen.bind (passes_boundary _)
      (ReturnsWhen.bind w.returnsWhen_reportPart w.passes_end))))) ?_ rfl (by simp)
  unfold Caught exposed
  simp only [quiet_cons, quiet_append, quiet_nil, exposedEnd, and_true]
  tauto

/-! ### The release of a run -/

theorem called_mem_attemptEvents {action action' : CleanupAction} :
    .called action' ∈ w.attemptEvents action ↔
      action' = action ∧ w.arrives (.cleanupStep action 1) = none := by
  unfold attemptEvents signalEvents
  cases w.arrives (.cleanupStep action 1) with
  | some signal => simp
  | none =>
    cases w.action action with
    | error raised => simp
    | ok _ => cases w.arrives (.cleanupStep action 2) <;> simp

theorem called_mem_stepEvents {action action' : CleanupAction} :
    .called action' ∈ w.stepEvents action ↔
      action' = action ∧ w.arrives (.cleanupStep action 1) = none := by
  unfold stepEvents
  rw [List.mem_append, called_mem_attemptEvents]
  refine or_iff_left fun hmem => ?_
  split at hmem <;> simp at hmem

theorem called_driver_mem_cleanupEvents :
    .called .driverCleanup ∈ w.cleanupEvents ↔
      w.arrives (.cleanupStep .driverCleanup 1) = none := by
  have hstore : .called .driverCleanup ∉ w.storeEvents := by
    unfold storeEvents
    split
    · simp
    · split <;> simp [called_mem_stepEvents]
  have hdownload : .called .driverCleanup ∉ w.downloadEvents := by
    unfold downloadEvents
    split
    · simp
    · split <;> simp [called_mem_stepEvents]
  simp [cleanupEvents, called_mem_stepEvents, hstore, hdownload]

theorem wroteMarker_of_mem_finalEvents {exitCode : Int} {event : ShutdownEvent}
    (h : event ∈ w.finalEvents exitCode) : ∃ path, event = .wroteMarker path := by
  have hmarker : ∀ path, event ∈ w.markerEvents path → ∃ path, event = .wroteMarker path := by
    intro path hmem
    unfold markerEvents at hmem
    split at hmem
    · exact ⟨path, List.mem_singleton.1 hmem⟩
    · exact nomatch hmem
  rcases List.mem_append.1 h with hmem | hmem
  · exact hmarker _ hmem
  · split at hmem
    · exact hmarker _ hmem
    · exact nomatch hmem

theorem attemptEvents_of_ok {action : CleanupAction} (h : w.stepFails action = false) :
    w.attemptEvents action = [.called action] := by
  unfold stepFails attempt signalled at h
  unfold attemptEvents signalEvents
  cases harrives : w.arrives (.cleanupStep action 1) with
  | some signal => simp [harrives] at h
  | none =>
    cases hraised : w.action action with
    | error raised => simp [harrives, hraised, bind, Except.bind] at h
    | ok _ =>
      cases hafter : w.arrives (.cleanupStep action 2) with
      | some signal => simp [harrives, hraised, hafter, bind, Except.bind] at h
      | none => rfl

/-- A cleanup step with a failure among its events fails. -/
theorem stepFails_of_mem {action : CleanupAction} {event : ShutdownEvent}
    (hmem : event ∈ w.stepEvents action) (hfailure : event.isFailure = true) :
    w.stepFails action = true := by
  cases hfails : w.stepFails action with
  | true => rfl
  | false =>
    unfold stepEvents at hmem
    rw [hfails, attemptEvents_of_ok w hfails] at hmem
    rw [List.mem_singleton.1 hmem] at hfailure
    exact nomatch hfailure

/-- A failure among the events of `cleanup` is one of a step. -/
theorem stepsFail_of_mem {event : ShutdownEvent} (hmem : event ∈ w.cleanupEvents)
    (hfailure : event.isFailure = true) : w.stepsFail = true := by
  have hstore : event ∈ w.storeEvents → w.storeFails = true := by
    unfold storeEvents storeFails
    intro hmem
    split at hmem
    · exact nomatch hmem
    · split at hmem
      · simp_all [stepFails_of_mem w hmem hfailure]
      · exact nomatch hmem
  have hdownload : event ∈ w.downloadEvents → w.downloadFails = true := by
    unfold downloadEvents downloadFails
    intro hmem
    split at hmem
    · exact nomatch hmem
    · split at hmem
      · simp_all [stepFails_of_mem w hmem hfailure]
      · exact nomatch hmem
  unfold cleanupEvents at hmem
  unfold stepsFail
  simp only [List.mem_append] at hmem
  simp only [Bool.or_eq_true]
  rcases hmem with hmem | hmem | hmem | hmem | hmem
  · exact .inl (.inl (.inl (.inl (stepFails_of_mem w hmem hfailure))))
  · exact .inl (.inl (.inl (.inr (stepFails_of_mem w hmem hfailure))))
  · exact .inl (.inl (.inr (hstore hmem)))
  · exact .inl (.inr (hdownload hmem))
  · exact .inr (stepFails_of_mem w hmem hfailure)

/-- An event of the run is one of a run that failed. -/
theorem runCode_ne_zero_of_mem {event : ShutdownEvent} (hmem : event ∈ w.runEvents) :
    w.runCode ≠ 0 := by
  rw [Ne, runCode_eq_zero_iff]
  intro hok
  unfold runFails at hok
  unfold runEvents signalEvents runFails at hmem
  unfold runOutcome signalled at hok hmem
  cases harrives : w.arrives (.runEngine 2) with
  | some signal => simp [harrives] at hok
  | none => cases hrun : w.engineRun <;> simp_all

theorem finalCode_ne_zero {exitCode : Int} (h : exitCode ≠ 0) : w.finalCode exitCode ≠ 0 := by
  unfold finalCode
  split
  · exact h
  · exact Int.one_ne_zero

theorem exitCode_ne_zero_of_mem {event : ShutdownEvent}
    (hmem : event ∈ w.runEvents ++ w.cleanupEvents) (hfailure : event.isFailure = true) :
    w.exitCode ≠ 0 := by
  unfold exitCode
  rcases List.mem_append.1 hmem with hmem | hmem
  · split
    · exact Int.one_ne_zero
    · exact w.runCode_ne_zero_of_mem hmem
  · rw [if_pos (w.stepsFail_of_mem hmem hfailure)]
    exact Int.one_ne_zero

theorem called_not_mem_runEvents (action : CleanupAction) : .called action ∉ w.runEvents := by
  unfold runEvents signalEvents
  cases w.arrives (.runEngine 2) <;> simp

/-- A run that a terminal's Ctrl+C interrupts, with the same signal forwarded to it a second time
before the failure report. -/
def interruptedTwice : ManagerRun where
  noLogs := false
  downloadBtcData := ""
  controllerDoneMarker := "done"
  controllerFailedMarker := "failed"
  hasNode := true
  arrives
    | .runEngine 2 | .runEngine 13 => some .sigint
    | _ => none
  engineRun := .ok ()
  reportInfrastructureState := .ok ()
  action _ := .ok ()
  markerFails _ := false

/-- The second signal leaves `run_engine` before the driver's cleanup and the marker. -/
theorem interruptedTwice_not_releases :
    interruptedTwice.runEngine.run [] = .error (.systemExit (.int 130))
      [.received .sigint, .runFailed, .received .sigint] ∧ ¬interruptedTwice.Releases := by
  refine ⟨rfl, ?_⟩
  rintro ⟨code, log, hrun, -⟩
  exact nomatch hrun

/-- `run_engine` returns an exit code, after it called the driver's cleanup and then finalized the
marker, if and only if no signal arrives outside the two `try` blocks or before the driver's
cleanup is called, and nothing else escapes.  The code is then non-zero after every failure. -/
theorem releases_iff :
    w.Releases ↔ w.Caught ∧ (∀ place ∈ w.exposed, w.arrives place = none) ∧
      w.arrives (.cleanupStep .driverCleanup 1) = none := by
  unfold Releases
  rw [w.returnsWhen_runEngine.result_iff, and_assoc, ← called_driver_mem_cleanupEvents]
  refine and_congr_right fun _ => and_congr_right fun _ => ?_
  constructor
  · rintro ⟨before, final, after, hlog, hcalled, -⟩
    have hmem : .called .driverCleanup ∈ before ++ .finalizing final :: after :=
      List.mem_append_left _ hcalled
    rw [← hlog] at hmem
    simp only [List.mem_append, List.mem_cons] at hmem
    rcases hmem with hrun | hcleanup | hfinal | hmarker
    · exact absurd hrun (w.called_not_mem_runEvents _)
    · exact hcleanup
    · exact nomatch hfinal
    · obtain ⟨path, hpath⟩ := w.wroteMarker_of_mem_finalEvents hmarker
      exact nomatch hpath
  · intro hcalled
    refine ⟨w.runEvents ++ w.cleanupEvents, w.exitCode, w.finalEvents w.exitCode,
      (List.append_assoc _ _ _).symm, List.mem_append_right _ hcalled, ?_, ?_⟩
    · intro action hmem
      obtain ⟨path, hpath⟩ := w.wroteMarker_of_mem_finalEvents hmem
      exact nomatch hpath
    · rintro ⟨event, hmem, hfailure⟩
      rw [← List.append_assoc] at hmem
      have hcode : w.exitCode ≠ 0 := by
        rcases List.mem_append.1 hmem with hbefore | hafter
        · exact w.exitCode_ne_zero_of_mem hbefore hfailure
        · rcases List.mem_cons.1 hafter with rfl | hmarker
          · exact nomatch hfailure
          · obtain ⟨path, rfl⟩ := w.wroteMarker_of_mem_finalEvents hmarker
            exact nomatch hfailure
      exact ⟨hcode, w.finalCode_ne_zero hcode⟩

end ManagerRun

end CoinjoinEmulator
