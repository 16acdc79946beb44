import CoinjoinEmulator.Errors
import CoinjoinEmulator.ProofKit.Interrupt

/-! The end of a run (manager.py): the engine's run, its failure report, the cleanup steps and the
controller marker.  A shutdown signal may interrupt the three functions before any of their
statements. -/

namespace CoinjoinEmulator

open ProofKit

inductive ShutdownSignal where
  | sigint
  | sigterm
deriving DecidableEq, Repr

def ShutdownSignal.signum : ShutdownSignal → Int
  | .sigint => 2
  | .sigterm => 15

/-- `e.code` of a `SystemExit`: a number or something else. -/
inductive ExitArgument where
  | int (code : Int)
  | other
deriving DecidableEq, Repr

/-- What a call can raise.  `baseException` is an exception that is none of the other three kinds,
such as `GeneratorExit`. -/
inductive Raised where
  | keyboardInterrupt
  | systemExit (code : ExitArgument)
  | exception (error : PyError)
  | baseException
deriving DecidableEq, Repr

/-- The actions of the cleanup phase. -/
inductive CleanupAction where
  | stopCoinjoins
  | shutdownEngine
  | storeLogs
  | downloadBtcData
  | driverCleanup
deriving DecidableEq, Repr

/-- The point before a statement of one of the three functions.  The statements of a function are
counted from zero in the order of the source, each `try` among them. -/
inductive Boundary where
  | runEngine (statement : Nat)
  | cleanup (statement : Nat)
  | cleanupStep (action : CleanupAction) (statement : Nat)
deriving DecidableEq, Repr

inductive ShutdownEvent where
  | received (signal : ShutdownSignal)
  | runFailed
  | called (action : CleanupAction)
  | failed (action : CleanupAction)
  | finalizing (exitCode : Int)
  | wroteMarker (path : String)
deriving DecidableEq, Repr

/-- The run that is shut down: its arguments, the signals that arrive, and what each call does.
Every boundary is passed at most once, so `arrives` covers every number of signals. -/
structure ManagerRun where
  noLogs : Bool
  downloadBtcData : String
  controllerDoneMarker : String
  controllerFailedMarker : String
  /-- `engine.node is not None` after the run. -/
  hasNode : Bool
  arrives : Boundary → Option ShutdownSignal
  engineRun : Except Raised Unit
  reportInfrastructureState : Except Raised Unit
  action : CleanupAction → Except Raised Unit
  /-- Whether writing this marker raises an `OSError`. -/
  markerFails : String → Bool

abbrev Manager := EStateM Raised (List ShutdownEvent)

def note (event : ShutdownEvent) : Manager Unit := modify (· ++ [event])

def handleShutdownSignal (signal : ShutdownSignal) : Manager Unit := do
  note (.received signal)
  throw (.systemExit (.int (128 + signal.signum)))

/-- `e.code if isinstance(e.code, int) and e.code > 0 else 1`. -/
def ExitArgument.exitCode : ExitArgument → Int
  | .int code => if code > 0 then code else 1
  | .other => 1

namespace ManagerRun

variable (w : ManagerRun)

def boundary (place : Boundary) : Manager Unit :=
  match w.arrives place with
  | none => pure ()
  | some signal => handleShutdownSignal signal

/-- Whether `write_controller_marker` returns; it raises an `OSError` otherwise. -/
def writeControllerMarker (path : String) : Manager Bool :=
  if path = "" then return true
  else if w.markerFails path then return false
  else do
    note (.wroteMarker path)
    return true

def finalizeControllerMarker (exitCode : Int) : Manager Int := do
  note (.finalizing exitCode)
  let marker := if exitCode = 0 then w.controllerDoneMarker else w.controllerFailedMarker
  let written ← w.writeControllerMarker marker
  if written then
    return exitCode
  else
    if exitCode = 0 then
      let _ ← w.writeControllerMarker w.controllerFailedMarker
    return 1

def cleanupStep (action : CleanupAction) : Manager Bool := do
  w.boundary (.cleanupStep action 0)
  tryCatch
    (do
      w.boundary (.cleanupStep action 1)
      note (.called action)
      ofExcept (w.action action)
      w.boundary (.cleanupStep action 2)
      return false)
    fun _ => do
      w.boundary (.cleanupStep action 3)
      note (.failed action)
      w.boundary (.cleanupStep action 4)
      w.boundary (.cleanupStep action 5)
      return true

/-- `if not args.no_logs: ...` in `cleanup`. -/
def storeLogsPart : Manager Bool :=
  if w.noLogs then return false
  else do
    w.boundary (.cleanup 4)
    if w.hasNode then do
      w.boundary (.cleanup 6)
      w.boundary (.cleanup 7)
      w.cleanupStep .storeLogs
    else do
      w.boundary (.cleanup 5)
      return false

/-- `if args.download_btc_data: ...` in `cleanup`. -/
def downloadPart : Manager Bool :=
  if w.downloadBtcData = "" then return false
  else do
    w.boundary (.cleanup 9)
    if w.hasNode then do
      w.boundary (.cleanup 11)
      w.cleanupStep .downloadBtcData
    else do
      w.boundary (.cleanup 10)
      return false

def cleanup : Manager Bool := do
  w.boundary (.cleanup 0)
  w.boundary (.cleanup 1)
  let stopFailed ← w.cleanupStep .stopCoinjoins
  w.boundary (.cleanup 2)
  let shutdownFailed ← w.cleanupStep .shutdownEngine
  w.boundary (.cleanup 3)
  let storeFailed ← w.storeLogsPart
  w.boundary (.cleanup 8)
  let downloadFailed ← w.downloadPart
  w.boundary (.cleanup 12)
  w.boundary (.cleanup 13)
  let driverFailed ← w.cleanupStep .driverCleanup
  w.boundary (.cleanup 14)
  w.boundary (.cleanup 15)
  return stopFailed || shutdownFailed || storeFailed || downloadFailed || driverFailed

/-- The `except` clauses around `engine.run()`.  They return the exit code. -/
def exceptRun : Raised → Manager Int
  | .keyboardInterrupt => do
    w.boundary (.runEngine 3)
    w.boundary (.runEngine 4)
    note .runFailed
    w.boundary (.runEngine 5)
    return 130
  | .systemExit code => do
    w.boundary (.runEngine 6)
    note .runFailed
    w.boundary (.runEngine 7)
    return code.exitCode
  | .exception _ => do
    w.boundary (.runEngine 8)
    note .runFailed
    w.boundary (.runEngine 9)
    w.boundary (.runEngine 10)
    return 1
  | .baseException => throw .baseException

/-- The `except` clause around `engine.report_infrastructure_state()`. -/
def exceptReport : Raised → Manager Unit
  | .exception _ => w.boundary (.runEngine 14)
  | raised => throw raised

/-- `if exit_code: ...` in `run_engine`. -/
def reportPart (exitCode : Int) : Manager Unit :=
  if exitCode = 0 then return ()
  else do
    w.boundary (.runEngine 12)
    tryCatch
      (do
        w.boundary (.runEngine 13)
        ofExcept w.reportInfrastructureState)
      w.exceptReport

def runEngine : Manager Int := do
  w.boundary (.runEngine 0)
  w.boundary (.runEngine 1)
  let exitCode ← tryCatch
    (do
      w.boundary (.runEngine 2)
      ofExcept w.engineRun
      return 0)
    w.exceptRun
  w.boundary (.runEngine 11)
  w.reportPart exitCode
  w.boundary (.runEngine 15)
  let failed ← w.cleanup
  let exitCode ← (if failed then do
      w.boundary (.runEngine 16)
      return 1
    else return exitCode : Manager Int)
  w.boundary (.runEngine 17)
  w.finalizeControllerMarker exitCode

end ManagerRun

end CoinjoinEmulator
