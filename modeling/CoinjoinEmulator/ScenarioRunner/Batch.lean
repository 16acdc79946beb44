import Mathlib.Data.List.Infix
import CoinjoinEmulator.ProofKit.Effect

/-! A batch of scenarios (scenario_runner.py).  Signal handlers run between any two statements of
`run_all` and of the functions that it calls.  They set flags that `run_all` reads at a few
places. -/

namespace CoinjoinEmulator.ScenarioRunner

inductive Signal where
  | sigterm
  | sigint
  | sigusr1
deriving DecidableEq, Repr

/-- The first run of a scenario and its retry. -/
inductive Attempt where
  | first
  | retry
deriving DecidableEq, Repr

/-- A `manager.py run` process, by the index of its scenario. -/
structure RunId where
  scenario : Nat
  attempt : Attempt
deriving DecidableEq, Repr

/-- The calls of `cleanup_kubernetes`. -/
inductive CleanupId where
  | initial
  | retry (scenario : Nat)
  | next (scenario : Nat)
  | final
deriving DecidableEq, Repr

/-- A stretch of statements that neither read nor write what the handlers do.  `starting` lies
before `Popen`, `unassigned` between `Popen` and the assignment of `current_process`, `running`
is the time in which the output is streamed and the process is waited for. -/
inductive Moment where
  | cleanup (id : CleanupId)
  | loopTop (scenario : Nat)
  | starting (run : RunId)
  | unassigned (run : RunId)
  | running (run : RunId)
  | exited (run : RunId)
  | returned (run : RunId)
  | recorded (scenario : Nat)
  | beforeCleanup (scenario : Nat)
  | saving (scenario : Nat)
deriving DecidableEq, Repr

/-- A result of a scenario.  `skipped` is false and `retrySuccess` is absent where the source sets
no such key. -/
structure ScenarioResult where
  scenario : String
  success : Bool
  skipped : Bool
  retrySuccess : Option Bool
deriving DecidableEq, Repr

/-- `handled` is a handler's call: its signal, the `manager.py run` processes alive at the time,
the one that `current_process` names, and what the handler sends. -/
inductive Event where
  | handled (signal : Signal) (moment : Moment) (alive : List RunId) (tracked : Option RunId)
      (sent : List (RunId × Signal))
  | launched (run : RunId)
  | exited (run : RunId) (returnCode : Int)
deriving DecidableEq, Repr

/-- The runner.  `children` are the processes that it launched and has not waited for. -/
structure Runner where
  stopRequested : Bool
  skipRequested : Bool
  currentProcess : Option RunId
  children : List RunId
  results : List ScenarioResult
  log : List Event
deriving DecidableEq, Repr

def Runner.init : Runner := ⟨false, false, none, [], [], []⟩

/-- A file that could not be written. -/
inductive WriteError where
  | status (run : RunId)
  | results (scenario : Nat)
deriving DecidableEq, Repr

/-- The batch with everything that happens to it: its scenarios, the signals that arrive, and how
every run, cleanup and write ends.  `alive` says whether a process that the runner has not waited
for runs at a moment. -/
structure Batch where
  scenarios : List String
  startFrom : String
  arrives : Moment → List Signal
  alive : RunId → Moment → Bool
  statusFails : RunId → Bool
  popenFails : RunId → Bool
  streamFails : RunId → Bool
  returnCode : RunId → Int
  cleanupSucceeds : CleanupId → Bool
  saveFails : Nat → Bool

abbrev Program := EStateM WriteError Runner

namespace Batch

variable (w : Batch)

/-- The processes alive at this moment. -/
def aliveAt (moment : Moment) (s : Runner) : List RunId :=
  s.children.filter fun run => w.alive run moment

/-- `self.current_process and self.current_process.poll() is None`, as a list. -/
def target (moment : Moment) (s : Runner) : List RunId :=
  s.currentProcess.toList.filter fun run => run ∈ w.aliveAt moment s

def handleStopSignal (moment : Moment) (signal : Signal) : Program Unit :=
  modify fun s => { s with
    stopRequested := true
    log := s.log ++ [.handled signal moment (w.aliveAt moment s) s.currentProcess
      ((w.target moment s).map (·, signal))] }

def handleSkipSignal (moment : Moment) : Program Unit :=
  modify fun s => { s with
    skipRequested := true
    log := s.log ++ [.handled .sigusr1 moment (w.aliveAt moment s) s.currentProcess
      ((w.target moment s).map (·, .sigterm))] }

/-- The handler that `__init__` registers for a signal. -/
def handleSignal (moment : Moment) : Signal → Program Unit
  | .sigterm => w.handleStopSignal moment .sigterm
  | .sigint => w.handleStopSignal moment .sigint
  | .sigusr1 => w.handleSkipSignal moment

/-- The handlers of the signals that arrive in a stretch of statements. -/
def boundary (moment : Moment) : Program Unit := forM (w.arrives moment) (w.handleSignal moment)

def cleanupKubernetes (id : CleanupId) : Program Bool := do
  w.boundary (.cleanup id)
  return w.cleanupSucceeds id

/-- `subprocess.Popen(cmd, ...)`. -/
def launch (run : RunId) : Program Unit :=
  modify fun s => { s with children := s.children ++ [run], log := s.log ++ [.launched run] }

/-- The `try` block of `run_scenario` after `Popen`.  A stream that raises leaves the process and
`current_process` as they are. -/
def followProcess (run : RunId) : Program Bool := do
  w.boundary (.unassigned run)
  modify fun s => { s with currentProcess := some run }
  w.boundary (.running run)
  if w.streamFails run then
    w.boundary (.returned run)
    return false
  else
    modify fun s => { s with
      children := s.children.erase run
      log := s.log ++ [.exited run (w.returnCode run)] }
    w.boundary (.exited run)
    modify fun s => { s with currentProcess := none }
    w.boundary (.returned run)
    return w.returnCode run = 0

def runScenario (run : RunId) : Program Bool := do
  w.boundary (.starting run)
  if w.statusFails run then
    throw (.status run)
  else if w.popenFails run then
    w.boundary (.returned run)
    return false
  else
    launch run
    w.followProcess run

/-- `self.results[-1]["retry_success"] = success`. -/
def setRetrySuccess (success : Bool) (results : List ScenarioResult) : List ScenarioResult :=
  results.modifyLast fun result => { result with retrySuccess := some success }

/-- The cleanup and the second run after a failed first one. -/
def retryFailed (i : Nat) (success : Bool) : Program Unit := do
  if !success && !(← get).stopRequested then
    let cleaned ← w.cleanupKubernetes (.retry i)
    if cleaned then
      let success ← w.runScenario ⟨i, .retry⟩
      modify fun s => { s with results := setRetrySuccess success s.results }

/-- The result of a first run, and its retry. -/
def recordResult (scenario : String) (i : Nat) (success : Bool) : Program Unit := do
  if (← get).skipRequested then
    modify fun s => { s with results := s.results ++ [⟨scenario, false, true, none⟩] }
    w.boundary (.recorded i)
    modify fun s => { s with skipRequested := false }
  else
    modify fun s => { s with results := s.results ++ [⟨scenario, success, false, none⟩] }
    w.boundary (.recorded i)
    w.retryFailed i success

/-- `if not self.stop_requested and i < len(scenarios) - 1: ...`. -/
def cleanupBeforeNext (i : Nat) : Program Unit := do
  if !(← get).stopRequested && i + 1 < w.scenarios.length then
    let _ ← w.cleanupKubernetes (.next i)

def saveResults (i : Nat) : Program Unit :=
  if w.saveFails i then throw (.results i) else pure ()

/-- The loop body of `run_all` after the check of `stop_requested`. -/
def runOne (scenario : String) (i : Nat) : Program Unit := do
  let success ← w.runScenario ⟨i, .first⟩
  w.recordResult scenario i success
  w.boundary (.beforeCleanup i)
  w.cleanupBeforeNext i
  w.boundary (.saving i)
  w.saveResults i

def runLoop : List (String × Nat) → Program Unit
  | [] => return ()
  | (scenario, i) :: rest => do
    w.boundary (.loopTop i)
    if (← get).stopRequested then
      return ()
    else
      w.runOne scenario i
      runLoop rest

def startIndex : Nat :=
  if w.startFrom = "" then 0
  else (w.scenarios.findIdx? fun scenario => w.startFrom.toList <:+: scenario.toList).getD 0

/-- The `try` block of `run_all`. -/
def runScenarios : Program Unit := do
  let _ ← w.cleanupKubernetes .initial
  w.runLoop ((w.scenarios.drop w.startIndex).zipIdx w.startIndex)

def finalCleanup : Program Unit := do
  let _ ← w.cleanupKubernetes .final

def runAll : Program Unit :=
  if w.scenarios = [] then return ()
  else tryFinally w.runScenarios w.finalCleanup

/-! ### What a handler leaves -/

/-- The event of a handler's call in this state. -/
def entry (moment : Moment) (s : Runner) (signal : Signal) : Event :=
  .handled signal moment (w.aliveAt moment s) s.currentProcess
    ((w.target moment s).map (·, if signal = .sigusr1 then .sigterm else signal))

/-- The runner after the handlers of these signals. -/
def afterSignals (moment : Moment) (signals : List Signal) (s : Runner) : Runner :=
  { s with
    stopRequested := s.stopRequested || signals.any (· ≠ .sigusr1)
    skipRequested := s.skipRequested || signals.any (· = .sigusr1)
    log := s.log ++ signals.map (w.entry moment s) }

theorem run_forM_handleSignal (moment : Moment) (signals : List Signal) (s : Runner) :
    (forM signals (w.handleSignal moment)).run s = .ok () (w.afterSignals moment signals s) := by
  induction signals generalizing s with
  | nil => simp [afterSignals, EStateM.run_pure]
  | cons signal rest ih =>
    have hone : (w.handleSignal moment signal).run s =
        .ok () (w.afterSignals moment [signal] s) := by
      cases signal <;>
        simp [handleSignal, handleStopSignal, handleSkipSignal, afterSignals, entry]
    rw [List.forM_cons, EStateM.run_bind, hone]
    simp only
    rw [ih]
    simp [afterSignals, entry, aliveAt, target, Bool.or_assoc]

theorem run_boundary (moment : Moment) (s : Runner) :
    (w.boundary moment).run s = .ok () (w.afterSignals moment (w.arrives moment) s) :=
  w.run_forM_handleSignal moment _ s

theorem run_cleanupKubernetes (id : CleanupId) (s : Runner) :
    (w.cleanupKubernetes id).run s =
      .ok (w.cleanupSucceeds id) (w.afterSignals (.cleanup id) (w.arrives (.cleanup id)) s) := by
  rw [cleanupKubernetes, EStateM.run_bind, run_boundary]
  rfl

/-- The runner after `run_all`. -/
def final : Runner := ProofKit.stateAfter w.runAll .init

end Batch

end CoinjoinEmulator.ScenarioRunner
