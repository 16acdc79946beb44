import Mathlib.Tactic.Tauto
import CoinjoinEmulator.ScenarioRunner.Batch

/-! A stopped batch (scenario_runner.py).  The flag is read at the top of the loop, before a retry
and before the cleanup between two scenarios.  A stop signal that arrives after the last check
before a launch, or while a process runs that `current_process` does not name, comes too late. -/

namespace CoinjoinEmulator.ScenarioRunner

open ProofKit

/-- `_handle_stop_signal` handled a signal. -/
def Event.isStop : Event → Bool
  | .handled signal .. => signal ≠ .sigusr1
  | _ => false

def Event.isLaunch : Event → Bool
  | .launched _ => true
  | _ => false

/-- A stop signal was sent on to every `manager.py run` process alive when it arrived. -/
def Event.Forwarded : Event → Prop
  | .handled signal _ alive _ sent => signal ≠ .sigusr1 → ∀ run ∈ alive, (run, signal) ∈ sent
  | _ => True

/-- No `manager.py run` process is launched after a stop signal, and each one that was alive was
sent the signal. -/
structure StaysStopped (log : List Event) : Prop where
  noLaunch : log.Pairwise fun event later => event.isStop = true → later.isLaunch = false
  forwarded : ∀ event ∈ log, event.Forwarded

namespace Batch

variable (w : Batch)

def launches (run : RunId) : Bool := !w.statusFails run && !w.popenFails run

/-- The runner is past the last check of `stop_requested` before a launch. -/
def commits : Moment → Bool
  | .starting run => w.launches run
  | .cleanup (.retry i) => w.cleanupSucceeds (.retry i) && w.launches ⟨i, .retry⟩
  | _ => false

/-- A stop signal arrives before the last check, and while no process runs but the tracked one. -/
def Timely : Event → Prop
  | .handled signal moment alive tracked _ =>
    signal ≠ .sigusr1 → w.commits moment = false ∧ ∀ run ∈ alive, tracked = some run
  | _ => True

/-! ### Logs that grow -/

/-- The log stays stopped from a state in which a stop may have been requested already. -/
def Safe (stopped : Bool) (added : List Event) : Prop :=
  StaysStopped added ∧ (stopped = true → ∀ event ∈ added, event.isLaunch = false)

/-- A program appends events.  They stay stopped if and only if they are timely. -/
def Follows (s s' : Runner) : Prop :=
  ∃ added, s'.log = s.log ++ added ∧
    s'.stopRequested = (s.stopRequested || added.any Event.isStop) ∧
    (Safe s.stopRequested added ↔ ∀ event ∈ added, w.Timely event)

theorem safe_append {stopped : Bool} {added added' : List Event} :
    Safe stopped (added ++ added') ↔
      Safe stopped added ∧ Safe (stopped || added.any Event.isStop) added' := by
  constructor
  · rintro ⟨⟨hlaunch, hforwarded⟩, hstopped⟩
    rw [List.pairwise_append] at hlaunch
    obtain ⟨hfirst, hsecond, hcross⟩ := hlaunch
    refine ⟨⟨⟨hfirst, fun event hmem => hforwarded event (List.mem_append_left _ hmem)⟩,
      fun h event hmem => hstopped h event (List.mem_append_left _ hmem)⟩,
      ⟨hsecond, fun event hmem => hforwarded event (List.mem_append_right _ hmem)⟩, ?_⟩
    intro h event hmem
    rcases Bool.or_eq_true_iff.1 h with hold | hnew
    · exact hstopped hold event (List.mem_append_right _ hmem)
    · obtain ⟨stop, hstop, his⟩ := List.any_eq_true.1 hnew
      exact hcross stop hstop event hmem his
  · rintro ⟨⟨⟨hfirst, hforwarded⟩, hstopped⟩, ⟨⟨hsecond, hforwarded'⟩, hstopped'⟩⟩
    refine ⟨⟨List.pairwise_append.2 ⟨hfirst, hsecond, ?_⟩, ?_⟩, ?_⟩
    · intro stop hstop event hmem his
      exact hstopped' (by simp [List.any_eq_true.2 ⟨stop, hstop, his⟩]) event hmem
    · intro event hmem
      rcases List.mem_append.1 hmem with h | h
      · exact hforwarded event h
      · exact hforwarded' event h
    · intro h event hmem
      rcases List.mem_append.1 hmem with hold | hnew
      · exact hstopped h event hold
      · exact hstopped' (by simp [h]) event hnew

theorem safe_nil (stopped : Bool) : Safe stopped [] := ⟨⟨.nil, by simp⟩, by simp⟩

/-- Events without a launch stay stopped when each stop is forwarded. -/
theorem safe_iff_forwarded {stopped : Bool} {added : List Event}
    (hlaunch : ∀ event ∈ added, event.isLaunch = false) :
    Safe stopped added ↔ ∀ event ∈ added, event.Forwarded := by
  refine ⟨fun h => h.1.forwarded, fun h => ⟨⟨?_, h⟩, fun _ => hlaunch⟩⟩
  exact List.pairwise_of_forall_mem_list fun _ _ later hlater _ => hlaunch later hlater

variable {w}

instance : Std.Refl w.Follows := ⟨fun s => ⟨[], by simp, by simp, by simp [safe_nil]⟩⟩

instance : IsTrans Runner w.Follows where
  trans := by
    rintro s s' s'' ⟨added, hlog, hstop, hiff⟩ ⟨added', hlog', hstop', hiff'⟩
    refine ⟨added ++ added', by rw [hlog', hlog, List.append_assoc], ?_, ?_⟩
    · rw [hstop', hstop, List.any_append, Bool.or_assoc]
    · rw [safe_append, ← hstop, hiff, hiff', List.forall_mem_append]

/-- Events without a launch that are forwarded if and only if they are timely. -/
theorem Follows.append {s s' : Runner} (added : List Event) (hlog : s'.log = s.log ++ added)
    (hstop : s'.stopRequested = (s.stopRequested || added.any Event.isStop))
    (hlaunch : ∀ event ∈ added, event.isLaunch = false)
    (hiff : ∀ event ∈ added, event.Forwarded ↔ w.Timely event) : w.Follows s s' :=
  ⟨added, hlog, hstop, (safe_iff_forwarded hlaunch).trans (forall₂_congr hiff)⟩

theorem Follows.silent {s s' : Runner} (hlog : s'.log = s.log)
    (hstop : s'.stopRequested = s.stopRequested) : w.Follows s s' :=
  .append [] (by simp [hlog]) (by simp [hstop]) (by simp) (by simp)

variable (w)

/-! ### Handlers -/

theorem forwarded_entry_iff {moment : Moment} {s : Runner} {signal : Signal} :
    (w.entry moment s signal).Forwarded ↔
      (signal ≠ .sigusr1 → ∀ run ∈ w.aliveAt moment s, s.currentProcess = some run) := by
  refine forall_congr' fun hsignal => forall₂_congr fun run halive => ?_
  simp [target, hsignal, halive]

theorem stopRequested_afterSignals (moment : Moment) (signals : List Signal) (s : Runner) :
    (w.afterSignals moment signals s).stopRequested =
      (s.stopRequested || (signals.map (w.entry moment s)).any Event.isStop) := by
  simp only [afterSignals, List.any_map]
  rfl

theorem isLaunch_entry {moment : Moment} {s : Runner} {signals : List Signal} :
    ∀ event ∈ signals.map (w.entry moment s), event.isLaunch = false := by
  intro event hmem
  obtain ⟨signal, -, rfl⟩ := List.mem_map.1 hmem
  rfl

theorem follows_afterSignals {moment : Moment} (hcommits : w.commits moment = false)
    (signals : List Signal) (s : Runner) : w.Follows s (w.afterSignals moment signals s) := by
  refine .append _ rfl (w.stopRequested_afterSignals moment signals s) w.isLaunch_entry ?_
  intro event hmem
  obtain ⟨signal, -, rfl⟩ := List.mem_map.1 hmem
  rw [forwarded_entry_iff]
  simp only [entry, Timely, hcommits, true_and]

theorem keeps_boundary {moment : Moment} (hcommits : w.commits moment = false) :
    Keeps w.Follows (w.boundary moment) := by
  intro s
  rw [stateAfter_of_ok (w.run_boundary moment s)]
  exact w.follows_afterSignals hcommits _ s

theorem keeps_cleanupKubernetes {id : CleanupId} (hcommits : w.commits (.cleanup id) = false) :
    Keeps w.Follows (w.cleanupKubernetes id) := (w.keeps_boundary hcommits).bind fun _ => .pure _

/-! ### A run -/

theorem keeps_followProcess (run : RunId) : Keeps w.Follows (w.followProcess run) := by
  refine Keeps.bind (w.keeps_boundary rfl) fun _ => ?_
  refine Keeps.bind (.modify fun s => Follows.silent rfl rfl) fun _ => ?_
  refine Keeps.bind (w.keeps_boundary rfl) fun _ => .ite _ ?_ ?_
  · exact Keeps.bind (w.keeps_boundary rfl) fun _ => .pure _
  · refine Keeps.bind (.modify fun s => ?_) fun _ => ?_
    · exact Follows.append [.exited run (w.returnCode run)] rfl (by simp [Event.isStop])
        (by simp [Event.isLaunch]) (by simp [Event.Forwarded, Timely])
    refine Keeps.bind (w.keeps_boundary rfl) fun _ => ?_
    refine Keeps.bind (.modify fun s => Follows.silent rfl rfl) fun _ => ?_
    exact Keeps.bind (w.keeps_boundary rfl) fun _ => .pure _

/-- An event after the last check before a launch.  A stop is not timely there. -/
structure Late (event : Event) : Prop where
  isLaunch : event.isLaunch = false
  stop : event.isStop = true → ¬w.Timely event
  other : event.isStop = false → event.Forwarded ∧ w.Timely event

theorem late_entry (moment : Moment) (hcommits : w.commits moment = true) (signals : List Signal)
    (s : Runner) : ∀ event ∈ signals.map (w.entry moment s), w.Late event := by
  intro event hmem
  obtain ⟨signal, -, rfl⟩ := List.mem_map.1 hmem
  refine ⟨rfl, fun hstop htimely => ?_, fun hother => ?_⟩
  · have hsignal : signal ≠ .sigusr1 := by simpa [Event.isStop, entry] using hstop
    have hcheck := (htimely hsignal).1
    rw [hcommits] at hcheck
    cases hcheck
  · have hsignal : signal = .sigusr1 := by simpa [Event.isStop, entry] using hother
    exact ⟨fun h => absurd hsignal h, fun h => absurd hsignal h⟩

/-- A launch after late events: the log stays stopped if and only if none of them is a stop. -/
theorem follows_launch {s s' : Runner} (pre : List Event) (run : RunId)
    (hstopped : s.stopRequested = false) (hlog : s'.log = s.log ++ pre)
    (hstop : s'.stopRequested = pre.any Event.isStop) (hlate : ∀ event ∈ pre, w.Late event) :
    w.Follows s (stateAfter (launch run) s') := by
  refine ⟨pre ++ [.launched run], ?_, ?_, ?_⟩
  · show s'.log ++ [.launched run] = _
    rw [hlog, List.append_assoc]
  · show s'.stopRequested = _
    simp [hstop, hstopped, Event.isStop]
  rw [safe_append, hstopped, Bool.false_or, List.forall_mem_append]
  by_cases hany : ∃ event ∈ pre, event.isStop = true
  · obtain ⟨event, hmem, his⟩ := hany
    refine iff_of_false ?_ fun h => (hlate event hmem).stop his (h.1 event hmem)
    rintro ⟨-, -, hlaunch⟩
    have hone := hlaunch (List.any_eq_true.2 ⟨event, hmem, his⟩) (.launched run) (by simp)
    exact nomatch hone
  · have hother : ∀ event ∈ pre, event.isStop = false := by
      intro event hmem
      exact Bool.eq_false_iff.2 fun his => hany ⟨event, hmem, his⟩
    refine iff_of_true ⟨?_, ⟨⟨List.pairwise_singleton _ _, by simp [Event.Forwarded]⟩, ?_⟩⟩ ?_
    · rw [safe_iff_forwarded fun event hmem => (hlate event hmem).isLaunch]
      exact fun event hmem => ((hlate event hmem).other (hother event hmem)).1
    · intro hstopped'
      obtain ⟨event, hmem, his⟩ := List.any_eq_true.1 hstopped'
      exact absurd ⟨event, hmem, his⟩ hany
    · exact ⟨fun event hmem => ((hlate event hmem).other (hother event hmem)).2, by simp [Timely]⟩

/-- A run that is launched, after late events. -/
theorem follows_runScenario_late {s s' : Runner} (pre : List Event) {run : RunId}
    (hlaunches : w.launches run = true) (hstopped : s.stopRequested = false)
    (hlog : s'.log = s.log ++ pre) (hstop : s'.stopRequested = pre.any Event.isStop)
    (hlate : ∀ event ∈ pre, w.Late event) : w.Follows s (stateAfter (w.runScenario run) s') := by
  have hruns : w.statusFails run = false ∧ w.popenFails run = false := by
    simpa [launches] using hlaunches
  let s₁ := w.afterSignals (.starting run) (w.arrives (.starting run)) s'
  have hafter : stateAfter (w.runScenario run) s' =
      stateAfter (w.followProcess run) (stateAfter (launch run) s₁) := by
    simp only [stateAfter, runScenario, EStateM.run_bind, run_boundary, hruns]
    rfl
  have hlaunch : w.Follows s (stateAfter (launch run) s₁) := by
    refine w.follows_launch (pre ++ (w.arrives (.starting run)).map (w.entry (.starting run) s'))
      run hstopped ?_ ?_ ?_
    · show s'.log ++ _ = _
      rw [hlog, List.append_assoc]
    · rw [stopRequested_afterSignals, hstop, List.any_append]
    · rw [List.forall_mem_append]
      exact ⟨hlate, w.late_entry (.starting run) hlaunches _ _⟩
  rw [hafter]
  exact trans_of w.Follows hlaunch (w.keeps_followProcess run _)

theorem keeps_runScenario_of_not_launches {run : RunId} (h : w.launches run = false) :
    Keeps w.Follows (w.runScenario run) := by
  refine Keeps.bind (w.keeps_boundary h) fun _ => ?_
  cases hstatus : w.statusFails run with
  | true => exact Keeps.throw _
  | false =>
    have hpopen : w.popenFails run = true := by simpa [launches, hstatus] using h
    rw [hpopen]
    exact Keeps.bind (w.keeps_boundary rfl) fun _ => .pure _

/-- A run after a check that found no stop. -/
theorem follows_runScenario {s : Runner} (run : RunId) (hstopped : s.stopRequested = false) :
    w.Follows s (stateAfter (w.runScenario run) s) := by
  cases hlaunches : w.launches run with
  | true =>
    exact w.follows_runScenario_late [] hlaunches hstopped (by simp) (by simp [hstopped])
      (by simp)
  | false => exact w.keeps_runScenario_of_not_launches hlaunches s

/-! ### The batch -/

/-- The retry after a check that found no stop. -/
theorem follows_retry {s : Runner} (i : Nat) (hstopped : s.stopRequested = false) :
    w.Follows s (stateAfter (do
      let cleaned ← w.cleanupKubernetes (.retry i)
      if cleaned then
        let success ← w.runScenario ⟨i, .retry⟩
        modify fun s => { s with results := setRetrySuccess success s.results }) s) := by
  let s₁ := w.afterSignals (.cleanup (.retry i)) (w.arrives (.cleanup (.retry i))) s
  have hset : ∀ success, Keeps w.Follows
      (modify fun s => { s with results := setRetrySuccess success s.results } : Program Unit) :=
    fun success => .modify fun s => Follows.silent rfl rfl
  have hafter : stateAfter (do
      let cleaned ← w.cleanupKubernetes (.retry i)
      if cleaned then
        let success ← w.runScenario ⟨i, .retry⟩
        modify fun s => { s with results := setRetrySuccess success s.results }) s =
      if w.cleanupSucceeds (.retry i) then
        stateAfter (do
          let success ← w.runScenario ⟨i, .retry⟩
          modify fun s => { s with results := setRetrySuccess success s.results }) s₁
      else s₁ := by
    simp only [stateAfter, EStateM.run_bind, run_cleanupKubernetes]
    cases w.cleanupSucceeds (.retry i) <;> rfl
  rw [hafter]
  cases hcommits : w.commits (.cleanup (.retry i)) with
  | true =>
    obtain ⟨hcleaned, hlaunches⟩ : w.cleanupSucceeds (.retry i) = true ∧
        w.launches ⟨i, .retry⟩ = true := by simpa [commits] using hcommits
    rw [if_pos hcleaned]
    refine trans_of w.Follows ?_ (Keeps.stateAfter_bind hset s₁)
    refine w.follows_runScenario_late _ hlaunches hstopped rfl ?_ (w.late_entry _ hcommits _ s)
    rw [stopRequested_afterSignals, hstopped, Bool.false_or]
  | false =>
    have hfirst : w.Follows s s₁ := w.follows_afterSignals hcommits _ s
    split
    · have hlaunches : w.launches ⟨i, .retry⟩ = false := by simp_all [commits]
      exact trans_of w.Follows hfirst
        (Keeps.bind (w.keeps_runScenario_of_not_launches hlaunches) hset s₁)
    · exact hfirst

theorem keeps_retryFailed (i : Nat) (success : Bool) :
    Keeps w.Follows (w.retryFailed i success) := by
  refine Keeps.get_bind fun s => ?_
  by_cases hretry : (!success && !s.stopRequested) = true
  · rw [if_pos hretry]
    exact w.follows_retry i (by simp_all)
  · rw [if_neg hretry]
    exact refl_of w.Follows s

theorem keeps_recordResult (scenario : String) (i : Nat) (success : Bool) :
    Keeps w.Follows (w.recordResult scenario i success) := by
  have happend : ∀ result : ScenarioResult, Keeps w.Follows
      (modify fun s => { s with results := s.results ++ [result] } : Program Unit) :=
    fun result => .modify fun s => Follows.silent rfl rfl
  refine Keeps.bind .get fun s => .ite _ ?_ ?_
  · refine Keeps.bind (happend _) fun _ => Keeps.bind (w.keeps_boundary rfl) fun _ => ?_
    exact .modify fun s => Follows.silent rfl rfl
  · refine Keeps.bind (happend _) fun _ => Keeps.bind (w.keeps_boundary rfl) fun _ => ?_
    exact w.keeps_retryFailed i success

theorem keeps_cleanupBeforeNext (i : Nat) : Keeps w.Follows (w.cleanupBeforeNext i) := by
  refine Keeps.bind .get fun s => .ite _ ?_ (.pure ())
  exact Keeps.bind (w.keeps_cleanupKubernetes rfl) fun _ => .pure ()

theorem follows_runOne {s : Runner} (scenario : String) (i : Nat)
    (hstopped : s.stopRequested = false) :
    w.Follows s (stateAfter (w.runOne scenario i) s) := by
  refine trans_of w.Follows (w.follows_runScenario ⟨i, .first⟩ hstopped)
    (Keeps.stateAfter_bind (fun success => ?_) s)
  refine Keeps.bind (w.keeps_recordResult scenario i success) fun _ => ?_
  refine Keeps.bind (w.keeps_boundary rfl) fun _ => ?_
  refine Keeps.bind (w.keeps_cleanupBeforeNext i) fun _ => ?_
  refine Keeps.bind (w.keeps_boundary rfl) fun _ => ?_
  exact .ite _ (.throw _) (.pure ())

/-- The loop, by induction on the scenarios that remain. -/
theorem keeps_runLoop (remaining : List (String × Nat)) :
    Keeps w.Follows (w.runLoop remaining) := by
  induction remaining with
  | nil => exact .pure ()
  | cons first rest ih =>
    obtain ⟨scenario, i⟩ := first
    refine Keeps.bind (w.keeps_boundary rfl) fun _ => Keeps.get_bind fun s => ?_
    cases hstopped : s.stopRequested with
    | true => exact refl_of w.Follows s
    | false =>
      exact trans_of w.Follows (w.follows_runOne scenario i hstopped)
        (Keeps.stateAfter_bind (fun _ => ih) s)

theorem keeps_runAll : Keeps w.Follows w.runAll := by
  refine Keeps.ite _ (.pure ()) (Keeps.tryFinally ?_ ?_)
  · exact Keeps.bind (w.keeps_cleanupKubernetes rfl) fun _ => w.keeps_runLoop _
  · exact Keeps.bind (w.keeps_cleanupKubernetes rfl) fun _ => .pure ()

/-- A stopped batch launches no run and sends the signal on to each run that is alive, if and only
if each stop signal arrives before the last check before a launch, and while no run is alive but
the one that `current_process` names. -/
theorem staysStopped_iff :
    StaysStopped w.final.log ↔ ∀ event ∈ w.final.log, w.Timely event := by
  obtain ⟨added, hlog, -, hiff⟩ := w.keeps_runAll .init
  have hfinal : w.final.log = added := hlog
  rw [hfinal, ← hiff]
  exact (and_iff_left fun h => nomatch h).symm

end Batch

/-- A scenario whose first run fails.  `SIGTERM` arrives in the cleanup before its retry. -/
def stoppedBeforeRetry : Batch where
  scenarios := ["scenario.json"]
  startFrom := ""
  arrives
    | .cleanup (.retry 0) => [.sigterm]
    | _ => []
  alive _ _ := true
  statusFails _ := false
  popenFails _ := false
  streamFails _ := false
  returnCode _ := 1
  cleanupSucceeds _ := true
  saveFails _ := false

theorem stoppedBeforeRetry_not_staysStopped : ¬StaysStopped stoppedBeforeRetry.final.log := by
  have hlaunch : ¬stoppedBeforeRetry.final.log.Pairwise
      fun event later => event.isStop = true → later.isLaunch = false := by decide
  exact fun h => hlaunch h.noLaunch

end CoinjoinEmulator.ScenarioRunner
