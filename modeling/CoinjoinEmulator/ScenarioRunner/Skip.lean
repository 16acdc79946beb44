import Mathlib.Data.List.ModifyLast
import CoinjoinEmulator.ScenarioRunner.Batch
import CoinjoinEmulator.ProofKit.Triple

/-! Skipped scenarios (scenario_runner.py).  The flag of a skip is read and reset after the first
run of a scenario only.  A skip at another time marks the wrong scenario, or is lost. -/

namespace CoinjoinEmulator.ScenarioRunner

open ProofKit

/-- `_handle_skip_signal` handled a signal. -/
def Event.isSkip : Event → Bool
  | .handled signal .. => signal = .sigusr1
  | _ => false

/-- The run that `run_scenario` follows at this moment. -/
def Moment.run? : Moment → Option RunId
  | .unassigned run | .running run => some run
  | _ => none

/-- `r["success"] or r.get("retry_success", False)`. -/
def ScenarioResult.successful (result : ScenarioResult) : Bool :=
  result.success || result.retrySuccess = some true

namespace Batch

variable (w : Batch)

/-- The run in progress at a moment: its process is alive. -/
def inProgress? (moment : Moment) : Option RunId := moment.run?.filter (w.alive · moment)

/-- A signal is handled while the run is in progress. -/
def during (run : RunId) : Event → Bool
  | .handled _ moment .. => w.inProgress? moment = some run
  | _ => false

/-- The same batch without the skips that arrive while no run is in progress. -/
def withoutStraySkips : Batch :=
  { w with arrives := fun moment => (w.arrives moment).filter fun signal =>
      signal ≠ .sigusr1 || (w.inProgress? moment).isSome }

/-- A skip affects only the scenario whose run it interrupts. -/
structure SkipsOnlyItsScenario : Prop where
  named : ∀ k result, w.final.results[k]? = some result →
    w.scenarios[w.startIndex + k]? = some result.scenario
  skipped_iff : ∀ k result, w.final.results[k]? = some result →
    (result.skipped = true ↔ ∃ event ∈ w.final.log, event.isSkip = true ∧
      ∃ attempt, w.during ⟨w.startIndex + k, attempt⟩ event = true)
  unchanged : w.final.results = w.withoutStraySkips.final.results
  successful : ∀ run, .exited run 0 ∈ w.final.log →
    (∀ event ∈ w.final.log, w.during run event = false) →
    ∃ k result, run.scenario = w.startIndex + k ∧ w.final.results[k]? = some result ∧
      result.successful = true ∧ result.skipped = false

/-- Every skip arrives while the first run of a scenario is in progress. -/
def SkipsFirstRuns : Prop :=
  ∀ moment, .sigusr1 ∈ w.arrives moment → ∃ i, w.inProgress? moment = some ⟨i, .first⟩

/-! ### Events of a run -/

/-- The event tells something about a run: a signal that it gets, or its end. -/
def About (run : RunId) : Event → Prop
  | .handled _ moment .. => w.inProgress? moment = some run
  | .exited run' _ => run' = run
  | .launched _ => False

/-- Whether a run ends, so that its exit code is read. -/
def ends (run : RunId) : Bool := !w.statusFails run && !w.popenFails run && !w.streamFails run

/-- What `run_scenario` returns. -/
def succeeds (run : RunId) : Bool := w.ends run && w.returnCode run = 0

/-- Events that a run of a scenario may leave.  A skip reaches first runs only. -/
structure OfRun (run : RunId) (event : Event) : Prop where
  about : ∀ run', w.About run' event → run' = run
  skip : event.isSkip = true → w.during run event = true ∧ run.attempt = .first
  exited : ∀ run' code, event = .exited run' code → w.ends run = true ∧ code = w.returnCode run

/-- Events of no run, and no skips. -/
structure OfNoRun (event : Event) : Prop where
  about : ∀ run, ¬w.About run event
  skip : event.isSkip = false

/-- A program appends events with `P` and leaves the results. -/
def Adds (P : Event → Prop) (s s' : Runner) : Prop :=
  ∃ added, s'.log = s.log ++ added ∧ s'.results = s.results ∧
    s'.skipRequested = (s.skipRequested || added.any Event.isSkip) ∧ ∀ event ∈ added, P event

section Adds

variable {w} {P : Event → Prop}

instance : Std.Refl (Adds P) := ⟨fun s => ⟨[], by simp⟩⟩

instance : IsTrans Runner (Adds P) where
  trans := by
    rintro s s' s'' ⟨added, hlog, hresults, hskip, hP⟩ ⟨added', hlog', hresults', hskip', hP'⟩
    refine ⟨added ++ added', by rw [hlog', hlog, List.append_assoc], hresults'.trans hresults, ?_,
      List.forall_mem_append.2 ⟨hP, hP'⟩⟩
    rw [hskip', hskip, List.any_append, Bool.or_assoc]

theorem Adds.silent {s s' : Runner} (hlog : s'.log = s.log) (hresults : s'.results = s.results)
    (hskip : s'.skipRequested = s.skipRequested) : Adds P s s' :=
  ⟨[], by simp [hlog], hresults, by simp [hskip], by simp⟩

theorem Adds.one {s s' : Runner} {event : Event} (hlog : s'.log = s.log ++ [event])
    (hresults : s'.results = s.results) (hskip : s'.skipRequested = s.skipRequested)
    (hnotSkip : event.isSkip = false) (hP : P event) : Adds P s s' :=
  ⟨[event], hlog, hresults, by simp [hskip, hnotSkip], by simpa using hP⟩

theorem Adds.mono {P' : Event → Prop} {s s' : Runner} (h : Adds P s s')
    (himp : ∀ event, P event → P' event) : Adds P' s s' := by
  obtain ⟨added, hlog, hresults, hskip, hP⟩ := h
  exact ⟨added, hlog, hresults, hskip, fun event hmem => himp event (hP event hmem)⟩

theorem keeps_boundary_adds {moment : Moment}
    (h : ∀ s, ∀ signal ∈ w.arrives moment, P (w.entry moment s signal)) :
    Keeps (Adds P) (w.boundary moment) := by
  intro s
  rw [stateAfter_of_ok (w.run_boundary moment s)]
  refine ⟨(w.arrives moment).map (w.entry moment s), rfl, rfl, ?_, ?_⟩
  · simp only [afterSignals, List.any_map]
    rfl
  · intro event hmem
    obtain ⟨signal, hsignal, rfl⟩ := List.mem_map.1 hmem
    exact h s signal hsignal

end Adds

section Runs

variable {w}

/-- A boundary at which no run is in progress. -/
theorem keeps_boundary_ofNoRun (h : w.SkipsFirstRuns) {moment : Moment}
    (hrun : moment.run? = none) : Keeps (Adds w.OfNoRun) (w.boundary moment) := by
  have hprogress : w.inProgress? moment = none := by
    rw [inProgress?, hrun]
    rfl
  refine keeps_boundary_adds fun s signal hsignal => ⟨fun run habout => ?_, ?_⟩
  · have hsome : w.inProgress? moment = some run := habout
    rw [hprogress] at hsome
    cases hsome
  · refine Bool.eq_false_iff.2 fun hskip => ?_
    have husr1 : signal = .sigusr1 := by simpa [Event.isSkip, entry] using hskip
    subst husr1
    obtain ⟨i, hi⟩ := h moment hsignal
    rw [hprogress] at hi
    cases hi

theorem OfNoRun.ofRun {run : RunId} {event : Event} (h : w.OfNoRun event) :
    w.OfRun run event where
  about run' habout := absurd habout (h.about run')
  skip hskip := by
    rw [h.skip] at hskip
    exact nomatch hskip
  exited run' code hevent := by
    subst hevent
    exact absurd rfl (h.about run')

/-- A boundary of a run. -/
theorem keeps_boundary_ofRun (h : w.SkipsFirstRuns) {run : RunId} {moment : Moment}
    (hrun : ∀ run', moment.run? = some run' → run' = run) :
    Keeps (Adds (w.OfRun run)) (w.boundary moment) := by
  have hof : ∀ run', w.inProgress? moment = some run' → run' = run :=
    fun run' hprogress => hrun run' (Option.filter_eq_some_iff.1 hprogress).1
  refine keeps_boundary_adds fun s signal hsignal => ⟨fun run' habout => hof run' habout, ?_, ?_⟩
  · intro hskip
    have husr1 : signal = .sigusr1 := by simpa [Event.isSkip, entry] using hskip
    subst husr1
    obtain ⟨i, hi⟩ := h moment hsignal
    have heq := hof _ hi
    subst heq
    exact ⟨by simp [during, entry, hi], rfl⟩
  · intro run' code hevent
    cases hevent

theorem keeps_followProcess_ofRun (h : w.SkipsFirstRuns) {run : RunId}
    (hstatus : w.statusFails run = false) (hpopen : w.popenFails run = false) :
    Keeps (Adds (w.OfRun run)) (w.followProcess run) := by
  refine Keeps.bind (keeps_boundary_ofRun h (by rintro _ ⟨⟩; rfl)) fun _ => ?_
  refine Keeps.bind (.modify fun s => Adds.silent rfl rfl rfl) fun _ => ?_
  refine Keeps.bind (keeps_boundary_ofRun h (by rintro _ ⟨⟩; rfl)) fun _ => ?_
  cases hstream : w.streamFails run with
  | true =>
    exact Keeps.bind (keeps_boundary_ofRun h (by simp [Moment.run?])) fun _ => .pure _
  | false =>
    refine Keeps.bind (.modify fun s => ?_) fun _ => ?_
    · refine Adds.one rfl rfl rfl rfl ⟨?_, nofun, ?_⟩
      · rintro run' rfl
        rfl
      · rintro run' code ⟨⟩
        exact ⟨by simp [ends, hstatus, hpopen, hstream], rfl⟩
    refine Keeps.bind (keeps_boundary_ofRun h (by simp [Moment.run?])) fun _ => ?_
    refine Keeps.bind (.modify fun s => Adds.silent rfl rfl rfl) fun _ => ?_
    exact Keeps.bind (keeps_boundary_ofRun h (by simp [Moment.run?])) fun _ => .pure _

theorem keeps_runScenario_ofRun (h : w.SkipsFirstRuns) (run : RunId) :
    Keeps (Adds (w.OfRun run)) (w.runScenario run) := by
  refine Keeps.bind (keeps_boundary_ofRun h (by simp [Moment.run?])) fun _ => ?_
  cases hstatus : w.statusFails run with
  | true => exact .throw _
  | false =>
    cases hpopen : w.popenFails run with
    | true =>
      exact Keeps.bind (keeps_boundary_ofRun h (by simp [Moment.run?])) fun _ => .pure _
    | false =>
      refine Keeps.bind (.modify fun s => ?_) fun _ => keeps_followProcess_ofRun h hstatus hpopen
      exact Adds.one rfl rfl rfl rfl ⟨nofun, nofun, nofun⟩

/-- A boundary raises nothing. -/
theorem triple_boundary (moment : Moment) {E : Runner → Prop} :
    Triple (fun _ => True) (w.boundary moment) (fun _ _ => True) E := by
  intro s _
  rw [run_boundary]
  trivial

theorem triple_update {f : Runner → Runner} {E : Runner → Prop} :
    Triple (fun _ => True) (modify f : Program Unit) (fun _ _ => True) E := .modify fun _ h => h

theorem triple_followProcess (run : RunId) {E : Runner → Prop} :
    Triple (fun _ => True) (w.followProcess run)
      (fun success _ => success = (!w.streamFails run && w.returnCode run = 0 : Bool)) E := by
  refine (triple_boundary _).bind fun _ => triple_update.bind fun _ => ?_
  refine (triple_boundary _).bind fun _ => ?_
  cases hstream : w.streamFails run with
  | true => exact (triple_boundary _).bind fun _ => .pure fun _ _ => by simp
  | false =>
    refine triple_update.bind fun _ => (triple_boundary _).bind fun _ => ?_
    refine triple_update.bind fun _ => (triple_boundary _).bind fun _ => ?_
    exact .pure fun _ _ => by simp

theorem triple_runScenario (run : RunId) :
    Triple (fun _ => True) (w.runScenario run) (fun success _ => success = w.succeeds run)
      (fun _ => w.statusFails run = true) := by
  refine (triple_boundary _).bind fun _ => ?_
  cases hstatus : w.statusFails run with
  | true => exact .throw fun _ _ => rfl
  | false =>
    cases hpopen : w.popenFails run with
    | true =>
      refine (triple_boundary _).bind fun _ => .pure fun _ _ => ?_
      simp [succeeds, ends, hpopen]
    | false =>
      refine triple_update.bind fun _ => ?_
      refine (triple_followProcess run).mono (fun _ h => h) ?_ fun _ h => h
      rintro success _ rfl
      simp [succeeds, ends, hstatus, hpopen]

theorem runScenario_spec (h : w.SkipsFirstRuns) (run : RunId) {P : Runner → Prop} :
    Triple P (w.runScenario run)
      (fun success s' => success = w.succeeds run ∧ ∃ s, P s ∧ Adds (w.OfRun run) s s')
      (fun s' => w.statusFails run = true ∧ ∃ s, P s ∧ Adds (w.OfRun run) s s') :=
  ((triple_runScenario run).mono (fun _ _ => trivial) (fun _ _ h => h) fun _ h => h).and_keeps
    (keeps_runScenario_ofRun h run)

/-- What a boundary at which no run is in progress leaves. -/
theorem boundary_spec (h : w.SkipsFirstRuns) {moment : Moment} (hrun : moment.run? = none)
    {P Q E : Runner → Prop}
    (hpost : ∀ s s', P s → Adds w.OfNoRun s s' → Q s') :
    Triple P (w.boundary moment) (fun _ => Q) E := by
  intro s hs
  have hadds := keeps_boundary_ofNoRun h hrun s
  rw [stateAfter_of_ok (w.run_boundary moment s)] at hadds
  rw [run_boundary]
  exact hpost s _ hs hadds

theorem cleanup_spec (h : w.SkipsFirstRuns) {id : CleanupId} {P Q E : Runner → Prop}
    (hpost : ∀ s s', P s → Adds w.OfNoRun s s' → Q s') :
    Triple P (w.cleanupKubernetes id) (fun _ => Q) E :=
  (boundary_spec h rfl hpost).bind fun _ => .pure fun _ hs => hs

end Runs

/-! ### Recorded results -/

/-- What the result of a scenario says about the log. -/
structure Recorded (log : List Event) (i : Nat) (result : ScenarioResult) : Prop where
  named : w.scenarios[i]? = some result.scenario
  skipped_iff : result.skipped = true ↔
    ∃ event ∈ log, event.isSkip = true ∧ ∃ attempt, w.during ⟨i, attempt⟩ event = true
  successful : ∀ attempt, .exited ⟨i, attempt⟩ 0 ∈ log →
    (∀ event ∈ log, w.during ⟨i, attempt⟩ event = false) →
    result.successful = true ∧ result.skipped = false

/-- The results of a run of the batch, in every state that it may end in. -/
structure Results (s : Runner) : Prop where
  recorded : ∀ k result, s.results[k]? = some result →
    w.Recorded s.log (w.startIndex + k) result
  exited : ∀ run code, .exited run code ∈ s.log →
    w.startIndex ≤ run.scenario ∧ run.scenario < w.startIndex + s.results.length

/-- Between two scenarios: those before scenario `i` are recorded, and no other has run. -/
structure Between (i : Nat) (s : Runner) : Prop where
  length : w.startIndex + s.results.length = i
  recorded : ∀ k result, s.results[k]? = some result →
    w.Recorded s.log (w.startIndex + k) result
  about : ∀ event ∈ s.log, ∀ run, w.About run event →
    w.startIndex ≤ run.scenario ∧ run.scenario < i
  skip : s.skipRequested = false

/-- After the first run of scenario `i`.  The flag tells whether a skip interrupted it. -/
structure Ran (i : Nat) (success : Bool) (s : Runner) : Prop where
  length : w.startIndex + s.results.length = i
  recorded : ∀ k result, s.results[k]? = some result →
    w.Recorded s.log (w.startIndex + k) result
  about : ∀ event ∈ s.log, ∀ run, w.About run event →
    w.startIndex ≤ run.scenario ∧ run.scenario < i ∨ run = ⟨i, .first⟩
  skip : s.skipRequested = true ↔
    ∃ event ∈ s.log, event.isSkip = true ∧ w.during ⟨i, .first⟩ event = true
  success : .exited ⟨i, .first⟩ 0 ∈ s.log → success = true

/-- After scenario `i` is recorded with `last`, which was not skipped. -/
structure Kept (i : Nat) (front : List ScenarioResult) (last : ScenarioResult) (s : Runner) :
    Prop where
  results : s.results = front ++ [last]
  length : w.startIndex + front.length = i
  recorded : ∀ k result, front[k]? = some result → w.Recorded s.log (w.startIndex + k) result
  named : w.scenarios[i]? = some last.scenario
  about : ∀ event ∈ s.log, ∀ run, w.About run event →
    w.startIndex ≤ run.scenario ∧ run.scenario < i + 1
  notSkipped : last.skipped = false
  noSkip : ∀ event ∈ s.log, event.isSkip = true → ∀ attempt, w.during ⟨i, attempt⟩ event = false
  skip : s.skipRequested = false
  first : .exited ⟨i, .first⟩ 0 ∈ s.log → last.success = true

/-- Scenario `i` is recorded, and no retry of it has ended. -/
def Unretried (i : Nat) (front : List ScenarioResult) (last : ScenarioResult) (s : Runner) : Prop :=
  w.Kept i front last s ∧ ∀ code, .exited ⟨i, .retry⟩ code ∉ s.log

section Recorded

variable {w} {log added : List Event} {i : Nat} {result : ScenarioResult} {s s' : Runner}

theorem about_of_during {run : RunId} {event : Event} (h : w.during run event = true) :
    w.About run event := by
  cases event with
  | handled signal moment alive tracked sent => simpa [during, About] using h
  | launched run' => exact nomatch h
  | exited run' code => exact nomatch h

/-- Events of other scenarios leave a result as it is. -/
theorem Recorded.append (h : w.Recorded log i result)
    (hother : ∀ event ∈ added, ∀ attempt, ¬w.About ⟨i, attempt⟩ event) :
    w.Recorded (log ++ added) i result where
  named := h.named
  skipped_iff := by
    rw [h.skipped_iff]
    constructor
    · rintro ⟨event, hmem, hevent⟩
      exact ⟨event, List.mem_append_left _ hmem, hevent⟩
    · rintro ⟨event, hmem, hskip, attempt, hduring⟩
      rcases List.mem_append.1 hmem with hold | hnew
      · exact ⟨event, hold, hskip, attempt, hduring⟩
      · exact absurd (about_of_during hduring) (hother event hnew attempt)
  successful attempt hexited hduring := by
    rcases List.mem_append.1 hexited with hold | hnew
    · exact h.successful attempt hold fun event hmem => hduring event (List.mem_append_left _ hmem)
    · exact absurd rfl (hother _ hnew attempt)

theorem Between.results (h : w.Between i s) : w.Results s where
  recorded := h.recorded
  exited run code hmem := by
    rw [h.length]
    exact h.about _ hmem run rfl

theorem Between.ofNoRun (h : w.Between i s) (hadds : Adds w.OfNoRun s s') : w.Between i s' := by
  obtain ⟨added, hlog, hresults, hskip, hnoRun⟩ := hadds
  refine ⟨by rw [hresults, h.length], ?_, ?_, ?_⟩
  · intro k result hk
    rw [hlog]
    rw [hresults] at hk
    exact (h.recorded k result hk).append fun event hmem attempt => (hnoRun event hmem).about _
  · intro event hmem run habout
    rw [hlog] at hmem
    rcases List.mem_append.1 hmem with hold | hnew
    · exact h.about event hold run habout
    · exact absurd habout ((hnoRun event hnew).about run)
  · rw [hskip, h.skip, Bool.false_or, List.any_eq_false]
    exact fun event hmem => by simp [(hnoRun event hmem).skip]

/-- Results of earlier scenarios are left alone by the events of a run. -/
theorem Recorded.append_ofRun {run : RunId} (h : w.Recorded log i result)
    (hrun : ∀ event ∈ added, w.OfRun run event) (hi : i < run.scenario) :
    w.Recorded (log ++ added) i result := by
  refine h.append fun event hmem attempt habout => ?_
  have heq := (hrun event hmem).about _ habout
  rw [← heq] at hi
  exact absurd hi (Nat.lt_irrefl i)

theorem lt_of_getElem? {results : List ScenarioResult} {k : Nat}
    (hlength : w.startIndex + results.length = i) (hk : results[k]? = some result) :
    w.startIndex + k < i := by
  obtain ⟨hlt, -⟩ := List.getElem?_eq_some_iff.1 hk
  omega

theorem getElem?_append_singleton {front : List ScenarioResult} {last : ScenarioResult} {k : Nat}
    (hk : (front ++ [last])[k]? = some result) :
    front[k]? = some result ∨ k = front.length ∧ last = result := by
  rcases Nat.lt_or_ge k front.length with hlt | hge
  · rw [List.getElem?_append_left hlt] at hk
    exact .inl hk
  · rw [List.getElem?_append_right hge, List.getElem?_singleton] at hk
    split at hk
    · exact .inr ⟨by omega, Option.some.inj hk⟩
    · exact nomatch hk

theorem Between.ran (h : w.Between i s) (hadds : Adds (w.OfRun ⟨i, .first⟩) s s') :
    w.Ran i (w.succeeds ⟨i, .first⟩) s' := by
  obtain ⟨added, hlog, hresults, hskip, hrun⟩ := hadds
  refine ⟨by rw [hresults, h.length], ?_, ?_, ?_, ?_⟩
  · intro k result hk
    rw [hlog]
    rw [hresults] at hk
    exact (h.recorded k result hk).append_ofRun hrun (lt_of_getElem? h.length hk)
  · intro event hmem run habout
    rw [hlog] at hmem
    rcases List.mem_append.1 hmem with hold | hnew
    · exact .inl (h.about event hold run habout)
    · exact .inr ((hrun event hnew).about run habout)
  · rw [hskip, h.skip, Bool.false_or, List.any_eq_true, hlog]
    constructor
    · rintro ⟨event, hmem, his⟩
      exact ⟨event, List.mem_append_right _ hmem, his, ((hrun event hmem).skip his).1⟩
    · rintro ⟨event, hmem, his, hduring⟩
      rcases List.mem_append.1 hmem with hold | hnew
      · exact absurd (h.about event hold _ (about_of_during hduring)).2 (Nat.lt_irrefl i)
      · exact ⟨event, hnew, his⟩
  · intro hexited
    rw [hlog] at hexited
    rcases List.mem_append.1 hexited with hold | hnew
    · exact absurd (h.about _ hold _ rfl).2 (Nat.lt_irrefl i)
    · obtain ⟨hends, hcode⟩ := (hrun _ hnew).exited _ _ rfl
      simp [succeeds, hends, ← hcode]

/-- A status file that could not be written ends the batch before the run. -/
theorem Between.results_of_statusFails (h : w.Between i s)
    (hadds : Adds (w.OfRun ⟨i, .first⟩) s s') (hstatus : w.statusFails ⟨i, .first⟩ = true) :
    w.Results s' := by
  refine ⟨(h.ran hadds).recorded, fun run code hexited => ?_⟩
  obtain ⟨added, hlog, hresults, -, hrun⟩ := hadds
  rw [hresults, h.length]
  rw [hlog] at hexited
  rcases List.mem_append.1 hexited with hold | hnew
  · exact h.about _ hold run rfl
  · obtain ⟨hends, -⟩ := (hrun _ hnew).exited _ _ rfl
    simp [ends, hstatus] at hends

/-- The next scenario follows one that was not skipped. -/
theorem Kept.between {front : List ScenarioResult} (h : w.Kept i front result s)
    (hretry : .exited ⟨i, .retry⟩ 0 ∈ s.log → result.retrySuccess = some true) :
    w.Between (i + 1) s := by
  refine ⟨?_, ?_, h.about, h.skip⟩
  · rw [h.results, List.length_append, List.length_singleton, ← Nat.add_assoc, h.length]
  · intro k result' hk
    rw [h.results] at hk
    rcases getElem?_append_singleton hk with hfront | ⟨rfl, rfl⟩
    · exact h.recorded k result' hfront
    · rw [h.length]
      refine ⟨h.named, ?_, fun attempt hexited _ => ⟨?_, h.notSkipped⟩⟩
      · rw [h.notSkipped]
        refine iff_of_false nofun ?_
        rintro ⟨event, hmem, his, attempt, hduring⟩
        rw [h.noSkip event hmem his attempt] at hduring
        exact nomatch hduring
      · cases attempt with
        | first => simp [ScenarioResult.successful, h.first hexited]
        | retry => simp [ScenarioResult.successful, hretry hexited]

/-- Neither the retry nor what surrounds it interrupts or ends the first run. -/
theorem Kept.ofRetry {front : List ScenarioResult} (h : w.Kept i front result s)
    (hadds : Adds (w.OfRun ⟨i, .retry⟩) s s') : w.Kept i front result s' := by
  obtain ⟨added, hlog, hresults, hskip, hrun⟩ := hadds
  have hnoSkip : ∀ event ∈ added, event.isSkip = false := by
    intro event hmem
    refine Bool.eq_false_iff.2 fun his => ?_
    exact nomatch ((hrun event hmem).skip his).2
  refine ⟨by rw [hresults, h.results], h.length, ?_, h.named, ?_, h.notSkipped, ?_, ?_, ?_⟩
  · intro k result' hk
    rw [hlog]
    exact (h.recorded k result' hk).append_ofRun hrun (lt_of_getElem? h.length hk)
  · intro event hmem run habout
    rw [hlog] at hmem
    rcases List.mem_append.1 hmem with hold | hnew
    · exact h.about event hold run habout
    · rw [(hrun event hnew).about run habout]
      exact ⟨h.length ▸ Nat.le_add_right _ _, Nat.lt_succ_self i⟩
  · intro event hmem his
    rw [hlog] at hmem
    rcases List.mem_append.1 hmem with hold | hnew
    · exact h.noSkip event hold his
    · rw [hnoSkip event hnew] at his
      exact nomatch his
  · rw [hskip, h.skip, Bool.false_or, List.any_eq_false]
    exact fun event hmem => by simp [hnoSkip event hmem]
  · intro hexited
    rw [hlog] at hexited
    rcases List.mem_append.1 hexited with hold | hnew
    · exact h.first hold
    · exact nomatch (hrun _ hnew).about _ rfl

/-- A run whose process exited with 0 was followed to its end. -/
theorem succeeds_of_exited {run : RunId} (hadds : Adds (w.OfRun run) s s')
    (hnot : .exited run 0 ∉ s.log) (hexited : .exited run 0 ∈ s'.log) :
    w.statusFails run = false ∧ w.succeeds run = true := by
  obtain ⟨added, hlog, -, -, hrun⟩ := hadds
  rw [hlog] at hexited
  obtain ⟨hends, hcode⟩ :=
    (hrun _ ((List.mem_append.1 hexited).resolve_left hnot)).exited _ _ rfl
  refine ⟨by simp_all [ends], by simp [succeeds, hends, ← hcode]⟩

theorem Kept.setRetrySuccess {front : List ScenarioResult} {success : Bool}
    (h : w.Kept i front result s) (hretry : .exited ⟨i, .retry⟩ 0 ∈ s.log → success = true) :
    w.Between (i + 1) { s with results := Batch.setRetrySuccess success s.results } := by
  have hresults : Batch.setRetrySuccess success s.results =
      front ++ [{ result with retrySuccess := some success }] := by
    rw [h.results, Batch.setRetrySuccess, List.modifyLast_concat]
  have hkept : w.Kept i front { result with retrySuccess := some success }
      { s with results := Batch.setRetrySuccess success s.results } :=
    ⟨hresults, h.length, h.recorded, h.named, h.about, h.notSkipped, h.noSkip, h.skip, h.first⟩
  exact hkept.between fun hexited => congrArg some (hretry hexited)

theorem Kept.ofNoRun {front : List ScenarioResult} (h : w.Kept i front result s)
    (hadds : Adds w.OfNoRun s s') : w.Kept i front result s' :=
  h.ofRetry (hadds.mono fun _ hevent => hevent.ofRun)

theorem Ran.kept {success : Bool} {scenario : String} (h : w.Ran i success s)
    (hnamed : w.scenarios[i]? = some scenario) (hskip : s.skipRequested = false) :
    w.Kept i s.results ⟨scenario, success, false, none⟩
      { s with results := s.results ++ [⟨scenario, success, false, none⟩] } where
  results := rfl
  length := h.length
  recorded := h.recorded
  named := hnamed
  about event hmem run habout := by
    rcases h.about event hmem run habout with hbefore | rfl
    · exact ⟨hbefore.1, Nat.lt_succ_of_lt hbefore.2⟩
    · exact ⟨h.length ▸ Nat.le_add_right _ _, Nat.lt_succ_self i⟩
  notSkipped := rfl
  noSkip event hmem his attempt := by
    refine Bool.eq_false_iff.2 fun hduring => ?_
    rcases h.about event hmem _ (about_of_during hduring) with hbefore | heq
    · exact Nat.lt_irrefl i hbefore.2
    · rw [heq] at hduring
      have hset := h.skip.2 ⟨event, hmem, his, hduring⟩
      rw [hskip] at hset
      exact nomatch hset
  skip := hskip
  first := h.success

theorem Ran.not_exited_retry {success : Bool} (h : w.Ran i success s) (code : Int) :
    .exited ⟨i, .retry⟩ code ∉ s.log := by
  intro hmem
  rcases h.about _ hmem _ rfl with hbefore | heq
  · exact Nat.lt_irrefl i hbefore.2
  · exact nomatch heq

/-- A skipped scenario is recorded, and the flag is reset. -/
theorem Ran.skipped {success : Bool} {scenario : String} (h : w.Ran i success s)
    (hnamed : w.scenarios[i]? = some scenario) (hskip : s.skipRequested = true) :
    w.Between (i + 1) { s with
      results := s.results ++ [⟨scenario, false, true, none⟩], skipRequested := false } := by
  obtain ⟨stop, hstop, his, hduring⟩ := h.skip.1 hskip
  refine ⟨?_, ?_, ?_, rfl⟩
  · rw [List.length_append, List.length_singleton, ← Nat.add_assoc, h.length]
  · intro k result hk
    rcases getElem?_append_singleton hk with hfront | ⟨rfl, rfl⟩
    · exact h.recorded k result hfront
    · rw [h.length]
      refine ⟨hnamed, iff_of_true rfl ⟨stop, hstop, his, .first, hduring⟩, ?_⟩
      intro attempt hexited hundisturbed
      cases attempt with
      | first =>
        rw [hundisturbed stop hstop] at hduring
        exact nomatch hduring
      | retry => exact absurd hexited (h.not_exited_retry 0)
  · intro event hmem run habout
    rcases h.about event hmem run habout with hbefore | rfl
    · exact ⟨hbefore.1, Nat.lt_succ_of_lt hbefore.2⟩
    · exact ⟨h.length ▸ Nat.le_add_right _ _, Nat.lt_succ_self i⟩

end Recorded

/-! ### The batch -/

section Batch

variable {w}

theorem not_exited_ofNoRun {s s' : Runner} {run : RunId} {code : Int}
    (hadds : Adds w.OfNoRun s s') (hnot : .exited run code ∉ s.log) :
    .exited run code ∉ s'.log := by
  obtain ⟨added, hlog, -, -, hnoRun⟩ := hadds
  rw [hlog, List.mem_append, not_or]
  exact ⟨hnot, fun hnew => (hnoRun _ hnew).about _ rfl⟩

theorem Unretried.ofNoRun {s s' : Runner} {i : Nat} {front : List ScenarioResult}
    {last : ScenarioResult} (h : w.Unretried i front last s) (hadds : Adds w.OfNoRun s s') :
    w.Unretried i front last s' :=
  ⟨h.1.ofNoRun hadds, fun code => not_exited_ofNoRun hadds (h.2 code)⟩

theorem retryFailed_spec (h : w.SkipsFirstRuns) {i : Nat} (front : List ScenarioResult)
    (last : ScenarioResult) (success : Bool) :
    Triple (w.Unretried i front last) (w.retryFailed i success) (fun _ => w.Between (i + 1))
      w.Results := by
  have hend : Triple (w.Unretried i front last) (pure () : Program Unit)
      (fun _ => w.Between (i + 1)) w.Results :=
    .pure fun s hs => hs.1.between fun hexited => absurd hexited (hs.2 0)
  refine Triple.get_bind fun s₀ hs₀ => Triple.ite _ (fun _ => ?_) fun _ => ?_
  · have hcleanup : Triple (· = s₀) (w.cleanupKubernetes (.retry i))
        (fun _ => w.Unretried i front last) w.Results := by
      apply cleanup_spec h
      rintro s s' rfl hadds
      exact hs₀.ofNoRun hadds
    refine hcleanup.bind fun cleaned => Triple.ite _ (fun _ => ?_) fun _ => hend
    refine ((runScenario_spec h ⟨i, .retry⟩).mono (fun _ hs => hs) (fun _ _ hs => hs) ?_).bind
      fun success' => Triple.modify ?_
    · rintro s' ⟨hstatus, s, ⟨hkept, hnot⟩, hadds⟩
      refine ((hkept.ofRetry hadds).between fun hexited => ?_).results
      exact absurd hstatus (by simp [succeeds_of_exited hadds (hnot 0) hexited])
    · rintro s' ⟨rfl, s, ⟨hkept, hnot⟩, hadds⟩
      exact (hkept.ofRetry hadds).setRetrySuccess fun hexited =>
        (succeeds_of_exited hadds (hnot 0) hexited).2
  · exact hend.mono (by rintro s rfl; exact hs₀) (fun _ _ hs => hs) fun _ hs => hs

/-- The flag is cleared after the events of no run as before them. -/
theorem Adds.clearSkip {s s' : Runner} (hadds : Adds w.OfNoRun s s') :
    Adds w.OfNoRun { s with skipRequested := false } { s' with skipRequested := false } := by
  obtain ⟨added, hlog, hresults, -, hnoRun⟩ := hadds
  refine ⟨added, hlog, hresults, ?_, hnoRun⟩
  show false = (false || _)
  rw [Bool.false_or, eq_comm, List.any_eq_false]
  exact fun event hmem => by simp [(hnoRun event hmem).skip]

theorem recordResult_spec (h : w.SkipsFirstRuns) {scenario : String} {i : Nat} {success : Bool}
    (hnamed : w.scenarios[i]? = some scenario) :
    Triple (w.Ran i success) (w.recordResult scenario i success) (fun _ => w.Between (i + 1))
      w.Results := by
  refine Triple.get_bind fun s₀ hran => Triple.ite _ (fun hskip => ?_) fun hskip => ?_
  · refine Triple.bind (Triple.modify (Q := fun _ s =>
      w.Between (i + 1) { s with skipRequested := false }) ?_) fun _ => ?_
    · rintro s rfl
      exact hran.skipped hnamed hskip
    refine (boundary_spec h rfl fun s s' hs hadds =>
      hs.ofNoRun hadds.clearSkip).bind fun _ => ?_
    exact .modify fun s hs => hs
  · refine Triple.bind (Triple.modify (Q := fun _ =>
      w.Unretried i s₀.results ⟨scenario, success, false, none⟩) ?_) fun _ => ?_
    · rintro s rfl
      exact ⟨hran.kept hnamed (Bool.eq_false_iff.2 hskip), hran.not_exited_retry⟩
    exact (boundary_spec h rfl fun s s' hs => hs.ofNoRun).bind fun _ =>
      retryFailed_spec h s₀.results _ success

theorem cleanupBeforeNext_spec (h : w.SkipsFirstRuns) {i j : Nat} {E : Runner → Prop} :
    Triple (w.Between i) (w.cleanupBeforeNext j) (fun _ => w.Between i) E := by
  refine Triple.get_bind fun s₀ hs₀ => Triple.ite _ (fun _ => ?_) fun _ => ?_
  · refine (cleanup_spec h ?_).bind fun _ => .pure fun s hs => hs
    rintro s s' rfl hadds
    exact hs₀.ofNoRun hadds
  · refine .pure ?_
    rintro s rfl
    exact hs₀

/-- One scenario. -/
theorem runOne_spec (h : w.SkipsFirstRuns) {scenario : String} {i : Nat}
    (hnamed : w.scenarios[i]? = some scenario) :
    Triple (w.Between i) (w.runOne scenario i) (fun _ => w.Between (i + 1)) w.Results := by
  have hrun : Triple (w.Between i) (w.runScenario ⟨i, .first⟩)
      (fun success => w.Ran i success) w.Results := by
    refine (runScenario_spec h ⟨i, .first⟩).mono (fun _ hs => hs) ?_ ?_
    · rintro _ s' ⟨rfl, s, hs, hadds⟩
      exact hs.ran hadds
    · rintro s' ⟨hstatus, s, hs, hadds⟩
      exact hs.results_of_statusFails hadds hstatus
  refine hrun.bind fun success => (recordResult_spec h hnamed).bind fun _ => ?_
  refine (boundary_spec h rfl fun s s' hs => hs.ofNoRun).bind fun _ => ?_
  refine (cleanupBeforeNext_spec h).bind fun _ => ?_
  refine (boundary_spec h rfl fun s s' hs => hs.ofNoRun).bind fun _ => ?_
  exact .ite _ (fun _ => .throw fun s hs => hs.results) fun _ => .pure fun s hs => hs

/-- The loop, by induction on the scenarios that remain. -/
theorem runLoop_spec (h : w.SkipsFirstRuns) {remaining : List String} {i : Nat}
    (hremaining : w.scenarios.drop i = remaining) :
    Triple (w.Between i) (w.runLoop (remaining.zipIdx i)) (fun _ => w.Results) w.Results := by
  induction remaining generalizing i with
  | nil => exact .pure fun s hs => hs.results
  | cons scenario rest ih =>
    have hnamed : w.scenarios[i]? = some scenario := by
      rw [← List.head?_drop, hremaining]
      rfl
    have hrest : w.scenarios.drop (i + 1) = rest := by
      rw [← List.tail_drop, hremaining]
      rfl
    rw [List.zipIdx_cons]
    refine (boundary_spec h rfl fun s s' hs => hs.ofNoRun).bind fun _ => ?_
    refine Triple.get_bind fun s₀ hs₀ => Triple.ite _ (fun _ => ?_) fun _ => ?_
    · refine .pure ?_
      rintro s rfl
      exact hs₀.results
    · refine Triple.bind ((runOne_spec h hnamed).mono ?_ (fun _ _ hs => hs) fun _ hs => hs)
        fun _ => ih hrest
      rintro s rfl
      exact hs₀

theorem results_runScenarios (h : w.SkipsFirstRuns) :
    w.Results (stateAfter w.runScenarios .init) := by
  have hinit : w.Between w.startIndex .init := ⟨rfl, nofun, nofun, rfl⟩
  refine Triple.stateAfter ((cleanup_spec h ?_).bind fun _ => runLoop_spec h rfl) hinit
  exact fun s s' hs => hs.ofNoRun

/-! ### The final cleanup -/

theorem keeps_finalCleanup :
    Keeps (Adds fun event => ∀ run, ¬w.About run event) w.finalCleanup := by
  refine Keeps.bind (Keeps.bind (keeps_boundary_adds fun s signal _ run habout => ?_)
    fun _ => .pure _) fun _ => .pure _
  have hsome : w.inProgress? (.cleanup .final) = some run := habout
  exact nomatch hsome

theorem Results.append {s s' : Runner} (h : w.Results s)
    (hadds : Adds (fun event => ∀ run, ¬w.About run event) s s') : w.Results s' := by
  obtain ⟨added, hlog, hresults, -, hother⟩ := hadds
  refine ⟨fun k result hk => ?_, fun run code hexited => ?_⟩
  · rw [hresults] at hk
    rw [hlog]
    exact (h.recorded k result hk).append fun event hmem attempt => hother event hmem _
  · rw [hlog] at hexited
    rw [hresults]
    rcases List.mem_append.1 hexited with hold | hnew
    · exact h.exited run code hold
    · exact absurd rfl (hother _ hnew run)

theorem final_eq (hscenarios : w.scenarios ≠ []) :
    w.final = stateAfter w.finalCleanup (stateAfter w.runScenarios .init) := by
  rw [final, runAll, if_neg hscenarios, stateAfter_tryFinally]

theorem final_eq_init (hscenarios : w.scenarios = []) : w.final = .init := by
  rw [final, runAll, if_pos hscenarios]
  rfl

theorem results_final (h : w.SkipsFirstRuns) : w.Results w.final := by
  by_cases hscenarios : w.scenarios = []
  · rw [final_eq_init hscenarios]
    exact ⟨nofun, nofun⟩
  · rw [final_eq hscenarios]
    exact (results_runScenarios h).append (keeps_finalCleanup _)

end Batch

end Batch

end CoinjoinEmulator.ScenarioRunner
