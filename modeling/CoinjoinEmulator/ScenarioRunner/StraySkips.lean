import CoinjoinEmulator.ProofKit.Lockstep
import CoinjoinEmulator.ScenarioRunner.Skip

/-! Skips that arrive while no run is in progress.  A batch runs in lockstep with the same batch
without them, as long as every check that reads their flag would find it set anyway. -/

namespace CoinjoinEmulator.ScenarioRunner

open ProofKit

/-- The run that a moment belongs to. -/
def Moment.about? : Moment → Option RunId
  | .starting run | .unassigned run | .running run | .exited run | .returned run => some run
  | .cleanup _ | .loopTop _ | .recorded _ | .beforeCleanup _ | .saving _ => none

/-- The moment lies in the loop body of scenario `i`, before the flag is read. -/
def Moment.BeforeCheck (i : Nat) (moment : Moment) : Prop :=
  moment = .loopTop i ∨ moment.about? = some ⟨i, .first⟩

instance (i : Nat) (moment : Moment) : Decidable (moment.BeforeCheck i) :=
  inferInstanceAs (Decidable (_ ∨ _))

namespace Batch

variable (w : Batch)

/-- A skip arrives while the first run of scenario `i` is in progress. -/
def Marks (i : Nat) : Prop :=
  w.popenFails ⟨i, .first⟩ = false ∧
    ∃ moment, .sigusr1 ∈ w.arrives moment ∧ w.inProgress? moment = some ⟨i, .first⟩

/-- A skip arrives while no run is in progress, before the flag is read for scenario `i`. -/
def StraysInto (i : Nat) : Prop :=
  ∃ moment, moment.BeforeCheck i ∧ .sigusr1 ∈ w.arrives moment ∧ w.inProgress? moment = none

/-- The runner when `stop_requested` is read for scenario `i`. -/
def atTop (i : Nat) (s : Runner) : Runner := w.afterSignals (.loopTop i) (w.arrives (.loopTop i)) s

/-- The loop comes to scenario `i` in this state. -/
inductive Begins : Nat → Runner → Prop
  | first : Begins w.startIndex (stateAfter (w.cleanupKubernetes .initial) .init)
  | next {i : Nat} {scenario : String} {s s' : Runner} : Begins i s →
      w.scenarios[i]? = some scenario → (w.atTop i s).stopRequested = false →
      (w.runOne scenario i).run (w.atTop i s) = .ok () s' → Begins (i + 1) s'

/-- When the loop comes to a scenario with the flag set, or a skip arrives before the flag is read
while no run is in progress, then another one arrives while the scenario's first run is in progress.
No skip arrives while a retry is in progress. -/
structure SkipsCovered : Prop where
  checks : ∀ i s, w.Begins i s → i < w.scenarios.length → (w.atTop i s).stopRequested = false →
    w.statusFails ⟨i, .first⟩ = false → s.skipRequested = true ∨ w.StraysInto i → w.Marks i
  retries : ∀ moment i, .sigusr1 ∈ w.arrives moment → w.inProgress? moment ≠ some ⟨i, .retry⟩

/-! ### The batch without stray skips -/

/-- The event is no skip that arrived while no run was in progress. -/
def heard : Event → Bool
  | .handled signal moment .. => signal ≠ .sigusr1 || (w.inProgress? moment).isSome
  | .launched _ | .exited .. => true

/-- The states of a batch and of the one without stray skips, but for the flag of a skip. -/
structure Same (s s' : Runner) : Prop where
  stopRequested_eq : s'.stopRequested = s.stopRequested
  currentProcess_eq : s'.currentProcess = s.currentProcess
  children_eq : s'.children = s.children
  results_eq : s'.results = s.results
  log_eq : s'.log = s.log.filter w.heard

section Same

variable {w} {s s' : Runner}

theorem mem_arrives_withoutStraySkips {moment : Moment} {signal : Signal} :
    signal ∈ w.withoutStraySkips.arrives moment ↔
      signal ∈ w.arrives moment ∧ (signal = .sigusr1 → (w.inProgress? moment).isSome = true) := by
  rw [show w.withoutStraySkips.arrives moment = (w.arrives moment).filter fun signal =>
    signal ≠ .sigusr1 || (w.inProgress? moment).isSome from rfl, List.mem_filter]
  simp [Decidable.imp_iff_not_or]

theorem Same.entry_eq (h : w.Same s s') (moment : Moment) :
    w.withoutStraySkips.entry moment s' = w.entry moment s := by
  funext signal
  have halive : w.withoutStraySkips.aliveAt moment s' = w.aliveAt moment s := by
    rw [aliveAt, h.children_eq]
    rfl
  rw [entry, entry, target, target, halive, h.currentProcess_eq]

theorem Same.afterSignals (h : w.Same s s') (moment : Moment) :
    w.Same (w.afterSignals moment (w.arrives moment) s)
      (w.withoutStraySkips.afterSignals moment (w.withoutStraySkips.arrives moment) s') where
  stopRequested_eq := by
    show (s'.stopRequested || List.any (List.filter _ _) _) = (s.stopRequested || List.any _ _)
    rw [h.stopRequested_eq, List.any_filter]
    congr 2
    funext signal
    cases signal <;> simp
  currentProcess_eq := h.currentProcess_eq
  children_eq := h.children_eq
  results_eq := h.results_eq
  log_eq := by
    show s'.log ++ List.map _ (List.filter _ _) = (s.log ++ List.map _ _).filter w.heard
    rw [List.filter_append, List.filter_map, h.log_eq, h.entry_eq]
    rfl

end Same

/-! ### Lockstep -/

/-- Scenario `i` reads the same flag in both batches, if its check is reached. -/
structure Linked (i : Nat) (s s' : Runner) : Prop extends w.Same s s' where
  set_of : s'.skipRequested = true → s.skipRequested = true
  covered : s.skipRequested = true → s'.skipRequested = true ∨
    w.statusFails ⟨i, .first⟩ = true ∨ w.Marks i

/-- The loop comes to scenario `i` in both batches.  The flag of the second one is reset. -/
structure SameTop (i : Nat) (s s' : Runner) : Prop extends w.Same s s' where
  between : w.withoutStraySkips.Between i s'
  begins : w.Begins i s

/-- The handlers and the statements of a run keep the relation. -/
structure KeptBy (R : Runner → Runner → Prop) (run : RunId) : Prop where
  boundary : ∀ moment, moment.about? = some run →
    Lockstep R (w.boundary moment) (w.withoutStraySkips.boundary moment) (fun _ => R) R
  tracked : ∀ currentProcess s s', R s s' → R { s with currentProcess } { s' with currentProcess }
  logged : ∀ (change : List RunId → List RunId) event, w.heard event = true → ∀ s s', R s s' →
    R { s with children := change s.children, log := s.log ++ [event] }
      { s' with children := change s'.children, log := s'.log ++ [event] }

section Lockstep

variable {w} {i : Nat} {R : Runner → Runner → Prop}

theorem lockstep_boundary (moment : Moment) :
    Lockstep w.Same (w.boundary moment) (w.withoutStraySkips.boundary moment) (fun _ => w.Same)
      w.Same := fun s s' h =>
  .inl ⟨(), _, _, w.run_boundary moment s, run_boundary _ moment s', h.afterSignals moment⟩

theorem lockstep_cleanup (id : CleanupId) :
    Lockstep w.Same (w.cleanupKubernetes id) (w.withoutStraySkips.cleanupKubernetes id)
      (fun _ => w.Same) w.Same :=
  (lockstep_boundary _).bind fun _ => .pure fun _ _ h => h

theorem keptBy_same (run : RunId) : w.KeptBy w.Same run where
  boundary _ _ := lockstep_boundary _
  tracked _ _ _ h := ⟨h.stopRequested_eq, rfl, h.children_eq, h.results_eq, h.log_eq⟩
  logged change event hheard s s' h := by
    refine ⟨h.stopRequested_eq, h.currentProcess_eq, congrArg change h.children_eq, h.results_eq,
      ?_⟩
    show s'.log ++ [event] = (s.log ++ [event]).filter w.heard
    rw [List.filter_append, h.log_eq, List.filter_cons_of_pos hheard, List.filter_nil]

/-- A skip that only one batch sees comes before the check of a scenario that another one marks. -/
theorem Linked.afterSignals {moment : Moment} {s s' : Runner} (h : w.Linked i s s')
    (hmoment : moment.BeforeCheck i)
    (hstray : w.StraysInto i → w.statusFails ⟨i, .first⟩ = true ∨ w.Marks i) :
    w.Linked i (w.afterSignals moment (w.arrives moment) s)
      (w.withoutStraySkips.afterSignals moment (w.withoutStraySkips.arrives moment) s') where
  toSame := h.toSame.afterSignals moment
  set_of hset := by
    obtain hold | hnew := Bool.or_eq_true_iff.mp hset
    · exact Bool.or_eq_true_iff.mpr (.inl (h.set_of hold))
    · obtain ⟨signal, hsignal, husr1⟩ := List.any_eq_true.mp hnew
      exact Bool.or_eq_true_iff.mpr (.inr (List.any_eq_true.mpr
        ⟨signal, (mem_arrives_withoutStraySkips.mp hsignal).1, husr1⟩))
  covered hset := by
    obtain hold | hnew := Bool.or_eq_true_iff.mp hset
    · exact (h.covered hold).imp_left fun hset' => Bool.or_eq_true_iff.mpr (.inl hset')
    · obtain ⟨signal, hsignal, husr1⟩ := List.any_eq_true.mp hnew
      have hskip : signal = .sigusr1 := of_decide_eq_true husr1
      subst hskip
      cases hprogress : w.inProgress? moment with
      | none => exact .inr (hstray ⟨moment, hmoment, hsignal, hprogress⟩)
      | some run =>
        refine .inl (Bool.or_eq_true_iff.mpr (.inr (List.any_eq_true.mpr ⟨.sigusr1, ?_, husr1⟩)))
        exact mem_arrives_withoutStraySkips.mpr ⟨hsignal, fun _ => by rw [hprogress]; rfl⟩

theorem keptBy_linked (hstray : w.StraysInto i → w.statusFails ⟨i, .first⟩ = true ∨ w.Marks i) :
    w.KeptBy (w.Linked i) ⟨i, .first⟩ where
  boundary moment hmoment s s' h := .inl ⟨(), _, _, w.run_boundary moment s,
    run_boundary _ moment s', h.afterSignals (.inr hmoment) hstray⟩
  tracked currentProcess s s' h :=
    ⟨(keptBy_same ⟨i, .first⟩).tracked currentProcess s s' h.toSame, h.set_of, h.covered⟩
  logged change event hheard s s' h :=
    ⟨(keptBy_same ⟨i, .first⟩).logged change event hheard s s' h.toSame, h.set_of, h.covered⟩

theorem lockstep_followProcess {run : RunId} (h : w.KeptBy R run) :
    Lockstep R (w.followProcess run) (w.withoutStraySkips.followProcess run) (fun _ => R) R := by
  have htrack : ∀ currentProcess, Lockstep R
      (modify fun s => { s with currentProcess } : Program Unit)
      (modify fun s => { s with currentProcess }) (fun _ => R) R :=
    fun currentProcess => .modify (h.tracked currentProcess)
  have hexit : Lockstep R
      (modify fun s => { s with
        children := s.children.erase run
        log := s.log ++ [.exited run (w.returnCode run)] } : Program Unit)
      (modify fun s => { s with
        children := s.children.erase run
        log := s.log ++ [.exited run (w.returnCode run)] }) (fun _ => R) R :=
    .modify (h.logged (·.erase run) _ rfl)
  refine (h.boundary _ rfl).bind fun _ => (htrack (some run)).bind fun _ => ?_
  refine (h.boundary _ rfl).bind fun _ => .ite _ (fun _ => ?_) fun _ => ?_
  · exact (h.boundary _ rfl).bind fun _ => .pure fun _ _ hs => hs
  · refine hexit.bind fun _ => (h.boundary _ rfl).bind fun _ => (htrack none).bind fun _ => ?_
    exact (h.boundary _ rfl).bind fun _ => .pure fun _ _ hs => hs

theorem lockstep_runScenario {run : RunId} (h : w.KeptBy R run) :
    Lockstep R (w.runScenario run) (w.withoutStraySkips.runScenario run) (fun _ => R) R := by
  have hlaunch : Lockstep R (launch run) (launch run) (fun _ => R) R :=
    .modify (h.logged (· ++ [run]) _ rfl)
  refine (h.boundary _ rfl).bind fun _ => .ite _ (fun _ => .throw fun _ _ hs => hs) fun _ => ?_
  refine .ite _ (fun _ => ?_) fun _ => hlaunch.bind fun _ => lockstep_followProcess h
  exact (h.boundary _ rfl).bind fun _ => .pure fun _ _ hs => hs

theorem lockstep_retryFailed (i : Nat) (success : Bool) :
    Lockstep w.Same (w.retryFailed i success) (w.withoutStraySkips.retryFailed i success)
      (fun _ => w.Same) w.Same := by
  refine .get_bind fun s s' hs => ?_
  rw [hs.stopRequested_eq]
  refine .ite _ (fun _ => ?_) fun _ => .pure ?_
  · refine ((lockstep_cleanup _).mono ?_ (fun _ _ _ h => h) fun _ _ h => h).bind fun cleaned => ?_
    · rintro _ _ ⟨rfl, rfl⟩
      exact hs
    · refine .ite _ (fun _ => ?_) fun _ => .pure fun _ _ h => h
      refine (lockstep_runScenario (keptBy_same _)).bind fun _ => .modify fun _ _ h => ?_
      exact ⟨h.stopRequested_eq, h.currentProcess_eq, h.children_eq,
        congrArg (setRetrySuccess _) h.results_eq, h.log_eq⟩
  · rintro _ _ ⟨rfl, rfl⟩
    exact hs

/-- From equal flags both batches record the same result. -/
theorem lockstep_recordResult (scenario : String) (i : Nat) (success : Bool) :
    Lockstep (fun s s' => w.Same s s' ∧ s'.skipRequested = s.skipRequested)
      (w.recordResult scenario i success) (w.withoutStraySkips.recordResult scenario i success)
      (fun _ => w.Same) w.Same := by
  refine .get_bind fun s s' hs => ?_
  obtain ⟨hs, hflag⟩ := hs
  rw [hflag]
  have hrecord : ∀ result : ScenarioResult, Lockstep (fun t t' => t = s ∧ t' = s')
      (modify fun s => { s with results := s.results ++ [result] } : Program Unit)
      (modify fun s => { s with results := s.results ++ [result] }) (fun _ => w.Same) w.Same := by
    refine fun result => .modify ?_
    rintro _ _ ⟨rfl, rfl⟩
    exact ⟨hs.stopRequested_eq, hs.currentProcess_eq, hs.children_eq,
      congrArg (· ++ [result]) hs.results_eq, hs.log_eq⟩
  refine .ite _ (fun _ => ?_) fun _ => ?_
  · refine (hrecord _).bind fun _ => (lockstep_boundary _).bind fun _ => .modify fun _ _ h => ?_
    exact ⟨h.stopRequested_eq, h.currentProcess_eq, h.children_eq, h.results_eq, h.log_eq⟩
  · exact (hrecord _).bind fun _ => (lockstep_boundary _).bind fun _ =>
      lockstep_retryFailed i success

/-- The handlers at a boundary keep a flag that is set. -/
theorem triple_boundary_set (moment : Moment) {E : Runner → Prop} :
    Triple (·.skipRequested = true) (w.boundary moment) (fun _ s => s.skipRequested = true) E := by
  intro s hs
  rw [run_boundary]
  exact Bool.or_eq_true_iff.mpr (.inl hs)

/-- The handler of a skip sets the flag. -/
theorem triple_boundary_skip {moment : Moment} (hskip : .sigusr1 ∈ w.arrives moment)
    {E : Runner → Prop} :
    Triple (fun _ => True) (w.boundary moment) (fun _ s => s.skipRequested = true) E := by
  intro s _
  rw [run_boundary]
  exact Bool.or_eq_true_iff.mpr (.inr (List.any_eq_true.mpr ⟨.sigusr1, hskip, rfl⟩))

/-- A skip that arrives while a run is in progress leaves the flag set. -/
theorem triple_followProcess_skip {run : RunId} {moment : Moment}
    (hskip : .sigusr1 ∈ w.arrives moment) (hrun : moment.run? = some run) {E : Runner → Prop} :
    Triple (fun _ => True) (w.followProcess run) (fun _ s => s.skipRequested = true) E := by
  have htrack : ∀ currentProcess, Triple (·.skipRequested = true)
      (modify fun s => { s with currentProcess } : Program Unit)
      (fun _ s => s.skipRequested = true) E := fun _ => .modify fun _ hs => hs
  have hexit : Triple (·.skipRequested = true)
      (modify fun s => { s with
        children := s.children.erase run
        log := s.log ++ [.exited run (w.returnCode run)] } : Program Unit)
      (fun _ s => s.skipRequested = true) E := .modify fun _ hs => hs
  have hrest : Triple (·.skipRequested = true) (do
      if w.streamFails run then
        w.boundary (.returned run)
        return false
      else
        modify fun s => { s with
          children := s.children.erase run
          log := s.log ++ [.exited run (w.returnCode run)] }
        w.boundary (.exited run)
        modify fun s => { s with currentProcess := none }
        w.boundary (.returned run)
        return w.returnCode run = 0 : Program Bool) (fun _ s => s.skipRequested = true) E := by
    refine .ite _ (fun _ => (triple_boundary_set _).bind fun _ => .pure fun _ hs => hs) fun _ => ?_
    refine hexit.bind fun _ => (triple_boundary_set _).bind fun _ => (htrack none).bind fun _ => ?_
    exact (triple_boundary_set _).bind fun _ => .pure fun _ hs => hs
  cases moment with
  | unassigned run' =>
    cases hrun
    refine (triple_boundary_skip hskip).bind fun _ => (htrack (some run)).bind fun _ => ?_
    exact (triple_boundary_set _).bind fun _ => hrest
  | running run' =>
    cases hrun
    refine (triple_boundary _).bind fun _ => triple_update.bind fun _ => ?_
    exact (triple_boundary_skip hskip).bind fun _ => hrest
  | _ => cases hrun

/-- A first run that returns has written its status, and a skip that marked it has set the flag. -/
theorem triple_runScenario_marks (i : Nat) :
    Triple (fun _ => True) (w.runScenario ⟨i, .first⟩)
      (fun _ s => w.statusFails ⟨i, .first⟩ = false ∧ (w.Marks i → s.skipRequested = true))
      (fun _ => True) := by
  refine (triple_boundary _).bind fun _ => ?_
  cases hstatus : w.statusFails ⟨i, .first⟩ with
  | true => exact .throw fun _ _ => trivial
  | false =>
    cases hpopen : w.popenFails ⟨i, .first⟩ with
    | true =>
      refine (triple_boundary _).bind fun _ => .pure fun _ _ => ⟨rfl, fun hmarks => ?_⟩
      rw [hmarks.1] at hpopen
      cases hpopen
    | false =>
      refine triple_update.bind fun _ => ?_
      by_cases hmarks : w.Marks i
      · obtain ⟨-, moment, hskip, hprogress⟩ := hmarks
        have hrun := (Option.filter_eq_some_iff.mp hprogress).1
        exact (triple_followProcess_skip hskip hrun).mono (fun _ h => h)
          (fun _ _ hset => ⟨rfl, fun _ => hset⟩) fun _ h => h
      · exact (triple_followProcess ⟨i, .first⟩).mono (fun _ h => h)
          (fun _ _ _ => ⟨rfl, fun h => absurd h hmarks⟩) fun _ h => h

theorem Marks.withoutStraySkips (h : w.Marks i) : w.withoutStraySkips.Marks i := by
  obtain ⟨hpopen, moment, hskip, hprogress⟩ := h
  refine ⟨hpopen, moment, mem_arrives_withoutStraySkips.mpr ⟨hskip, fun _ => ?_⟩, hprogress⟩
  rw [hprogress]
  rfl

/-- One scenario. -/
theorem lockstep_runOne (scenario : String)
    (hstray : w.StraysInto i → w.statusFails ⟨i, .first⟩ = true ∨ w.Marks i) :
    Lockstep (w.Linked i) (w.runOne scenario i) (w.withoutStraySkips.runOne scenario i)
      (fun _ => w.Same) w.Same := by
  have hrun : Lockstep (w.Linked i) (w.runScenario ⟨i, .first⟩)
      (w.withoutStraySkips.runScenario ⟨i, .first⟩)
      (fun _ s s' => w.Same s s' ∧ s'.skipRequested = s.skipRequested) w.Same := by
    refine ((lockstep_runScenario (keptBy_linked hstray)).and_right
      (triple_runScenario_marks i)).mono (fun _ _ h => ⟨h, trivial⟩) ?_ fun _ _ h => h.1.toSame
    rintro _ s s' ⟨hlinked, hstatus, hmarked⟩
    refine ⟨hlinked.toSame, Bool.eq_iff_iff.mpr ⟨hlinked.set_of, fun hset => ?_⟩⟩
    obtain hset' | hfails | hmarks := hlinked.covered hset
    · exact hset'
    · exact absurd hfails (Bool.eq_false_iff.mp hstatus)
    · exact hmarked hmarks.withoutStraySkips
  have hcleanup : Lockstep w.Same (w.cleanupBeforeNext i)
      (w.withoutStraySkips.cleanupBeforeNext i) (fun _ => w.Same) w.Same := by
    refine .get_bind fun s s' hs => ?_
    rw [hs.stopRequested_eq]
    have hpure : Lockstep (fun t t' => t = s ∧ t' = s') (pure () : Program Unit) (pure ())
        (fun _ => w.Same) w.Same := .pure (by rintro _ _ ⟨rfl, rfl⟩; exact hs)
    refine .ite _ (fun _ => ?_) fun _ => hpure
    refine ((lockstep_cleanup _).mono ?_ (fun _ _ _ h => h) fun _ _ h => h).bind fun _ =>
      .pure fun _ _ h => h
    rintro _ _ ⟨rfl, rfl⟩
    exact hs
  refine hrun.bind fun success => (lockstep_recordResult scenario i success).bind fun _ => ?_
  refine (lockstep_boundary _).bind fun _ => hcleanup.bind fun _ => ?_
  refine (lockstep_boundary _).bind fun _ => ?_
  exact .ite _ (fun _ => .throw fun _ _ h => h) fun _ => .pure fun _ _ h => h

/-! ### The batches -/

theorem SkipsCovered.skipsFirstRuns (h : w.SkipsCovered) : w.withoutStraySkips.SkipsFirstRuns := by
  intro moment hskip
  obtain ⟨hskip, hprogress⟩ := mem_arrives_withoutStraySkips.mp hskip
  obtain ⟨⟨i, attempt⟩, hrun⟩ := Option.isSome_iff_exists.mp (hprogress rfl)
  cases attempt with
  | first => exact ⟨i, hrun⟩
  | retry => exact absurd hrun (h.retries moment i hskip)

/-- The first check of a scenario that the loop comes to. -/
theorem SameTop.lockstep_next (h : w.SkipsCovered) {scenario : String} {s s' : Runner}
    (hs : w.SameTop i s s') (hnamed : w.scenarios[i]? = some scenario)
    (hstop : (w.atTop i s).stopRequested = false) :
    Lockstep (fun t t' => t = w.atTop i s ∧ t' = w.withoutStraySkips.atTop i s')
      (w.runOne scenario i) (w.withoutStraySkips.runOne scenario i)
      (fun _ => w.SameTop (i + 1)) w.Same := by
  have hchecks : s.skipRequested = true ∨ w.StraysInto i →
      w.statusFails ⟨i, .first⟩ = true ∨ w.Marks i := by
    intro hflag
    obtain ⟨hlt, -⟩ := List.getElem?_eq_some_iff.mp hnamed
    cases hstatus : w.statusFails ⟨i, .first⟩ with
    | true => exact .inl rfl
    | false => exact .inr (h.checks i s hs.begins hlt hstop hstatus hflag)
  have hlinked : w.Linked i s s' := by
    refine ⟨hs.toSame, fun hset => ?_, fun hset => .inr (hchecks (.inl hset))⟩
    rw [hs.between.skip] at hset
    cases hset
  have htop : w.Linked i (w.atTop i s) (w.withoutStraySkips.atTop i s') :=
    hlinked.afterSignals (.inl rfl) fun hstray => hchecks (.inr hstray)
  have hbetween : w.withoutStraySkips.Between i (w.withoutStraySkips.atTop i s') := by
    have hboundary : Triple (· = s') (w.withoutStraySkips.boundary (.loopTop i))
        (fun _ => w.withoutStraySkips.Between i) (fun _ => True) := by
      refine boundary_spec h.skipsFirstRuns rfl ?_
      rintro _ t rfl hadds
      exact hs.between.ofNoRun hadds
    have hrun := hboundary s' rfl
    rwa [run_boundary] at hrun
  have hone := (lockstep_runOne scenario fun hstray => hchecks (.inr hstray)).and_right
    (runOne_spec h.skipsFirstRuns hnamed)
  refine (hone.and_run ⟨htop, hbetween⟩).mono (fun _ _ ht => ht) ?_ fun _ _ ht => ht.1
  rintro _ t t' ⟨⟨hsame, hnext⟩, hrun⟩
  exact ⟨hsame, hnext, hs.begins.next hnamed hstop hrun⟩

/-- The loop, by induction on the scenarios that remain. -/
theorem lockstep_runLoop (h : w.SkipsCovered) {remaining : List String} {i : Nat}
    (hremaining : w.scenarios.drop i = remaining) :
    Lockstep (w.SameTop i) (w.runLoop (remaining.zipIdx i))
      (w.withoutStraySkips.runLoop (remaining.zipIdx i)) (fun _ => w.Same) w.Same := by
  induction remaining generalizing i with
  | nil => exact .pure fun _ _ hs => hs.toSame
  | cons scenario rest ih =>
    have hnamed : w.scenarios[i]? = some scenario := by
      rw [← List.head?_drop, hremaining]
      rfl
    have hrest : w.scenarios.drop (i + 1) = rest := by
      rw [← List.tail_drop, hremaining]
      rfl
    rw [List.zipIdx_cons]
    refine .of_states fun s s' hs => ?_
    have hboundary : Lockstep (fun t t' => t = s ∧ t' = s') (w.boundary (.loopTop i))
        (w.withoutStraySkips.boundary (.loopTop i))
        (fun _ t t' => t = w.atTop i s ∧ t' = w.withoutStraySkips.atTop i s') w.Same := by
      rintro _ _ ⟨rfl, rfl⟩
      exact .inl ⟨(), _, _, run_boundary _ _ _, run_boundary _ _ _, rfl, rfl⟩
    refine hboundary.bind fun _ => .get_bind ?_
    rintro _ _ ⟨rfl, rfl⟩
    have hsame : w.Same (w.atTop i s) (w.withoutStraySkips.atTop i s') :=
      hs.toSame.afterSignals (.loopTop i)
    rw [hsame.stopRequested_eq]
    refine .ite _ (fun _ => .pure ?_) fun hstop => ?_
    · rintro _ _ ⟨rfl, rfl⟩
      exact hsame
    · exact (hs.lockstep_next h hnamed (Bool.eq_false_iff.mpr hstop)).bind fun _ => ih hrest

theorem same_final (h : w.SkipsCovered) : w.Same w.final w.withoutStraySkips.final := by
  have hinit : w.Same .init .init := ⟨rfl, rfl, rfl, rfl, rfl⟩
  by_cases hscenarios : w.scenarios = []
  · have hscenarios' : w.withoutStraySkips.scenarios = [] := hscenarios
    rw [final_eq_init hscenarios, final_eq_init hscenarios']
    exact hinit
  · have hscenarios' : w.withoutStraySkips.scenarios ≠ [] := hscenarios
    rw [final_eq hscenarios, final_eq hscenarios']
    have hfirst : w.withoutStraySkips.Between w.startIndex .init := ⟨rfl, nofun, nofun, rfl⟩
    have hcleanup : Lockstep (fun t t' => t = .init ∧ t' = .init)
        (w.cleanupKubernetes .initial) (w.withoutStraySkips.cleanupKubernetes .initial)
        (fun _ => w.SameTop w.startIndex) w.Same := by
      have hsecond : Triple (w.withoutStraySkips.Between w.startIndex)
          (w.withoutStraySkips.cleanupKubernetes .initial)
          (fun _ => w.withoutStraySkips.Between w.startIndex) (fun _ => True) :=
        cleanup_spec h.skipsFirstRuns fun t t' ht => ht.ofNoRun
      refine (((lockstep_cleanup .initial).and_right hsecond).and_run ⟨hinit, hfirst⟩).mono
        (fun _ _ ht => ht) ?_ fun _ _ ht => ht.1
      rintro _ t t' ⟨⟨hsame, hbetween⟩, hrun⟩
      refine ⟨hsame, hbetween, ?_⟩
      rw [← stateAfter_of_ok hrun]
      exact .first
    have hall : Lockstep (fun t t' => t = .init ∧ t' = .init) w.runScenarios
        w.withoutStraySkips.runScenarios (fun _ => w.Same) w.Same :=
      hcleanup.bind fun _ => lockstep_runLoop h rfl
    refine Lockstep.stateAfter (R := w.Same) ?_ (hall.stateAfter ⟨rfl, rfl⟩)
    exact (lockstep_cleanup .final).bind fun _ => .pure fun _ _ hs => hs

theorem heard_of_during {run : RunId} {event : Event} (h : w.during run event = true) :
    w.heard event = true := by
  cases event with
  | handled signal moment alive tracked sent =>
    have hprogress : w.inProgress? moment = some run := by simpa [during] using h
    simp [heard, hprogress]
  | launched run' => cases h
  | exited run' code => cases h

end Lockstep

section FirstRuns

variable {w} {i : Nat} {s : Runner}

theorem Begins.between (hbegins : w.Begins i s) (h : w.SkipsFirstRuns) : w.Between i s := by
  induction hbegins with
  | first =>
    have hinit : w.Between w.startIndex .init := ⟨rfl, nofun, nofun, rfl⟩
    exact Triple.stateAfter (E := w.Between w.startIndex)
      (cleanup_spec h fun s s' hs => hs.ofNoRun) hinit
  | @next i scenario s s' _ hnamed _ hrun ih =>
    have hboundary : Triple (w.Between i) (w.boundary (.loopTop i)) (fun _ => w.Between i)
        (fun _ => True) := boundary_spec h rfl fun s s' hs => hs.ofNoRun
    have htop := hboundary s ih
    rw [w.run_boundary (.loopTop i) s] at htop
    have hone := runOne_spec h hnamed (w.atTop i s) htop
    rwa [hrun] at hone

/-- Skips that arrive in first runs only leave no flag behind. -/
theorem SkipsFirstRuns.covered (h : w.SkipsFirstRuns) : w.SkipsCovered where
  checks i s hbegins _ _ _ hflag := by
    obtain hset | ⟨moment, -, hskip, hnone⟩ := hflag
    · rw [(hbegins.between h).skip] at hset
      cases hset
    · obtain ⟨j, hprogress⟩ := h moment hskip
      rw [hprogress] at hnone
      cases hnone
  retries moment i hskip hretry := by
    obtain ⟨j, hprogress⟩ := h moment hskip
    rw [hprogress] at hretry
    cases hretry

theorem Begins.cases_index (hbegins : w.Begins i s) :
    i = w.startIndex ∧ s = stateAfter (w.cleanupKubernetes .initial) .init ∨ w.startIndex < i := by
  induction hbegins with
  | first => exact .inl ⟨rfl, rfl⟩
  | next _ _ _ _ ih =>
    refine .inr ?_
    obtain ⟨hindex, -⟩ | hlater := ih <;> omega

end FirstRuns

end Batch

/-- Two scenarios whose runs succeed, and the moments at which a skip arrives. -/
def twoScenarios (skips : Moment → Bool) : Batch where
  scenarios := ["a.json", "b.json"]
  startFrom := ""
  arrives moment := if skips moment then [.sigusr1] else []
  alive _ _ := true
  statusFails _ := false
  popenFails _ := false
  streamFails _ := false
  returnCode _ := 0
  cleanupSucceeds _ := true
  saveFails _ := false

/-- A skip in the cleanup between the scenarios, one in the run of the second scenario and one after
its check. -/
def threeSkips : Batch :=
  twoScenarios fun moment => moment ∈ [.cleanup (.next 0), .running ⟨1, .first⟩, .saving 1]

theorem mem_arrives_threeSkips {moment : Moment} (h : .sigusr1 ∈ threeSkips.arrives moment) :
    moment = .cleanup (.next 0) ∨ moment = .running ⟨1, .first⟩ ∨ moment = .saving 1 := by
  by_contra hne
  simp only [not_or] at hne
  simp [threeSkips, twoScenarios, hne] at h

theorem skipsCovered_threeSkips : threeSkips.SkipsCovered where
  checks i s hbegins hlt _ _ hflag := by
    obtain ⟨hfirst, hs⟩ | hlater := hbegins.cases_index
    · obtain hset | ⟨moment, hcheck, hskip, -⟩ := hflag
      · rw [hs] at hset
        exact absurd hset (by decide)
      · have hindex : i = 0 := hfirst
        subst hindex
        obtain rfl | rfl | rfl := mem_arrives_threeSkips hskip <;>
          exact absurd hcheck (by decide)
    · have hindex : i = 1 := by
        have hlow : 0 < i := hlater
        have hhigh : i < 2 := hlt
        omega
      subst hindex
      exact ⟨rfl, .running ⟨1, .first⟩, by decide, rfl⟩
  retries moment i hskip hretry := by
    obtain rfl | rfl | rfl := mem_arrives_threeSkips hskip <;> cases hretry

end CoinjoinEmulator.ScenarioRunner
