import CoinjoinEmulator.ProofKit.Emit
import Mathlib.Data.List.Perm.Subperm

/-! A pool of threads with a chunk of tasks each.  The threads run interleaved, and each ends at its
first exception. -/

namespace ProofKit

variable {ε σ α E : Type}

section Pool

variable (body : α → EStateM ε σ Unit)

/-- Thread `i` runs its next task: what each thread has left, and the exception. -/
def threadTurn (threads : List (List α)) (i : Nat) : EStateM ε σ (List (List α) × Option ε) :=
  match threads[i]? with
  | some (task :: rest) => do
    match ← observing (body task) with
    | .ok _ => return (threads.set i rest, none)
    | .error error => return (threads.set i [], some error)
  | _ => return (threads, none)

/-- The threads run their tasks in an order of turns, with the first exception. -/
def interleave : List Nat → List (List α) → EStateM ε σ (List (List α) × Option ε)
  | [], threads => return (threads, none)
  | i :: order, threads => do
    let turn ← threadTurn body threads i
    let rest ← interleave order turn.1
    return (rest.1, turn.2.or rest.2)

/-- A thread runs alone. -/
def runThread : List α → EStateM ε σ (Option ε)
  | [] => return none
  | task :: rest => do
    match ← observing (body task) with
    | .ok _ => runThread rest
    | .error error => return some error

def runThreads : List (List α) → EStateM ε σ (Option ε)
  | [] => return none
  | thread :: threads => do
    let raised ← runThread body thread
    let later ← runThreads threads
    return raised.or later

/-- Run chunks of tasks in an order of turns.  What the order leaves runs thread after thread.  When
all threads have ended, the first exception is raised. -/
def runPool (order : List Nat) (threads : List (List α)) : EStateM ε σ Unit := do
  let left ← interleave body order threads
  let later ← runThreads body left.1
  match left.2.or later with
  | some error => throw error
  | none => pure ()

end Pool

/-- Of the tasks, `ran` were run and `left` are left.  No other was dropped unless a task raised. -/
structure Ran (tasks ran left : List α) (raised : Option ε) : Prop where
  subperm : (ran ++ left).Subperm tasks
  perm : raised = none → (ran ++ left).Perm tasks

theorem Ran.refl (tasks : List α) : Ran tasks [] tasks (none : Option ε) :=
  ⟨List.Subperm.refl tasks, fun _ => .refl tasks⟩

theorem Ran.trans {tasks ran left ran' left' : List α} {raised raised' : Option ε}
    (h : Ran tasks ran left raised) (h' : Ran left ran' left' raised') :
    Ran tasks (ran ++ ran') left' (raised.or raised') where
  subperm := by
    rw [List.append_assoc]
    exact ((List.subperm_append_left ran).mpr h'.subperm).trans h.subperm
  perm hnone := by
    rw [Option.or_eq_none_iff] at hnone
    rw [List.append_assoc]
    exact ((h'.perm hnone.2).append_left ran).trans (h.perm hnone.1)

theorem Ran.append {tasks ran tasks' ran' : List α} {raised raised' : Option ε}
    (h : Ran tasks ran [] raised) (h' : Ran tasks' ran' [] raised') :
    Ran (tasks ++ tasks') (ran ++ ran') [] (raised.or raised') where
  subperm := by
    have hfirst := h.subperm
    have hrest := h'.subperm
    rw [List.append_nil] at hfirst hrest ⊢
    exact hfirst.append hrest
  perm hnone := by
    rw [Option.or_eq_none_iff] at hnone
    have hfirst := h.perm hnone.1
    have hrest := h'.perm hnone.2
    rw [List.append_nil] at hfirst hrest ⊢
    exact hfirst.append hrest

/-- The tasks of one thread, and then those of the others. -/
theorem perm_flatten_set {threads : List (List α)} {i : Nat} {thread : List α}
    (h : threads[i]? = some thread) (left : List α) :
    (threads.set i left).flatten.Perm (left ++ (threads.eraseIdx i).flatten) := by
  induction threads generalizing i with
  | nil => simp at h
  | cons first rest ih =>
    cases i with
    | zero => exact .refl _
    | succ i =>
      rw [List.getElem?_cons_succ] at h
      simp only [List.set_cons_succ, List.flatten_cons, List.eraseIdx_cons_succ]
      exact ((ih h).append_left first).trans (List.perm_append_comm_assoc _ _ _)

theorem perm_flatten {threads : List (List α)} {i : Nat} {thread : List α}
    (h : threads[i]? = some thread) :
    threads.flatten.Perm (thread ++ (threads.eraseIdx i).flatten) := by
  have hset := perm_flatten_set h thread
  obtain ⟨hi, rfl⟩ := List.getElem?_eq_some_iff.mp h
  rwa [List.set_getElem_self hi] at hset

section Emits

variable {log : σ → List E} {body : α → EStateM ε σ Unit} {event : α → E}

/-- What a pool appends: the events of the tasks that it ran. -/
def Logged (event : α → E) (tasks : List α) (left : List α) (raised : Option ε)
    (added : List E) : Prop :=
  ∃ ran, added = ran.map event ∧ Ran tasks ran left raised

theorem Logged.nil (tasks : List α) :
    Logged event tasks tasks (none : Option ε) [] := ⟨[], rfl, .refl tasks⟩

theorem Logged.trans {tasks left left' : List α} {raised raised' : Option ε} {added added' : List E}
    (h : Logged event tasks left raised added) (h' : Logged event left left' raised' added') :
    Logged event tasks left' (raised.or raised') (added ++ added') := by
  obtain ⟨ran, rfl, hran⟩ := h
  obtain ⟨ran', rfl, hran'⟩ := h'
  exact ⟨ran ++ ran', by rw [List.map_append], hran.trans hran'⟩

theorem Logged.append {tasks tasks' : List α} {raised raised' : Option ε} {added added' : List E}
    (h : Logged event tasks [] raised added) (h' : Logged event tasks' [] raised' added') :
    Logged event (tasks ++ tasks') [] (raised.or raised') (added ++ added') := by
  obtain ⟨ran, rfl, hran⟩ := h
  obtain ⟨ran', rfl, hran'⟩ := h'
  exact ⟨ran ++ ran', by rw [List.map_append], hran.append hran'⟩

/-- Each task appends its event, whether or not it raises. -/
def LogsEvent (log : σ → List E) (body : α → EStateM ε σ Unit) (event : α → E) : Prop :=
  ∀ task, Emits log (body task) fun _ _ added => added = [event task]

theorem emits_threadTurn (hbody : LogsEvent log body event) (threads : List (List α)) (i : Nat) :
    Emits log (threadTurn body threads i) fun _ r added => ∃ left raised, r = .ok (left, raised) ∧
      Logged event threads.flatten left.flatten raised added := by
  have hidle : Emits log (pure (threads, none) : EStateM ε σ (List (List α) × Option ε))
      fun _ r added => ∃ left raised, r = .ok (left, raised) ∧
        Logged event threads.flatten left.flatten raised added :=
    .pure fun _ => ⟨threads, none, rfl, .nil _⟩
  unfold threadTurn
  cases hthread : threads[i]? with
  | none => exact hidle
  | some thread =>
    cases thread with
    | nil => exact hidle
    | cons task rest =>
      have htasks := perm_flatten hthread
      refine (hbody task).observing.bind (N := fun result _ r added => added = [] ∧
        ∃ left raised, r = .ok (left, raised) ∧
          Logged event threads.flatten left.flatten raised [event task]) (fun result => ?_) ?_ ?_
      · cases result with
        | ok _ =>
          refine .pure fun _ => ⟨rfl, _, _, rfl, [task], rfl, ?_⟩
          have hperm : ([task] ++ (threads.set i rest).flatten).Perm threads.flatten :=
            ((perm_flatten_set hthread rest).cons task).trans htasks.symm
          exact ⟨hperm.subperm, fun _ => hperm⟩
        | error error =>
          refine .pure fun _ => ⟨rfl, _, _, rfl, [task], rfl, ?_⟩
          have hdropped : ([task] ++ (threads.eraseIdx i).flatten).Sublist
              (task :: rest ++ (threads.eraseIdx i).flatten) := by
            simp
          refine ⟨?_, by simp⟩
          have hset := (perm_flatten_set hthread []).cons task
          exact hset.subperm.trans (hdropped.subperm.trans htasks.symm.subperm)
      · rintro _ _ _ ⟨_, hr, _⟩
        cases hr
      · rintro _ result added r added' ⟨_, -, rfl⟩ ⟨rfl, left, raised, rfl, hlogged⟩
        exact ⟨left, raised, rfl, hlogged⟩

theorem emits_interleave (hbody : LogsEvent log body event) (order : List Nat)
    (threads : List (List α)) :
    Emits log (interleave body order threads) fun _ r added => ∃ left raised,
      r = .ok (left, raised) ∧ Logged event threads.flatten left.flatten raised added := by
  induction order generalizing threads with
  | nil => exact .pure fun _ => ⟨threads, none, rfl, .nil _⟩
  | cons i order ih =>
    refine (emits_threadTurn hbody threads i).bind (fun turn => (ih turn.1).bind
      (N := fun rest _ r added => added = [] ∧ r = .ok (rest.1, turn.2.or rest.2))
      (T := fun _ r added => ∃ left raised, r = .ok (left, turn.2.or raised) ∧
        Logged event turn.1.flatten left.flatten raised added)
      (fun rest => .pure fun _ => ⟨rfl, rfl⟩) ?_ ?_) ?_ ?_
    · rintro _ _ _ ⟨_, _, hr, _⟩
      cases hr
    · rintro _ rest added r added' ⟨left, raised, hrest, hlogged⟩ ⟨rfl, rfl⟩
      cases hrest
      rw [List.append_nil]
      exact ⟨left, raised, rfl, hlogged⟩
    · rintro _ _ _ ⟨_, _, hr, _⟩
      cases hr
    · rintro _ turn added r added' ⟨left, raised, hturn, hlogged⟩ ⟨left', raised', rfl, hlogged'⟩
      cases hturn
      exact ⟨left', _, rfl, hlogged.trans hlogged'⟩

theorem emits_runThread (hbody : LogsEvent log body event) (thread : List α) :
    Emits log (runThread body thread) fun _ r added => ∃ raised, r = .ok raised ∧
      Logged event thread [] raised added := by
  induction thread with
  | nil => exact .pure fun _ => ⟨none, rfl, .nil _⟩
  | cons task rest ih =>
    refine (hbody task).observing.bind (N := fun result _ r added => match result with
      | .ok _ => ∃ raised, r = .ok raised ∧ Logged event rest [] raised added
      | .error error => r = .ok (some error) ∧ added = []) (fun result => ?_) ?_ ?_
    · cases result with
      | ok _ => exact ih
      | error error => exact .pure fun _ => ⟨rfl, rfl⟩
    · rintro _ _ _ ⟨_, hr, _⟩
      cases hr
    · rintro _ result added r added' ⟨_, -, rfl⟩ hrest
      cases result with
      | ok _ =>
        obtain ⟨raised, rfl, ran, rfl, hran⟩ := hrest
        refine ⟨raised, rfl, task :: ran, rfl, ?_, fun hnone => ?_⟩
        · exact (List.subperm_cons task).mpr hran.subperm
        · exact (hran.perm hnone).cons task
      | error error =>
        obtain ⟨rfl, rfl⟩ := hrest
        refine ⟨some error, rfl, [task], rfl, ?_, by simp⟩
        exact List.singleton_subperm_iff.mpr List.mem_cons_self

theorem emits_runThreads (hbody : LogsEvent log body event) (threads : List (List α)) :
    Emits log (runThreads body threads) fun _ r added => ∃ raised, r = .ok raised ∧
      Logged event threads.flatten [] raised added := by
  induction threads with
  | nil => exact .pure fun _ => ⟨none, rfl, .nil _⟩
  | cons thread threads ih =>
    refine (emits_runThread hbody thread).bind (fun raised => ih.bind
      (N := fun later _ r added => added = [] ∧ r = .ok (raised.or later))
      (T := fun _ r added => ∃ later, r = .ok (raised.or later) ∧
        Logged event threads.flatten [] later added)
      (fun later => .pure fun _ => ⟨rfl, rfl⟩) ?_ ?_) ?_ ?_
    · rintro _ _ _ ⟨_, hr, _⟩
      cases hr
    · rintro _ later added r added' ⟨_, hlater, hlogged⟩ ⟨rfl, rfl⟩
      cases hlater
      rw [List.append_nil]
      exact ⟨later, rfl, hlogged⟩
    · rintro _ _ _ ⟨_, hr, _⟩
      cases hr
    · rintro _ raised added r added' ⟨_, hraised, hlogged⟩ ⟨later, rfl, hlogged'⟩
      cases hraised
      exact ⟨_, rfl, hlogged.append hlogged'⟩

/-- A pool runs tasks of its chunks, each at most once, and all of them unless it raises. -/
theorem emits_runPool (hbody : LogsEvent log body event) (order : List Nat)
    (threads : List (List α)) :
    Emits log (runPool body order threads) fun _ r added => ∃ ran : List α, added = ran.map event ∧
      ran.Subperm threads.flatten ∧ (r = .ok () → ran.Perm threads.flatten) := by
  refine (emits_interleave hbody order threads).bind (fun left =>
    (emits_runThreads hbody left.1).bind
      (N := fun later _ r added => added = [] ∧ (r = .ok () → left.2.or later = none))
      (T := fun _ r added => ∃ later, (r = .ok () → left.2.or later = none) ∧
        Logged event left.1.flatten [] later added) (fun later => ?_) ?_ ?_) ?_ ?_
  · cases hraised : left.2.or later with
    | none => exact .pure fun _ => ⟨rfl, fun _ => rfl⟩
    | some error => exact .throw fun _ => ⟨rfl, by simp⟩
  · rintro _ _ _ ⟨_, hr, _⟩
    cases hr
  · rintro _ later added r added' ⟨_, hlater, hlogged⟩ ⟨rfl, hnone⟩
    cases hlater
    rw [List.append_nil]
    exact ⟨later, hnone, hlogged⟩
  · rintro _ _ _ ⟨_, _, hr, _⟩
    cases hr
  · rintro _ left added r added' ⟨_, _, hleft, hlogged⟩ ⟨later, hnone, hlogged'⟩
    cases hleft
    obtain ⟨ran, hadded, hran⟩ := hlogged.trans hlogged'
    have hsubperm := hran.subperm
    have hperm := fun hr => hran.perm (hnone hr)
    rw [List.append_nil] at hsubperm hperm
    exact ⟨ran, hadded, hsubperm, hperm⟩

end Emits

section Keeps

variable {R : σ → σ → Prop} [Std.Refl R] [IsTrans σ R] {body : α → EStateM ε σ Unit}

theorem keeps_interleave (hbody : ∀ task, Keeps R (body task)) (order : List Nat)
    (threads : List (List α)) : Keeps R (interleave body order threads) := by
  induction order generalizing threads with
  | nil => exact .pure _
  | cons i order ih =>
    refine Keeps.bind ?_ fun turn => (ih turn.1).bind fun rest => .pure _
    unfold threadTurn
    split
    · rename_i task rest _
      refine (hbody task).observing.bind fun result => ?_
      cases result <;> exact .pure _
    · exact .pure _

theorem keeps_runThread (hbody : ∀ task, Keeps R (body task)) (thread : List α) :
    Keeps R (runThread body thread) := by
  induction thread with
  | nil => exact .pure _
  | cons task rest ih =>
    refine (hbody task).observing.bind fun result => ?_
    cases result with
    | ok _ => exact ih
    | error error => exact .pure _

theorem keeps_runThreads (hbody : ∀ task, Keeps R (body task)) (threads : List (List α)) :
    Keeps R (runThreads body threads) := by
  induction threads with
  | nil => exact .pure _
  | cons thread threads ih =>
    exact (keeps_runThread hbody thread).bind fun raised => ih.bind fun later => .pure _

theorem keeps_runPool (hbody : ∀ task, Keeps R (body task)) (order : List Nat)
    (threads : List (List α)) : Keeps R (runPool body order threads) := by
  refine (keeps_interleave hbody order threads).bind fun left =>
    (keeps_runThreads hbody left.1).bind fun later => ?_
  cases left.2.or later with
  | none => exact .pure ()
  | some error => exact .throw error

end Keeps

end ProofKit
