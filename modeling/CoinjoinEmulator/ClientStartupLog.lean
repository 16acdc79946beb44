import CoinjoinEmulator.ClientStartup
import CoinjoinEmulator.ProofKit.Emit
import CoinjoinEmulator.ProofKit.KeyedLog
import Mathlib.Data.List.Infix
import Mathlib.Data.List.ReduceOption

/-! The calls that the steps of a start make, for any results of the calls. -/

namespace CoinjoinEmulator.ClientStartup

open ProofKit Scenario

variable {σ C : Type}

theorem flatten_batches {α : Type} {size : Nat} (hsize : 0 < size) (items : List α) :
    (batches size items).flatten = items := by
  have htake (k : Nat) : ((List.range k).map fun i => (items.drop (i * size)).take size).flatten =
      items.take (k * size) := by
    induction k with
    | zero => simp
    | succ k ih =>
      rw [List.range_succ, List.map_append, List.flatten_append, ih, Nat.succ_mul, List.take_add]
      simp
  unfold batches
  rw [htake]
  apply List.take_of_length_le
  have := Nat.lt_div_mul_add hsize (a := items.length + size - 1)
  omega

theorem chunkSize_pos (processes : Nat) {tasks : Nat} (h : 0 < tasks) :
    0 < chunkSize processes tasks := by
  unfold chunkSize
  by_cases hmod : tasks % (processes * 4) = 0
  · rw [if_pos hmod]
    have hsplit := Nat.div_add_mod tasks (processes * 4)
    rw [hmod] at hsplit
    rcases Nat.eq_zero_or_pos (tasks / (processes * 4)) with hzero | hpos
    · rw [hzero] at hsplit
      omega
    · omega
  · rw [if_neg hmod]
    exact Nat.succ_pos _

/-! ### What the calls append -/

variable (engine : ClientEngine σ C)

/-- A task and what its call returned or raised. -/
abbrev Ran (C : Type) := Task × Except PyError (Option C)

def Ran.event (ran : Ran C) : Event C := .started ran.1.1 ran.1.2 ran.2

/-- The call returned this client. -/
def Ran.Returned (ran : Ran C) (client : Option C) : Prop := ran.2 = .ok client

/-- The call for this index returned this client. -/
def Ran.IsResult (ran : Ran C) (result : Nat × Option C) : Prop :=
  ran.1.1 = result.1 ∧ ran.2 = .ok result.2

/-- The tasks that ran.  All of them did if there is a result, and it has their clients in
their order; otherwise one of them raised. -/
def Started {R : Type} (m : Ran C → R → Prop) (tasks : List Task)
    (result : Except PyError (List R)) (added : List (Event C)) : Prop :=
  ∃ ran : List (Ran C), added = ran.map Ran.event ∧ (ran.map Prod.fst).Sublist tasks ∧
    match result with
    | .ok results => ran.map Prod.fst = tasks ∧ List.Forall₂ m ran results
    | .error error => ∃ task ∈ ran, task.2 = .error error

section Started

variable {R : Type} {m : Ran C → R → Prop} {tasks tasks' : List Task}
  {result result' : Except PyError (List R)} {added added' : List (Event C)}

theorem Started.append (h : Started m tasks result added) (h' : Started m tasks' result' added') :
    Started m (tasks ++ tasks')
      (do
        let results ← result
        let results' ← result'
        return results ++ results') (added ++ added') := by
  obtain ⟨ran, rfl, hsub, hresult⟩ := h
  obtain ⟨ran', rfl, hsub', hresult'⟩ := h'
  refine ⟨ran ++ ran', by simp, by simpa using hsub.append hsub', ?_⟩
  cases result with
  | error error =>
    obtain ⟨task, htask, herror⟩ := hresult
    exact ⟨task, List.mem_append_left _ htask, herror⟩
  | ok results =>
    cases result' with
    | error error =>
      obtain ⟨task, htask, herror⟩ := hresult'
      exact ⟨task, List.mem_append_right _ htask, herror⟩
    | ok results' =>
      refine ⟨?_, List.rel_append hresult.2 hresult'.2⟩
      rw [List.map_append, hresult.1, hresult'.1]

/-- Tasks that did not run after an exception. -/
theorem Started.error_append {error : PyError} (h : Started m tasks (.error error) added)
    (tasks' : List Task) : Started m (tasks ++ tasks') (.error error) added := by
  obtain ⟨ran, rfl, hsub, hresult⟩ := h
  exact ⟨ran, rfl, hsub.trans (List.sublist_append_left _ _), hresult⟩

theorem Started.nil : Started m [] (.ok []) [] := ⟨[], rfl, .refl _, rfl, .nil⟩

/-- The indices of the tasks beside their clients. -/
theorem Started.zip {result : Except PyError (List (Option C))}
    (h : Started Ran.Returned tasks result added) :
    Started Ran.IsResult tasks (result.map (tasks.map Prod.fst).zip) added := by
  obtain ⟨ran, rfl, hsub, hresult⟩ := h
  refine ⟨ran, rfl, hsub, ?_⟩
  cases result with
  | error error => exact hresult
  | ok clients =>
    obtain ⟨rfl, hclients⟩ := hresult
    refine ⟨rfl, ?_⟩
    clear hsub
    induction hclients with
    | nil => exact .nil
    | cons hreturned _ ih => exact .cons ⟨rfl, hreturned⟩ ih

end Started

theorem emits_note (event : Event C) :
    Emits Startup.log (note event : EStateM PyError (Startup σ C) Unit) fun _ r added =>
      r = .ok () ∧ added = [event] :=
  .modify (fun _ => rfl) fun _ => ⟨rfl, rfl⟩

theorem sameLog_onWorld {α : Type} (program : EStateM PyError σ α) :
    Keeps (SameLog Startup.log) (onWorld program : EStateM PyError (Startup σ C) α) := by
  apply Keeps.zoom
  exact fun _ _ => rfl

theorem emits_startClient (task : Task) :
    Emits Startup.log (startClient engine task) fun _ r added => added = [Ran.event (task, r)] := by
  have hcall : Emits Startup.log (onWorld (engine.startClient task.1 task.2) :
      EStateM PyError (Startup σ C) (Option C)) fun _ _ added => added = [] :=
    .silent (sameLog_onWorld _) fun _ _ => rfl
  refine hcall.observing.bind (N := fun result _ r added => added = [Ran.event (task, r)]
      ∧ r = result) (fun result => ?_) ?_ ?_
  · refine (emits_note _).bind (N := fun _ _ r added => r = result ∧ added = [])
      (fun _ => ?_) ?_ ?_
    · cases result with
      | ok client => exact .pure fun _ => ⟨rfl, rfl⟩
      | error error => exact .throw fun _ => ⟨rfl, rfl⟩
    · rintro old error added ⟨hr, -⟩
      cases hr
    · rintro old a added r added' ⟨-, rfl⟩ ⟨rfl, rfl⟩
      exact ⟨rfl, rfl⟩
  · rintro old error added ⟨result, hr, -⟩
    cases hr
  · rintro old result added r added' ⟨_, -, rfl⟩ ⟨rfl, -⟩
    rfl

theorem emits_mapM_startClient (tasks : List Task) :
    Emits Startup.log (tasks.mapM (startClient engine)) fun _ r added => Started Ran.Returned tasks r added := by
  induction tasks with
  | nil => exact .pure fun _ => .nil
  | cons task rest ih =>
    rw [List.mapM_cons]
    have hone (r : Except PyError (Option C)) :
        Started Ran.Returned [task] (r.map fun client => [client]) [Ran.event (task, r)] := by
      refine ⟨[(task, r)], rfl, .refl _, ?_⟩
      cases r with
      | ok client => exact ⟨rfl, .cons rfl .nil⟩
      | error error => exact ⟨_, List.mem_singleton_self _, rfl⟩
    refine (emits_startClient engine task).bind
      (N := fun client _ r added => ∃ others, Started Ran.Returned rest others added ∧
        r = others.map fun clients => client :: clients) (fun client => ?_) ?_ ?_
    · refine ih.bind (N := fun others _ r added => added = [] ∧ r = .ok (client :: others))
        (fun others => .pure fun _ => ⟨rfl, rfl⟩) ?_ ?_
      · exact fun old error added h => ⟨.error error, h, rfl⟩
      · rintro old others added r added' h ⟨rfl, rfl⟩
        rw [List.append_nil]
        exact ⟨.ok others, h, rfl⟩
    · rintro old error added rfl
      exact (hone (.error error)).error_append rest
    · rintro old client added r added' rfl ⟨others, h, rfl⟩
      have happend := (hone (.ok client)).append h
      cases others <;> exact happend

theorem emits_runChunks (chunks : List (List Task)) :
    Emits Startup.log (runChunks engine chunks) fun _ r added =>
      ∃ result, r = .ok result ∧ Started Ran.Returned chunks.flatten result added := by
  induction chunks with
  | nil => exact .pure fun _ => ⟨_, rfl, .nil⟩
  | cons chunk chunks ih =>
    refine (emits_mapM_startClient engine chunk).observing.bind
      (N := fun result _ r added => ∃ others, Started Ran.Returned chunks.flatten others added ∧
        r = .ok (do
          let clients ← result
          let others ← others
          return clients ++ others)) (fun result => ?_) ?_ ?_
    · refine ih.bind (N := fun others _ r added => added = [] ∧ r = .ok (do
          let clients ← result
          let others ← others
          return clients ++ others)) (fun others => .pure fun _ => ⟨rfl, rfl⟩) ?_ ?_
      · rintro old error added ⟨others, hr, -⟩
        cases hr
      · rintro old others added r added' ⟨_, hr, h⟩ ⟨rfl, rfl⟩
        cases hr
        rw [List.append_nil]
        exact ⟨others, h, rfl⟩
    · rintro old error added ⟨result, hr, -⟩
      cases hr
    · rintro old result added r added' ⟨_, hr, h⟩ ⟨others, h', rfl⟩
      cases hr
      exact ⟨_, rfl, h.append h'⟩

theorem emits_starmap (processes : Nat) (tasks : List Task) :
    Emits Startup.log (starmap engine processes tasks) fun _ r added => Started Ran.Returned tasks r added := by
  have hflatten : (batches (chunkSize processes tasks.length) tasks).flatten = tasks := by
    cases tasks with
    | nil => exact List.flatten_eq_nil_iff.mpr (by simp [batches])
    | cons task rest => exact flatten_batches (chunkSize_pos processes (by simp)) _
  refine (emits_runChunks engine _).bind (N := fun result _ r added => r = result ∧ added = [])
    (fun result => ?_) ?_ ?_
  · cases result with
    | ok clients => exact .pure fun _ => ⟨rfl, rfl⟩
    | error error => exact .throw fun _ => ⟨rfl, rfl⟩
  · rintro old error added ⟨result, hr, -⟩
    cases hr
  · rintro old result added r added' ⟨_, hr, h⟩ ⟨rfl, rfl⟩
    cases hr
    rw [List.append_nil]
    rwa [hflatten] at h

theorem emits_startBatch (processes : Nat) (tasks : List Task) :
    Emits Startup.log (startBatch engine processes tasks) fun _ r added =>
      Started Ran.IsResult tasks r added := by
  refine (emits_starmap engine processes tasks).bind
    (N := fun clients _ r added => r = .ok ((tasks.map Prod.fst).zip clients) ∧ added = [])
    (fun clients => .pure fun _ => ⟨rfl, rfl⟩) (fun old error added h => h.zip) ?_
  rintro old clients added r added' h ⟨rfl, rfl⟩
  rw [List.append_nil]
  exact h.zip

/-- Two starts one after the other. -/
theorem emits_append {program program' : EStateM PyError (Startup σ C) (List (Nat × Option C))}
    {tasks tasks' : List Task}
    (h : Emits Startup.log program fun _ r added => Started Ran.IsResult tasks r added)
    (h' : Emits Startup.log program' fun _ r added => Started Ran.IsResult tasks' r added) :
    Emits Startup.log (do
        let results ← program
        let others ← program'
        return results ++ others) fun _ r added =>
      Started Ran.IsResult (tasks ++ tasks') r added := by
  refine h.bind (N := fun results _ r added => ∃ others, Started Ran.IsResult tasks' others added ∧
    r = others.map fun others => results ++ others) (fun results => ?_)
    (fun old error added h => h.error_append tasks') ?_
  · refine h'.bind (N := fun others _ r added => added = [] ∧ r = .ok (results ++ others))
      (fun others => .pure fun _ => ⟨rfl, rfl⟩) (fun old error added h => ⟨_, h, rfl⟩) ?_
    rintro old others added r added' h ⟨rfl, rfl⟩
    rw [List.append_nil]
    exact ⟨.ok others, h, rfl⟩
  · rintro old results added r added' h ⟨others, h', rfl⟩
    have happend := h.append h'
    cases others <;> exact happend

theorem emits_startBatches (processes : Nat) (tasks : List (List Task)) :
    Emits Startup.log (startBatches engine processes tasks) fun _ r added =>
      Started Ran.IsResult tasks.flatten r added := by
  induction tasks with
  | nil => exact .pure fun _ => .nil
  | cons batch rest ih => exact emits_append (emits_startBatch engine processes batch) ih

/-- The regular wallets, then those with a fidelity bond. -/
def classified (walletList : List Task) : List Task :=
  (walletList.filter fun task => !isBonded task) ++ walletList.filter isBonded

theorem perm_classified (walletList : List Task) : (classified walletList).Perm walletList := by
  have hperm := List.filter_append_perm (fun task => !isBonded task) walletList
  simpa [classified] using hperm

theorem emits_startClassifiedWallets (processes : Nat) (walletList : List Task) :
    Emits Startup.log (startClassifiedWallets engine processes walletList) fun _ r added =>
      Started Ran.IsResult (classified walletList) r added := by
  have hbatches := emits_startBatches engine processes
    (batches fbBatchSize (walletList.filter isBonded))
  rw [flatten_batches (by decide)] at hbatches
  unfold startClassifiedWallets classified
  dsimp only
  split
  · rename_i hnil
    rw [hnil]
    exact emits_append (.pure fun _ => .nil) hbatches
  · exact emits_append (emits_startBatch engine processes _) hbatches

/-- The probe of a client, and whether the client failed. -/
abbrev Verdict (C : Type) := (Option C × Nat) × Bool

/-- A missing client is not probed. -/
def Verdict.events (verdict : Verdict C) : List (Event C) :=
  match verdict.1.1 with
  | none => []
  | some client => [.probed verdict.1.2 client !verdict.2]

theorem emits_isFailed (client : Option C × Nat) :
    Emits Startup.log (isFailed engine client) fun _ r added => ∃ failed, r = .ok failed ∧
      added = Verdict.events (client, failed) ∧ (client.1 = none → failed = true) := by
  obtain ⟨client, idx⟩ := client
  cases client with
  | none => exact .pure fun _ => ⟨true, rfl, rfl, fun _ => rfl⟩
  | some client =>
    have hcall : Emits Startup.log (onWorld (engine.getBalance client) :
        EStateM PyError (Startup σ C) Unit) fun _ _ added => added = [] :=
      .silent (sameLog_onWorld _) fun _ _ => rfl
    refine hcall.observing.bind (N := fun balance _ r added => r = .ok (!balance.isOk) ∧
      added = [.probed idx client balance.isOk]) (fun balance => ?_) ?_ ?_
    · refine (emits_note _).bind (N := fun _ _ r added => r = .ok (!balance.isOk) ∧ added = [])
        (fun _ => .pure fun _ => ⟨rfl, rfl⟩) ?_ ?_
      · rintro old error added ⟨hr, -⟩
        cases hr
      · rintro old a added r added' ⟨-, rfl⟩ ⟨rfl, rfl⟩
        exact ⟨rfl, rfl⟩
    · rintro old error added ⟨_, hr, -⟩
      cases hr
    · rintro old balance added r added' ⟨_, -, rfl⟩ ⟨rfl, rfl⟩
      refine ⟨!balance.isOk, rfl, ?_, fun h => by cases h⟩
      simp [Verdict.events]

theorem emits_failedIndices (start : Nat) (newClients : List (Option C)) :
    Emits Startup.log (failedIndices engine start newClients) fun _ r added =>
      ∃ verdicts : List (Verdict C), verdicts.map Prod.fst = newClients.zipIdx start ∧
        (∀ verdict ∈ verdicts, verdict.1.1 = none → verdict.2 = true) ∧
        added = verdicts.flatMap Verdict.events ∧
        r = .ok ((verdicts.filter Prod.snd).map fun verdict => verdict.1.2) := by
  have hselect (clients : List (Option C × Nat)) :
      Emits Startup.log (selectM (isFailed engine) clients) fun _ r added =>
        ∃ verdicts : List (Verdict C), verdicts.map Prod.fst = clients ∧
          (∀ verdict ∈ verdicts, verdict.1.1 = none → verdict.2 = true) ∧
          added = verdicts.flatMap Verdict.events ∧
          r = .ok ((verdicts.filter Prod.snd).map Prod.fst) := by
    induction clients with
    | nil => exact .pure fun _ => ⟨[], rfl, by simp, rfl, rfl⟩
    | cons client rest ih =>
      refine (emits_isFailed engine client).bind (N := fun failed _ r added =>
        ∃ verdicts : List (Verdict C), verdicts.map Prod.fst = rest ∧
          (∀ verdict ∈ verdicts, verdict.1.1 = none → verdict.2 = true) ∧
          added = verdicts.flatMap Verdict.events ∧
          r = .ok (if failed then client :: (verdicts.filter Prod.snd).map Prod.fst
            else (verdicts.filter Prod.snd).map Prod.fst)) (fun failed => ?_) ?_ ?_
      · refine ih.bind (N := fun others _ r added => added = [] ∧
          r = .ok (if failed then client :: others else others))
          (fun others => .pure fun _ => ⟨rfl, rfl⟩) ?_ ?_
        · rintro old error added ⟨_, -, -, -, hr⟩
          cases hr
        · rintro old others added r added' ⟨verdicts, hmap, hnone, rfl, hr⟩ ⟨rfl, rfl⟩
          cases hr
          exact ⟨verdicts, hmap, hnone, by simp, rfl⟩
      · rintro old error added ⟨_, hr, -⟩
        cases hr
      · rintro old failed added r added' ⟨_, hr, rfl, hclient⟩ ⟨verdicts, rfl, hnone, rfl, rfl⟩
        cases hr
        refine ⟨(client, failed) :: verdicts, rfl, ?_, rfl, ?_⟩
        · intro verdict hverdict
          obtain rfl | hverdict := List.mem_cons.mp hverdict
          · exact hclient
          · exact hnone verdict hverdict
        · cases failed <;> rfl
  refine (hselect _).bind (N := fun failed _ r added => added = [] ∧
    r = .ok (failed.map Prod.snd)) (fun failed => .pure fun _ => ⟨rfl, rfl⟩) ?_ ?_
  · rintro old error added ⟨_, -, -, -, hr⟩
    cases hr
  · rintro old failed added r added' ⟨verdicts, hmap, hnone, rfl, hr⟩ ⟨rfl, rfl⟩
    cases hr
    exact ⟨verdicts, hmap, hnone, by simp, by simp⟩

/-- The stops that were called: all of them if none raises. -/
theorem emits_stopClients (failed : List Nat) :
    Emits Startup.log (failed.forM (stopClient engine)) fun _ r added =>
      ∃ called, called <+: failed ∧ added = called.map .stopped ∧ (r = .ok () → called = failed) := by
  induction failed with
  | nil => exact .pure fun _ => ⟨[], List.prefix_rfl, rfl, fun _ => rfl⟩
  | cons idx rest ih =>
    rw [List.forM_eq_forM, List.forM_cons]
    have hstop : Emits Startup.log (stopClient engine idx) fun _ _ added =>
        added = [.stopped idx] := by
      refine (emits_note _).bind (N := fun _ _ _ added => added = [])
        (fun _ => .silent (sameLog_onWorld _) fun _ _ => rfl) ?_ ?_
      · rintro old error added ⟨hr, -⟩
        cases hr
      · rintro old a added r added' ⟨-, rfl⟩ rfl
        rfl
    refine hstop.bind (fun _ => ih) ?_ ?_
    · rintro old error added rfl
      exact ⟨[idx], List.prefix_cons_inj idx |>.mpr (List.nil_prefix), rfl, fun h => by cases h⟩
    · rintro old a added r added' rfl ⟨called, hprefix, rfl, hall⟩
      exact ⟨idx :: called, List.prefix_cons_inj idx |>.mpr hprefix, rfl, fun h => by rw [hall h]⟩

end CoinjoinEmulator.ClientStartup
