import CoinjoinEmulator.ClientStartupLog
import CoinjoinEmulator.ProofKit.Collect

/-! Which clients a start leaves and which it starts again, for any results of the calls. -/

namespace CoinjoinEmulator.ClientStartup

open ProofKit Scenario

variable {σ C : Type}

def Event.isStart : Event C → Bool
  | .started _ _ _ => true
  | _ => false

/-- The most recent start of a client. -/
def latestStart (idx : Nat) (log : List (Event C)) : Option (Event C) :=
  lastOf Event.idx idx (log.filter Event.isStart)

/-- How often a client was started. -/
def startsOf (idx : Nat) (log : List (Event C)) : Nat :=
  log.countP fun event => event.isStart && decide (event.idx = idx)

section Sound

variable (start : Nat) (wallets : List WalletConfig)

/-- What may follow the last call for a client.  Its wallet is started first, or again after a stop;
what the latest start returned is probed while it is healthy; a client that is missing or fails its
probe is stopped. -/
def Allowed (last : Option (Event C)) : Event C → Prop
  | .started idx wallet _ => (∃ i, wallets[i]? = some wallet ∧ idx = start + i) ∧
    (last = none ∨ last = some (.stopped idx))
  | .probed idx client _ => (∃ wallet, last = some (.started idx wallet (.ok (some client)))) ∨
    last = some (.probed idx client true)
  | .stopped idx => (∃ wallet, last = some (.started idx wallet (.ok none))) ∨
    ∃ client, last = some (.probed idx client false)

/-- Every call was allowed, and no client was started more than `k` times. -/
structure Sound (k : Nat) (log : List (Event C)) : Prop where
  lawful : Lawful Event.idx (Allowed start wallets) log
  starts : ∀ idx, startsOf idx log ≤ k

variable {start wallets}

theorem Sound.mono {k k' : Nat} {log : List (Event C)} (h : Sound start wallets k log) (hle : k ≤ k') :
    Sound start wallets k' log := ⟨h.lawful, fun idx => (h.starts idx).trans hle⟩

/-- Calls for different clients that are allowed after a log start each of them at most once. -/
theorem Sound.append {k : Nat} {log added : List (Event C)} (h : Sound start wallets k log)
    (hnodup : (added.map Event.idx).Nodup)
    (hadded : ∀ event ∈ added, Allowed start wallets (lastOf Event.idx event.idx log) event) :
    Sound start wallets (k + 1) (log ++ added) := by
  refine ⟨h.lawful.append hnodup hadded, fun idx => ?_⟩
  have hold := h.starts idx
  have hnew := countP_key_le_one hnodup Event.isStart idx
  unfold startsOf at hold ⊢
  rw [List.countP_append]
  omega

theorem Sound.append_of_not_start {k : Nat} {log added : List (Event C)}
    (h : Sound start wallets k log) (hnodup : (added.map Event.idx).Nodup)
    (hadded : ∀ event ∈ added, Allowed start wallets (lastOf Event.idx event.idx log) event)
    (hstart : ∀ event ∈ added, event.isStart = false) : Sound start wallets k (log ++ added) := by
  refine ⟨h.lawful.append hnodup hadded, fun idx => ?_⟩
  have hold := h.starts idx
  have hnew : (added.countP fun event => event.isStart && decide (event.idx = idx)) = 0 :=
    List.countP_eq_zero.mpr fun event hevent => by simp [hstart event hevent]
  unfold startsOf at hold ⊢
  rw [List.countP_append]
  omega

end Sound

theorem latestStart_append_of_not_start (idx : Nat) (log : List (Event C)) {added : List (Event C)}
    (hstart : ∀ event ∈ added, event.isStart = false) :
    latestStart idx (log ++ added) = latestStart idx log := by
  have hnone : added.filter Event.isStart = [] :=
    List.filter_eq_nil_iff.mpr fun event hevent => by simp [hstart event hevent]
  unfold latestStart
  rw [List.filter_append, hnone, List.append_nil]

/-- The latest start of a client returned this, and it is healthy as far as it was probed. -/
structure Current (log : List (Event C)) (idx : Nat) (wallet : WalletConfig) (client : Option C) :
    Prop where
  latest : latestStart idx log = some (.started idx wallet (.ok client))
  last : lastOf Event.idx idx log = some (.started idx wallet (.ok client)) ∨
    ∃ healthy, client = some healthy ∧ lastOf Event.idx idx log = some (.probed idx healthy true)

theorem Current.append {log added : List (Event C)} {idx : Nat} {wallet : WalletConfig}
    {client : Option C} (h : Current log idx wallet client) (hidx : idx ∉ added.map Event.idx) :
    Current (log ++ added) idx wallet client := by
  refine ⟨?_, by rw [lastOf_append_of_notMem log hidx]; exact h.last⟩
  unfold latestStart
  rw [List.filter_append, lastOf_append_of_notMem]
  · exact h.latest
  · exact fun hmem => hidx ((List.filter_sublist.map _).subset hmem)

theorem Current.of_start {log added : List (Event C)} (hnodup : (added.map Event.idx).Nodup)
    {idx : Nat} {wallet : WalletConfig} {client : Option C}
    (hstart : Event.started idx wallet (.ok client) ∈ added) :
    Current (log ++ added) idx wallet client := by
  refine ⟨?_, .inl (lastOf_append_of_nodup log hnodup hstart)⟩
  unfold latestStart
  rw [List.filter_append]
  exact lastOf_append_of_nodup _ (hnodup.sublist (List.filter_sublist.map _))
    (List.mem_filter.mpr ⟨hstart, rfl⟩)

/-! ### The steps of a round -/

section Round

variable (start : Nat) (wallets : List WalletConfig) (k : Nat) (newClients : List (Option C))

/-- The clients between two steps of a round: those that failed are marked, by their last call. -/
structure Marked (mark : Option (Event C) → Nat → Prop) (failed : List Nat) (log : List (Event C)) :
    Prop where
  sound : Sound start wallets k log
  length : newClients.length = wallets.length
  nodup : failed.Nodup
  range : ∀ idx ∈ failed, ∃ i, i < wallets.length ∧ idx = start + i
  marked : ∀ idx ∈ failed, mark (lastOf Event.idx idx log) idx
  others : ∀ i wallet client, wallets[i]? = some wallet → newClients[i]? = some client →
    start + i ∉ failed → Current log (start + i) wallet client

/-- A client that has to be stopped. -/
def MustStop (last : Option (Event C)) (idx : Nat) : Prop := Allowed start wallets last (.stopped idx)

/-- A client that may be started. -/
def MayStart (last : Option (Event C)) (idx : Nat) : Prop := last = none ∨ last = some (.stopped idx)

/-- No client is marked. -/
abbrev Settled (log : List (Event C)) : Prop :=
  Marked start wallets k newClients (fun _ _ => True) [] log

variable {start wallets k newClients}

theorem sublist_idx_events (verdicts : List (Verdict C)) :
    ((verdicts.flatMap Verdict.events).map Event.idx).Sublist
      (verdicts.map fun verdict => verdict.1.2) := by
  induction verdicts with
  | nil => exact .refl _
  | cons verdict rest ih =>
    obtain ⟨⟨client, idx⟩, failed⟩ := verdict
    cases client with
    | none => exact ih.cons _
    | some client => exact ih.cons_cons _

theorem mem_events_iff {verdicts : List (Verdict C)} {event : Event C} :
    event ∈ verdicts.flatMap Verdict.events ↔ ∃ client idx failed,
      ((some client, idx), failed) ∈ verdicts ∧ event = .probed idx client !failed := by
  rw [List.mem_flatMap]
  constructor
  · rintro ⟨⟨⟨client, idx⟩, failed⟩, hverdict, hevent⟩
    cases client with
    | none => cases hevent
    | some client => exact ⟨client, idx, failed, hverdict, List.mem_singleton.mp hevent⟩
  · rintro ⟨client, idx, failed, hverdict, rfl⟩
    exact ⟨_, hverdict, List.mem_singleton_self _⟩

section Verdicts

variable {verdicts : List (Verdict C)}

theorem nodup_idx_verdicts (hmap : verdicts.map Prod.fst = newClients.zipIdx start) :
    (verdicts.map fun verdict => verdict.1.2).Nodup := by
  have hidx : verdicts.map (fun verdict => verdict.1.2) = (newClients.zipIdx start).map Prod.snd := by
    rw [← hmap, List.map_map]
    rfl
  rw [hidx, List.zipIdx_map_snd]
  exact List.nodup_range'

theorem exists_verdict (hmap : verdicts.map Prod.fst = newClients.zipIdx start) {i : Nat}
    {client : Option C} (hclient : newClients[i]? = some client) :
    ∃ failed, ((client, start + i), failed) ∈ verdicts := by
  have hmem : (client, start + i) ∈ verdicts.map Prod.fst := by
    rw [hmap, List.mem_zipIdx_iff_le_and_getElem?_sub]
    exact ⟨Nat.le_add_right _ _, by rwa [Nat.add_sub_cancel_left]⟩
  obtain ⟨⟨-, failed⟩, hverdict, rfl⟩ := List.mem_map.mp hmem
  exact ⟨failed, hverdict⟩

theorem client_of_verdict (hmap : verdicts.map Prod.fst = newClients.zipIdx start)
    {client : Option C} {idx : Nat} {failed : Bool} (hverdict : ((client, idx), failed) ∈ verdicts) :
    ∃ i, idx = start + i ∧ newClients[i]? = some client := by
  have hmem : (client, idx) ∈ newClients.zipIdx start := by
    rw [← hmap]
    exact List.mem_map_of_mem hverdict
  obtain ⟨hle, hclient⟩ := List.mem_zipIdx_iff_le_and_getElem?_sub.mp hmem
  exact ⟨idx - start, by omega, hclient⟩

/-- A client that is missing is not probed. -/
theorem notMem_idx_events (hidx : (verdicts.map fun verdict => verdict.1.2).Nodup) {idx : Nat}
    {failed : Bool} (hverdict : ((none, idx), failed) ∈ verdicts) :
    idx ∉ (verdicts.flatMap Verdict.events).map Event.idx := by
  intro hmem
  obtain ⟨event, hevent, hkey⟩ := List.mem_map.mp hmem
  obtain ⟨client, idx', failed', hverdict', rfl⟩ := mem_events_iff.mp hevent
  obtain rfl : idx' = idx := hkey
  cases List.inj_on_of_nodup_map hidx hverdict hverdict' rfl

/-- The client of each verdict was current before the probe. -/
theorem Settled.current {log : List (Event C)} (h : Settled start wallets k newClients log)
    (hmap : verdicts.map Prod.fst = newClients.zipIdx start) {client : Option C} {idx : Nat}
    {failed : Bool} (hverdict : ((client, idx), failed) ∈ verdicts) :
    ∃ i wallet, idx = start + i ∧ wallets[i]? = some wallet ∧ Current log idx wallet client := by
  obtain ⟨i, rfl, hclient⟩ := client_of_verdict hmap hverdict
  have hi : i < wallets.length := by
    rw [← h.length]
    exact (List.getElem?_eq_some_iff.mp hclient).1
  have hwallet : wallets[i]? = some wallets[i] := List.getElem?_eq_getElem hi
  exact ⟨i, _, rfl, hwallet, h.others i _ client hwallet hclient (by simp)⟩

end Verdicts

/-- The clients after the probes. -/
theorem Settled.probe {log : List (Event C)} (h : Settled start wallets k newClients log)
    {verdicts : List (Verdict C)} (hmap : verdicts.map Prod.fst = newClients.zipIdx start)
    (hnone : ∀ verdict ∈ verdicts, verdict.1.1 = none → verdict.2 = true) :
    Marked start wallets k newClients (MustStop start wallets)
      ((verdicts.filter Prod.snd).map fun verdict => verdict.1.2)
      (log ++ verdicts.flatMap Verdict.events) := by
  have hidx := nodup_idx_verdicts hmap
  have hnodup := hidx.sublist (sublist_idx_events verdicts)
  have hstart : ∀ event ∈ verdicts.flatMap Verdict.events, event.isStart = false := by
    intro event hevent
    obtain ⟨client, idx, failed, -, rfl⟩ := mem_events_iff.mp hevent
    rfl
  refine ⟨h.sound.append_of_not_start hnodup ?_ hstart, h.length,
    hidx.sublist (List.filter_sublist.map _), ?_, ?_, ?_⟩
  · intro event hevent
    obtain ⟨client, idx, failed, hverdict, rfl⟩ := mem_events_iff.mp hevent
    obtain ⟨i, wallet, -, -, hclient⟩ := Settled.current h hmap hverdict
    obtain hlast | ⟨healthy, heq, hlast⟩ := hclient.last
    · exact .inl ⟨wallet, hlast⟩
    · cases heq
      exact .inr hlast
  · intro idx hmem
    obtain ⟨⟨⟨client, idx⟩, failed⟩, hverdict, rfl⟩ := List.mem_map.mp hmem
    obtain ⟨i, wallet, hi, hwallet, -⟩ := Settled.current h hmap (List.mem_filter.mp hverdict).1
    exact ⟨i, (List.getElem?_eq_some_iff.mp hwallet).1, hi⟩
  · intro idx hmem
    obtain ⟨⟨⟨client, idx⟩, failed⟩, hverdict, rfl⟩ := List.mem_map.mp hmem
    obtain ⟨hverdict, hfailed⟩ := List.mem_filter.mp hverdict
    obtain rfl : failed = true := hfailed
    cases client with
    | none =>
      obtain ⟨i, wallet, -, -, hclient⟩ := Settled.current h hmap hverdict
      rw [lastOf_append_of_notMem log (notMem_idx_events hidx hverdict)]
      obtain hlast | ⟨healthy, heq, -⟩ := hclient.last
      · exact .inl ⟨wallet, hlast⟩
      · cases heq
    | some client =>
      have hevent := mem_events_iff.mpr ⟨client, _, true, hverdict, rfl⟩
      exact .inr ⟨client, lastOf_append_of_nodup log hnodup hevent⟩
  · intro i wallet client hwallet hclient hother
    obtain ⟨failed, hverdict⟩ := exists_verdict hmap hclient
    have hbefore := h.others i wallet client hwallet hclient (by simp)
    have hfailed : failed = false := by
      by_contra hfailed
      refine hother (List.mem_map.mpr ⟨_, List.mem_filter.mpr ⟨hverdict, ?_⟩, rfl⟩)
      simpa using hfailed
    subst hfailed
    refine ⟨by rw [latestStart_append_of_not_start _ _ hstart]; exact hbefore.latest, ?_⟩
    cases client with
    | none => cases hnone _ hverdict rfl
    | some client =>
      have hevent := mem_events_iff.mpr ⟨client, _, false, hverdict, rfl⟩
      exact .inr ⟨client, rfl, lastOf_append_of_nodup log hnodup hevent⟩

/-- The clients after the stops; a stop that raises is the last one. -/
theorem Marked.stop {log : List (Event C)} {failed called : List Nat}
    (h : Marked start wallets k newClients (MustStop start wallets) failed log)
    (hcalled : called <+: failed) :
    Sound start wallets k (log ++ called.map .stopped) ∧
      (called = failed →
        Marked start wallets k newClients MayStart failed (log ++ called.map .stopped)) := by
  have hkeys : (called.map .stopped : List (Event C)).map Event.idx = called := by
    rw [List.map_map]
    exact List.map_id called
  have hnodup : ((called.map .stopped : List (Event C)).map Event.idx).Nodup := by
    rw [hkeys]
    exact h.nodup.sublist hcalled.sublist
  have hsound : Sound start wallets k (log ++ called.map .stopped) := by
    apply h.sound.append_of_not_start hnodup
    · intro event hevent
      obtain ⟨idx, hidx, rfl⟩ := List.mem_map.mp hevent
      exact h.marked idx (hcalled.subset hidx)
    · intro event hevent
      obtain ⟨idx, -, rfl⟩ := List.mem_map.mp hevent
      rfl
  refine ⟨hsound, ?_⟩
  rintro rfl
  refine ⟨hsound, h.length, h.nodup, h.range, fun idx hidx => ?_, ?_⟩
  · exact .inr (lastOf_append_of_nodup log hnodup (List.mem_map_of_mem hidx))
  · intro i wallet client hwallet hclient hother
    exact (h.others i wallet client hwallet hclient hother).append (by rwa [hkeys])

theorem length_assign (start : Nat) (newClients : List (Option C)) (results : List (Nat × Option C)) :
    (assign start newClients results).length = newClients.length := by
  induction results generalizing newClients with
  | nil => rfl
  | cons result rest ih =>
    rw [assign, List.foldl_cons]
    exact (ih _).trans List.length_set

theorem getElem?_assign_of_notMem {newClients : List (Option C)} {results : List (Nat × Option C)}
    (hstart : ∀ result ∈ results, start ≤ result.1) {i : Nat}
    (hi : start + i ∉ results.map Prod.fst) :
    (assign start newClients results)[i]? = newClients[i]? := by
  induction results generalizing newClients with
  | nil => rfl
  | cons result rest ih =>
    rw [List.map_cons, List.mem_cons, not_or] at hi
    rw [assign, List.foldl_cons]
    refine (ih (fun r hr => hstart r (List.mem_cons_of_mem _ hr)) hi.2).trans ?_
    have := hstart result List.mem_cons_self
    exact List.getElem?_set_ne (by omega)

theorem getElem?_assign_of_mem {newClients : List (Option C)} {results : List (Nat × Option C)}
    (hstart : ∀ result ∈ results, start ≤ result.1) (hnodup : (results.map Prod.fst).Nodup) {i : Nat}
    {client : Option C} (hmem : (start + i, client) ∈ results) (hi : i < newClients.length) :
    (assign start newClients results)[i]? = some client := by
  induction results generalizing newClients with
  | nil => cases hmem
  | cons result rest ih =>
    rw [List.map_cons, List.nodup_cons] at hnodup
    have hrest : ∀ r ∈ rest, start ≤ r.1 := fun r hr => hstart r (List.mem_cons_of_mem _ hr)
    rw [assign, List.foldl_cons]
    obtain rfl | hmem := List.mem_cons.mp hmem
    · refine (getElem?_assign_of_notMem hrest hnodup.1).trans ?_
      rw [Nat.add_sub_cancel_left]
      exact List.getElem?_set_self hi
    · exact ih hrest hnodup.2 hmem (by rwa [List.length_set])

/-- Every index of a wallet has its task. -/
theorem map_fst_tasks {failed : List Nat}
    (hrange : ∀ idx ∈ failed, ∃ i, i < wallets.length ∧ idx = start + i) :
    (failed.filterMap (taskOf start wallets)).map Prod.fst = failed := by
  induction failed with
  | nil => rfl
  | cons idx rest ih =>
    obtain ⟨i, hi, rfl⟩ := hrange idx List.mem_cons_self
    have htask : taskOf start wallets (start + i) = some (start + i, wallets[i]) := by
      rw [taskOf, Nat.add_sub_cancel_left, List.getElem?_eq_getElem hi]
      rfl
    rw [List.filterMap_cons_some htask, List.map_cons,
      ih fun idx' h => hrange idx' (List.mem_cons_of_mem _ h)]

theorem map_fst_of_forall₂ {ran : List (Ran C)} {results : List (Nat × Option C)}
    (h : List.Forall₂ Ran.IsResult ran results) :
    results.map Prod.fst = (ran.map Prod.fst).map Prod.fst := by
  induction h with
  | nil => rfl
  | cons hresult _ ih => rw [List.map_cons, List.map_cons, List.map_cons, ih, hresult.1]

theorem exists_isResult {ran : List (Ran C)} {results : List (Nat × Option C)}
    (h : List.Forall₂ Ran.IsResult ran results) {run : Ran C} (hrun : run ∈ ran) :
    ∃ result ∈ results, run.IsResult result := by
  induction h with
  | nil => cases hrun
  | cons hresult _ ih =>
    obtain rfl | hrun := List.mem_cons.mp hrun
    · exact ⟨_, List.mem_cons_self, hresult⟩
    · obtain ⟨result, hmem, hresult⟩ := ih hrun
      exact ⟨result, List.mem_cons_of_mem _ hmem, hresult⟩

/-- A task of the starts is that of an index that failed. -/
theorem task_of_mem_classified {failed : List Nat}
    (hrange : ∀ idx ∈ failed, ∃ i, i < wallets.length ∧ idx = start + i) {task : Task}
    (hmem : task ∈ classified (failed.filterMap (taskOf start wallets))) :
    ∃ i, task.1 = start + i ∧ start + i ∈ failed ∧ wallets[i]? = some task.2 := by
  obtain ⟨idx, hidx, htask⟩ := List.mem_filterMap.mp ((perm_classified _).subset hmem)
  obtain ⟨i, -, rfl⟩ := hrange idx hidx
  rw [taskOf, Nat.add_sub_cancel_left, Option.map_eq_some_iff] at htask
  obtain ⟨wallet, hwallet, rfl⟩ := htask
  exact ⟨i, rfl, hidx, hwallet⟩

/-- The starts that returned, for each index that failed, and what they returned. -/
theorem exists_result {failed : List Nat} {ran : List (Ran C)} {results : List (Nat × Option C)}
    (hran : ran.map Prod.fst = classified (failed.filterMap (taskOf start wallets)))
    (hresults : List.Forall₂ Ran.IsResult ran results) {i : Nat} {wallet : WalletConfig}
    (hwallet : wallets[i]? = some wallet) (hfailed : start + i ∈ failed) :
    ∃ client, (start + i, client) ∈ results ∧
      Event.started (start + i) wallet (.ok client) ∈ ran.map Ran.event := by
  have htask : (start + i, wallet) ∈ classified (failed.filterMap (taskOf start wallets)) := by
    refine (perm_classified _).symm.subset (List.mem_filterMap.mpr ⟨_, hfailed, ?_⟩)
    rw [taskOf, Nat.add_sub_cancel_left, hwallet]
    rfl
  rw [← hran] at htask
  obtain ⟨⟨task, returned⟩, hrun, rfl⟩ := List.mem_map.mp htask
  obtain ⟨⟨idx, client⟩, hmem, hidx, hreturned⟩ := exists_isResult hresults hrun
  obtain rfl : start + i = idx := hidx
  refine ⟨client, hmem, List.mem_map.mpr ⟨_, hrun, ?_⟩⟩
  rw [Ran.event, hreturned]

/-- The clients after the starts. -/
theorem Marked.restart {log added : List (Event C)} {failed : List Nat}
    (h : Marked start wallets k newClients MayStart failed log)
    {r : Except PyError (List (Nat × Option C))}
    (hstarted : Started Ran.IsResult (classified (failed.filterMap (taskOf start wallets))) r added) :
    Sound start wallets (k + 1) (log ++ added) ∧
      ∀ results, r = .ok results →
        Settled start wallets (k + 1) (assign start newClients results) (log ++ added) := by
  obtain ⟨ran, rfl, hsub, hresult⟩ := hstarted
  have hkeys : (ran.map Ran.event).map Event.idx = (ran.map Prod.fst).map Prod.fst := by
    rw [List.map_map, List.map_map]
    rfl
  have hperm :
      ((classified (failed.filterMap (taskOf start wallets))).map Prod.fst).Perm failed := by
    have hfst := (perm_classified (failed.filterMap (taskOf start wallets))).map Prod.fst
    rwa [map_fst_tasks h.range] at hfst
  have hnodup : ((ran.map Ran.event).map Event.idx).Nodup := by
    rw [hkeys]
    exact (hperm.nodup_iff.mpr h.nodup).sublist (hsub.map _)
  have hsound : Sound start wallets (k + 1) (log ++ ran.map Ran.event) := by
    refine h.sound.append hnodup fun event hevent => ?_
    obtain ⟨task, htaskRan, rfl⟩ := List.mem_map.mp hevent
    obtain ⟨i, hidx, hfailed, hwallet⟩ :=
      task_of_mem_classified h.range (hsub.subset (List.mem_map_of_mem htaskRan))
    refine ⟨⟨i, hwallet, hidx⟩, ?_⟩
    show MayStart (lastOf Event.idx task.1.1 log) task.1.1
    rw [hidx]
    exact h.marked _ hfailed
  refine ⟨hsound, ?_⟩
  rintro results rfl
  obtain ⟨hran, hresults⟩ := hresult
  have hresultFst := map_fst_of_forall₂ hresults
  rw [hran] at hresultFst
  have hstart : ∀ result ∈ results, start ≤ result.1 := by
    intro result hmem
    have hfailed : result.1 ∈ failed := hperm.subset (hresultFst ▸ List.mem_map_of_mem hmem)
    obtain ⟨i, -, hidx⟩ := h.range _ hfailed
    omega
  refine ⟨hsound, by rw [length_assign, h.length], .nil, by simp, by simp, ?_⟩
  intro i wallet client hwallet hclient _
  by_cases hfailed : start + i ∈ failed
  · -- started again: the result of its start takes its place
    obtain ⟨returned, hmem, hevent⟩ := exists_result hran hresults hwallet hfailed
    have hlength : i < newClients.length := by
      rw [h.length]
      exact (List.getElem?_eq_some_iff.mp hwallet).1
    rw [getElem?_assign_of_mem hstart (hresultFst ▸ hperm.nodup_iff.mpr h.nodup) hmem hlength]
      at hclient
    cases hclient
    exact Current.of_start hnodup hevent
  · have hnotMem : start + i ∉ (ran.map Ran.event).map Event.idx := by
      rw [hkeys, hran]
      exact fun hmem => hfailed (hperm.subset hmem)
    refine (h.others i wallet client hwallet ?_ hfailed).append hnotMem
    rw [← hclient]
    refine (getElem?_assign_of_notMem hstart ?_).symm
    rw [hresultFst]
    exact fun hmem => hfailed (hperm.subset hmem)

theorem Marked.settle {mark : Option (Event C) → Nat → Prop} {log : List (Event C)}
    (h : Marked start wallets k newClients mark [] log) : Settled start wallets k newClients log :=
  ⟨h.sound, h.length, h.nodup, by simp, by simp, h.others⟩

theorem Settled.mono {k' : Nat} {log : List (Event C)} (h : Settled start wallets k newClients log)
    (hle : k ≤ k') : Settled start wallets k' newClients log :=
  ⟨h.sound.mono hle, h.length, h.nodup, h.range, h.marked, h.others⟩

variable (start wallets k) in
/-- How rounds end: every call was allowed, and the clients that are returned are settled. -/
def Ends (r : Except PyError (List (Option C))) (log : List (Event C)) : Prop :=
  Sound start wallets k log ∧ ∀ new, r = .ok new → Settled start wallets k new log

theorem Ends.raised {k' : Nat} {log : List (Event C)} (h : Sound start wallets k log)
    (hle : k ≤ k') (error : PyError) : Ends start wallets k' (.error error) log := by
  refine ⟨h.mono hle, ?_⟩
  rintro new hnew
  cases hnew

theorem Ends.returned {k' : Nat} {log : List (Event C)}
    (h : Settled start wallets k newClients log) (hle : k ≤ k') :
    Ends start wallets k' (.ok newClients) log := by
  refine ⟨h.sound.mono hle, ?_⟩
  rintro new hnew
  cases hnew
  exact h.mono hle

end Round

/-! ### A whole start -/

section Run

variable (engine : ClientEngine σ C) (processes start : Nat) (wallets : List WalletConfig)

/-- By induction on the rounds: each starts every client at most once more. -/
theorem emits_retry (rounds k : Nat) (newClients : List (Option C)) :
    Emits Startup.log (retry engine processes start wallets rounds newClients) fun old r added =>
      Settled start wallets k newClients old →
        Ends start wallets (k + rounds) r (old ++ added) := by
  induction rounds generalizing k newClients with
  | zero =>
    refine .pure fun old h => ?_
    rw [List.append_nil]
    exact .returned h (Nat.le_refl k)
  | succ rounds ih =>
    refine (emits_failedIndices engine start newClients).bind (N := fun failed old r added =>
      Marked start wallets k newClients (MustStop start wallets) failed old →
        Ends start wallets (k + (rounds + 1)) r (old ++ added)) (fun failed => ?_) ?_ ?_
    · split
      · rename_i hnil
        subst hnil
        refine .pure fun old h => ?_
        rw [List.append_nil]
        exact .returned h.settle (by omega)
      · refine (emits_stopClients engine failed).bind (N := fun _ old r added =>
          Marked start wallets k newClients MayStart failed old →
            Ends start wallets (k + (rounds + 1)) r (old ++ added)) (fun _ => ?_) ?_ ?_
        · refine (emits_startClassifiedWallets engine processes _).bind
            (N := fun results old r added =>
              Settled start wallets (k + 1) (assign start newClients results) old →
                Ends start wallets (k + (rounds + 1)) r (old ++ added)) (fun results => ?_) ?_ ?_
          · rw [show k + (rounds + 1) = k + 1 + rounds by omega]
            exact ih (k + 1) _
          · intro old error added hstarted h
            exact .raised (h.restart hstarted).1 (by omega) error
          · intro old results added r added' hstarted hrest h
            rw [← List.append_assoc]
            exact hrest ((h.restart hstarted).2 results rfl)
        · rintro old error added ⟨called, hcalled, rfl, -⟩ h
          exact .raised (h.stop hcalled).1 (by omega) error
        · rintro old a added r added' ⟨called, hcalled, rfl, hall⟩ hrest h
          rw [← List.append_assoc]
          exact hrest ((h.stop hcalled).2 (hall rfl))
    · rintro old error added ⟨_, -, -, -, hr⟩
      cases hr
    · rintro old failed added r added' ⟨verdicts, hmap, hnone, rfl, hr⟩ hrest h
      cases hr
      rw [← List.append_assoc]
      exact hrest (Settled.probe h hmap hnone)

/-- Before the first start. -/
theorem marked_init : Marked (C := C) start wallets 0 (List.replicate wallets.length none) MayStart
    (List.range' start wallets.length) [] where
  sound := ⟨lawful_nil, fun _ => le_refl _⟩
  length := List.length_replicate
  nodup := List.nodup_range'
  range idx hidx := by
    rw [List.mem_range'_1] at hidx
    exact ⟨idx - start, by omega, by omega⟩
  marked _ _ := .inl rfl
  others i wallet client hwallet _ hother := by
    have hi := (List.getElem?_eq_some_iff.mp hwallet).1
    exact absurd (List.mem_range'_1.mpr (by omega)) hother

theorem walletList_eq : (wallets.zipIdx.map fun wallet => (start + wallet.2, wallet.1)) =
    (List.range' start wallets.length).filterMap (taskOf start wallets) := by
  -- by induction on the wallets that are left
  have hrest (done rest : List WalletConfig) :
      ((rest.zipIdx done.length).map fun wallet => (start + wallet.2, wallet.1)) =
        (List.range' (start + done.length) rest.length).filterMap (taskOf start (done ++ rest)) := by
    induction rest generalizing done with
    | nil => rfl
    | cons wallet rest ih =>
      have htask : taskOf start (done ++ wallet :: rest) (start + done.length) =
          some (start + done.length, wallet) := by
        simp [taskOf]
      have hnext := ih (done ++ [wallet])
      rw [List.append_assoc, List.length_append, List.length_singleton] at hnext
      rw [List.zipIdx_cons, List.map_cons, List.length_cons, List.range'_succ,
        List.filterMap_cons_some htask]
      exact congrArg _ hnext
  exact hrest [] wallets

variable {start wallets} in
theorem Marked.one_le_startsOf {k : Nat} {newClients : List (Option C)} {log : List (Event C)}
    (h : Settled start wallets k newClients log) {i : Nat} (hi : i < wallets.length) :
    1 ≤ startsOf (start + i) log := by
  have hclient : i < newClients.length := by
    rw [h.length]
    exact hi
  have hcurrent := h.others i _ _ (List.getElem?_eq_getElem hi) (List.getElem?_eq_getElem hclient)
    (by simp)
  obtain ⟨hmem, -⟩ := mem_of_lastOf hcurrent.latest
  refine List.countP_pos_iff.mpr ⟨_, (List.mem_filter.mp hmem).1, ?_⟩
  simp [Event.isStart, Event.idx]

theorem startsOf_le_append (idx : Nat) (log added : List (Event C)) :
    startsOf idx log ≤ startsOf idx (log ++ added) := by
  unfold startsOf
  rw [List.countP_append]
  exact Nat.le_add_right _ _

/-- Every bond can be read and no start raises. -/
def NoneRaised (wallets : List WalletConfig) (log : List (Event C)) : Prop :=
  (∀ wallet ∈ wallets, ∃ bonded, hasFidelityBond wallet = .ok bonded) ∧
    ∀ idx wallet error, .started idx wallet (.error error) ∉ log

/-- What a start of the new clients did and returned, from an empty log. -/
def NewClients (r : Except PyError (List (Option C))) (log : List (Event C)) : Prop :=
  Sound start wallets 4 log ∧
    (∀ new, r = .ok new → Settled start wallets 4 new log ∧ none ∉ new) ∧
    (NoneRaised wallets log → ∀ i < wallets.length, 1 ≤ startsOf (start + i) log)

theorem sound_nil : Sound (C := C) start wallets 4 [] := ⟨lawful_nil, fun _ => Nat.zero_le _⟩

theorem mapM_hasFidelityBond {wallets : List WalletConfig}
    (h : ∀ wallet ∈ wallets, ∃ bonded, hasFidelityBond wallet = .ok bonded) :
    wallets.mapM hasFidelityBond = .ok (wallets.map fun wallet => isBonded (0, wallet)) := by
  refine mapM_eq_ok_map fun wallet hwallet => ?_
  obtain ⟨bonded, hbonded⟩ := h wallet hwallet
  rw [isBonded, hbonded]

theorem emits_startNewClients :
    Emits Startup.log (startNewClients engine processes start wallets) fun old r added =>
      old = [] → NewClients start wallets r added := by
  unfold startNewClients
  cases hbonds : wallets.mapM hasFidelityBond with
  | error error =>
    refine .throw ?_
    rintro old -
    refine ⟨sound_nil start wallets, ?_, fun hraised => ?_⟩
    · rintro new hnew
      cases hnew
    · rw [mapM_hasFidelityBond hraised.1] at hbonds
      cases hbonds
  | ok bonds =>
    have hinit := marked_init (C := C) start wallets
    show Emits Startup.log (startClassifiedWallets engine processes
      (wallets.zipIdx.map fun wallet => (start + wallet.2, wallet.1)) >>= _) _
    rw [walletList_eq]
    refine (emits_startClassifiedWallets engine processes _).bind (N := fun results old r added =>
      Settled start wallets 1 (assign start (List.replicate wallets.length none) results) old →
        NewClients start wallets r (old ++ added)) (fun results => ?_) ?_ ?_
    · refine (emits_retry engine processes start wallets 3 1 _).bind (N := fun new old r added =>
        added = [] ∧ ∀ new', r = .ok new' → new' = new ∧ none ∉ new) (fun new => ?_) ?_ ?_
      · dsimp only
        split
        · exact .throw fun _ => ⟨rfl, fun new' hnew => by cases hnew⟩
        · rename_i hcount
          refine .pure fun _ => ⟨rfl, fun new' hnew => ?_⟩
          cases hnew
          refine ⟨rfl, fun hnone => hcount ?_⟩
          exact (List.countP_pos_iff.mpr ⟨none, hnone, rfl⟩).ne'
      · intro old error added hretry h
        obtain ⟨hsound, -⟩ := hretry h
        refine ⟨hsound, ?_, fun _ i hi => (h.one_le_startsOf hi).trans (startsOf_le_append _ _ _)⟩
        rintro new hnew
        cases hnew
      · rintro old new added r added' hretry ⟨rfl, hnew⟩ h
        obtain ⟨hsound, hsettled⟩ := hretry h
        rw [List.append_nil]
        refine ⟨hsound, fun new' hr => ?_, fun _ i hi =>
          (h.one_le_startsOf hi).trans (startsOf_le_append _ _ _)⟩
        obtain ⟨rfl, hnone⟩ := hnew new' hr
        exact ⟨hsettled _ rfl, hnone⟩
    · rintro old error added hstarted rfl
      obtain ⟨hsound, -⟩ := hinit.restart hstarted
      obtain ⟨ran, rfl, -, run, hrun, hraises⟩ := hstarted
      refine ⟨hsound.mono (by omega), ?_, fun hraised => ?_⟩
      · rintro new hnew
        cases hnew
      · refine absurd (List.mem_map.mpr ⟨run, hrun, ?_⟩) (hraised.2 run.1.1 run.1.2 error)
        rw [Ran.event, hraises]
    · rintro old results added r added' hstarted hrest rfl
      exact hrest ((hinit.restart hstarted).2 results rfl)

omit σ in
theorem map_some_reduceOption {new : List (Option C)} (h : none ∉ new) :
    new.reduceOption.map some = new := by
  induction new with
  | nil => rfl
  | cons client rest ih =>
    rw [List.mem_cons, not_or] at h
    cases client with
    | none => exact absurd rfl h.1
    | some client => rw [List.reduceOption_cons_of_some, List.map_cons, ih h.2]

variable {start wallets} in
/-- For any results of the calls, a start raises and leaves the engine's clients, or it appends one
client for each wallet, which its latest start returned.  Only a client that is missing or fails its
probe is stopped, and only after its stop is it started again.  No client is started more than four
times, and each is started unless a start raises. -/
theorem startClients_aligned (world : σ) (clients : List C) :
    let start := clients.length
    let result := (startClients engine processes wallets).run ⟨clients, world, []⟩
    let log := (resultState result).startup.log
    (∀ error s, result = .error error s → s.clients = clients) ∧
    (∀ s, result = .ok () s → ∃ new, s.clients = clients ++ new ∧ new.length = wallets.length ∧
      ∀ i wallet client, wallets[i]? = some wallet → new[i]? = some client →
        latestStart (start + i) log = some (.started (start + i) wallet (.ok (some client)))) ∧
    Lawful Event.idx (Allowed start wallets) log ∧
    (∀ idx, startsOf idx log ≤ 4) ∧
    (NoneRaised wallets log → ∀ i < wallets.length, 1 ≤ startsOf (start + i) log) := by
  intro start result log
  obtain ⟨added, hlog, hnew⟩ :=
    emits_startNewClients engine processes clients.length wallets ⟨world, []⟩
  obtain ⟨hsound, hsettled, hleast⟩ := hnew rfl
  have hresult : result = match (startNewClients engine processes clients.length wallets).run
      ⟨world, []⟩ with
    | .ok new startup => .ok () ⟨clients ++ new.reduceOption, startup⟩
    | .error error startup => .error error ⟨clients, startup⟩ := by
    simp only [result, startClients, EStateM.run_bind, EStateM.run_get, run_zoom]
    cases (startNewClients engine processes clients.length wallets).run ⟨world, []⟩ <;> rfl
  have hadded : log = added := by
    rw [List.nil_append] at hlog
    rw [← hlog]
    simp only [log, hresult, stateAfter]
    cases (startNewClients engine processes clients.length wallets).run ⟨world, []⟩ <;> rfl
  rw [hadded]
  refine ⟨fun error s herror => ?_, fun s hok => ?_, hsound.lawful, hsound.starts, hleast⟩
  · rw [hresult] at herror
    cases hrun : (startNewClients engine processes clients.length wallets).run ⟨world, []⟩ with
    | ok new startup =>
      rw [hrun] at herror
      cases herror
    | error error startup =>
      rw [hrun] at herror
      cases herror
      rfl
  · rw [hresult] at hok
    cases hrun : (startNewClients engine processes clients.length wallets).run ⟨world, []⟩ with
    | error error startup =>
      rw [hrun] at hok
      cases hok
    | ok new startup =>
      rw [hrun] at hok hsettled
      cases hok
      obtain ⟨hsettled, hnone⟩ := hsettled new rfl
      have hmap := map_some_reduceOption hnone
      refine ⟨new.reduceOption, rfl, ?_, fun i wallet client hwallet hclient => ?_⟩
      · rw [← hsettled.length, ← hmap, List.length_map, hmap]
      · refine (hsettled.others i wallet (some client) hwallet ?_ (by simp)).latest
        rw [← hmap, List.getElem?_map, hclient]
        rfl

end Run

/-- A start that raises for a regular wallet leaves the wallet with a bond without a start. -/
theorem bonded_wallet_not_started :
    let regular : WalletConfig := {
      funds := [], delayBlocks := .none, delayRounds := .none, stopBlocks := .none
      stopRounds := .none, version := .none, wasabi := none, joinmarket := none }
    let bonded : WalletConfig := { regular with
      joinmarket := some {
        role := none, offers := .none, tumblerOptions := .none, timeBetweenRounds := .none
        coinjoinTimeoutBlocks := none, fidelityBond := .dict [("enabled", .bool true)]
        maxCoinjoins := .none, postmixSpends := none, nonempty := rfl } }
    let engine : ClientEngine Unit Unit := {
      startClient := fun _ _ => throw (.runtimeError "could not create core wallet")
      stopClient := fun _ => pure ()
      getBalance := fun _ => pure () }
    let result := (startClients engine 1 [regular, bonded]).run ⟨[], (), []⟩
    ¬∀ i < 2, 1 ≤ startsOf i (resultState result).startup.log := by
  decide +kernel

end CoinjoinEmulator.ClientStartup
