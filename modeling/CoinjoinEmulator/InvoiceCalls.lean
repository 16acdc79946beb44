import CoinjoinEmulator.Invoices
import CoinjoinEmulator.ProofKit.Emit

/-! What the payment of invoices keeps of the engine's world, and what an update sends: some due
invoices, and all of them if it returns. -/

namespace CoinjoinEmulator

open ProofKit

section Invoices

variable {σ : Type} {S : σ → σ → Prop}

/-- The world of the engine changed as the relation says. -/
def OnFundingWorld (S : σ → σ → Prop) (engine engine' : Funding σ) : Prop :=
  S engine.world engine'.world

instance [Std.Refl S] : Std.Refl (OnFundingWorld S) := ⟨fun engine => refl_of S engine.world⟩

instance [IsTrans σ S] : IsTrans (Funding σ) (OnFundingWorld S) :=
  ⟨fun _ _ _ h h' => trans_of S h h'⟩

variable {distributor : Option (Distributor σ)}

/-- Paying a schedule keeps what sending a batch and deleting paid invoices keep. -/
theorem keeps_payInvoices {R : Funding σ → Funding σ → Prop} [Std.Refl R] [IsTrans (Funding σ) R]
    (hsend : ∀ batch, Keeps R (Funding.onWorld (sendBatch distributor batch)))
    (hpaid : ∀ engine schedule count, R engine (engine.deletePaid schedule count))
    (schedule : Int × Int) : Keeps R (payInvoices distributor schedule) := by
  have hbatch : ∀ batch tries, Keeps R (payBatch distributor schedule batch tries) := by
    intro batch tries
    induction tries with
    | zero => exact .throw _
    | succ tries ih =>
      refine (hsend batch).observing.bind fun result => ?_
      cases result with
      | ok result => exact .ite _ ih (.modify fun engine => hpaid engine schedule _)
      | error error => exact ih
  have hloop : ∀ fuel, Keeps R (payInvoicesLoop distributor schedule fuel) := by
    intro fuel
    induction fuel with
    | zero => exact .pure ()
    | succ fuel ih =>
      exact Keeps.get.bind fun engine => .ite _ (.pure ()) ((hbatch _ _).bind fun _ => ih)
  exact Keeps.get.bind fun engine => hloop _

/-- Paying the due invoices keeps what the distributor keeps. -/
theorem keeps_updateInvoicePayments [Std.Refl S] [IsTrans σ S]
    (h : ∀ send ∈ distributor, ∀ batch, Keeps S (send batch)) (currentBlock currentRound : Int) :
    Keeps (OnFundingWorld S) (updateInvoicePayments distributor currentBlock currentRound) := by
  have hsend : ∀ batch, Keeps (OnFundingWorld S)
      (Funding.onWorld (sendBatch distributor batch)) := by
    intro batch
    refine Keeps.zoom_of_keeps ?_ fun _ _ hworld => hworld
    cases distributor with
    | none => exact .throw _
    | some send => exact h send rfl batch
  refine Keeps.get.bind fun engine => Keeps.forM (fun schedule => ?_) _
  refine (keeps_payInvoices hsend (fun engine _ _ => refl_of S engine.world) schedule).bind
    fun _ => ?_
  exact fun engine => refl_of S engine.world

end Invoices

/-! ### What an update sends -/

section Sends

variable {σ E : Type} (log : σ → List E) (event : List Invoice → List E)

/-- What `send` does or returns says whether it sent the batch. -/
def isSent : Except PyError String → Bool
  | .ok result => result != "timeout"
  | .error _ => false

/-- The batches that are sent are logged. -/
def LogsBatches (send : Distributor σ) : Prop :=
  ∀ batch, Emits log (send batch) fun _ r added => added = if isSent r then event batch else []

/-- The entries `taken` were due and were sent, in batches, and the others are still scheduled. -/
structure PaysDue (block round : Int) (taken : List ((Int × Int) × Invoice))
    (engine engine' : Funding σ) : Prop where
  due : ∀ entry ∈ taken, isDue block round entry.1 = true
  sent : ∃ batches : List (List Invoice), batches.flatten = taken.map Prod.snd ∧
    log engine'.world = log engine.world ++ batches.flatMap event
  scheduled : engine.entries.Perm (taken ++ engine'.entries)

variable {log event} {block round : Int}

theorem PaysDue.nothing {engine engine' : Funding σ} (hlog : log engine'.world = log engine.world)
    (hentries : engine.entries.Perm engine'.entries) :
    PaysDue log event block round [] engine engine' where
  due := by simp
  sent := ⟨[], rfl, by simpa using hlog⟩
  scheduled := by simpa using hentries

theorem PaysDue.refl (engine : Funding σ) : PaysDue log event block round [] engine engine :=
  .nothing rfl (.refl _)

theorem PaysDue.trans {taken taken' : List ((Int × Int) × Invoice)}
    {engine engine' engine'' : Funding σ} (h : PaysDue log event block round taken engine engine')
    (h' : PaysDue log event block round taken' engine' engine'') :
    PaysDue log event block round (taken ++ taken') engine engine'' where
  due entry hentry := by
    rcases List.mem_append.mp hentry with hold | hnew
    · exact h.due entry hold
    · exact h'.due entry hnew
  sent := by
    obtain ⟨batches, hbatches, hlog⟩ := h.sent
    obtain ⟨batches', hbatches', hlog'⟩ := h'.sent
    refine ⟨batches ++ batches', ?_, ?_⟩
    · rw [List.flatten_append, hbatches, hbatches', List.map_append]
    · rw [hlog', hlog, List.flatMap_append, List.append_assoc]
  scheduled := by
    rw [List.append_assoc]
    exact h.scheduled.trans (h'.scheduled.append_left taken)

theorem PaysDue.subset {taken : List ((Int × Int) × Invoice)} {engine engine' : Funding σ}
    (h : PaysDue log event block round taken engine engine') : engine'.entries ⊆ engine.entries :=
  fun _ hentry => h.scheduled.symm.subset (List.mem_append_right _ hentry)

variable {distributor : Option (Distributor σ)}

/-- A batch is sent unless `send` raises or returns `'timeout'`. -/
theorem run_sendBatch (h : ∀ send ∈ distributor, LogsBatches log event send)
    (batch : List Invoice) (engine : Funding σ) :
    let sent := Funding.onWorld (sendBatch distributor batch)
    (∃ error world, sent.run engine = .error error (engine.setWorld world) ∧
      log world = log engine.world) ∨
    (∃ world, sent.run engine = .ok "timeout" (engine.setWorld world) ∧
      log world = log engine.world) ∨
    ∃ result world, result ≠ "timeout" ∧ sent.run engine = .ok result (engine.setWorld world) ∧
      log world = log engine.world ++ event batch := by
  intro sent
  cases distributor with
  | none => exact .inl ⟨_, engine.world, rfl, rfl⟩
  | some send =>
    have hsent : sent.run engine = (Funding.onWorld (send batch)).run engine := rfl
    obtain ⟨added, hlog, hadded⟩ := h send rfl batch engine.world
    rw [hsent, Funding.onWorld, run_zoom]
    cases hrun : (send batch).run engine.world with
    | error error world =>
      rw [stateAfter_of_error hrun] at hlog
      rw [hrun] at hadded
      have hnone : added = [] := hadded
      rw [hnone, List.append_nil] at hlog
      exact .inl ⟨error, world, rfl, hlog⟩
    | ok result world =>
      rw [stateAfter_of_ok hrun] at hlog
      rw [hrun] at hadded
      have hsome : added = if result != "timeout" then event batch else [] := hadded
      by_cases htimeout : result = "timeout"
      · subst htimeout
        have hnone : added = [] := hsome
        rw [hnone, List.append_nil] at hlog
        exact .inr (.inl ⟨world, rfl, hlog⟩)
      · rw [if_pos (bne_iff_ne.mpr htimeout)] at hsome
        rw [hsome] at hlog
        exact .inr (.inr ⟨result, world, htimeout, rfl, hlog⟩)

/-- A batch that is sent leaves the list of its schedule. -/
theorem pays_deletePaid {schedule : Int × Int} (hdue : isDue block round schedule = true)
    {batch : List Invoice} {engine : Funding σ} {world : σ}
    (hlog : log world = log engine.world ++ event batch)
    (hbatch : batch <+: engine.addressedInvoices schedule) :
    PaysDue log event block round (batch.map (Prod.mk schedule)) engine
      ((engine.setWorld world).deletePaid schedule batch.length) where
  due := by
    intro entry hentry
    obtain ⟨invoice, -, rfl⟩ := List.mem_map.mp hentry
    exact hdue
  sent := by
    refine ⟨[batch], by simp [Function.comp_def], ?_⟩
    rw [List.flatMap_singleton]
    exact hlog
  scheduled := by
    have hentries := Groups.entries_put_drop engine.nodup_keys schedule batch.length
    have htake : (engine.invoices.get schedule).take batch.length = batch :=
      (List.prefix_iff_eq_take.mp hbatch).symm
    rw [htake] at hentries
    exact hentries

theorem run_payBatch_cases (h : ∀ send ∈ distributor, LogsBatches log event send)
    {schedule : Int × Int} (hdue : isDue block round schedule = true) {batch : List Invoice}
    (tries : Nat) {engine : Funding σ} (hbatch : batch <+: engine.addressedInvoices schedule) :
    let attempt := payBatch distributor schedule batch tries
    (∃ engine', attempt.run engine = .ok () engine' ∧
      PaysDue log event block round (batch.map (Prod.mk schedule)) engine engine' ∧
      engine'.addressedInvoices schedule =
        (engine.addressedInvoices schedule).drop batch.length) ∨
    ∃ error engine', attempt.run engine = .error error engine' ∧
      PaysDue log event block round [] engine engine' := by
  intro attempt
  induction tries generalizing engine with
  | zero => exact .inr ⟨_, engine, rfl, .refl engine⟩
  | succ tries ih =>
    -- A send that sends nothing is tried again.
    have hagain : ∀ world, log world = log engine.world →
        attempt.run engine =
          (payBatch distributor schedule batch tries).run (engine.setWorld world) →
        (∃ engine', attempt.run engine = .ok () engine' ∧
          PaysDue log event block round (batch.map (Prod.mk schedule)) engine engine' ∧
          engine'.addressedInvoices schedule =
            (engine.addressedInvoices schedule).drop batch.length) ∨
        ∃ error engine', attempt.run engine = .error error engine' ∧
          PaysDue log event block round [] engine engine' := by
      intro world hlog hsame
      have hunsent : PaysDue log event block round [] engine (engine.setWorld world) :=
        .nothing hlog (.refl _)
      rw [hsame]
      rcases @ih (engine.setWorld world) hbatch with
        ⟨engine', hrun, hpays, hrest⟩ | ⟨error, engine', hrun, hpays⟩
      · exact .inl ⟨engine', hrun, hunsent.trans hpays, hrest⟩
      · exact .inr ⟨error, engine', hrun, hunsent.trans hpays⟩
    rcases run_sendBatch h batch engine with
      ⟨error, world, hrun, hlog⟩ | ⟨world, hrun, hlog⟩ | ⟨result, world, hresult, hrun, hlog⟩
    · apply hagain world hlog
      simp only [attempt, payBatch, EStateM.run_bind, run_observing, hrun]
    · apply hagain world hlog
      simp only [attempt, payBatch, EStateM.run_bind, run_observing, hrun, if_true]
    · refine .inl ⟨_, ?_, pays_deletePaid hdue hlog hbatch, ?_⟩
      · simp only [attempt, payBatch, EStateM.run_bind, run_observing, hrun, hresult, if_false,
          EStateM.run_modify]
      · exact Funding.addressedInvoices_deletePaid _ _ _

/-- The loop over the batches of a schedule ends with an empty list, or raises. -/
theorem run_payInvoicesLoop_cases (h : ∀ send ∈ distributor, LogsBatches log event send)
    {schedule : Int × Int} (hdue : isDue block round schedule = true) {fuel : Nat}
    {engine : Funding σ} (hfuel : (engine.addressedInvoices schedule).length ≤ fuel) :
    let loop := payInvoicesLoop distributor schedule fuel
    (∃ taken engine', loop.run engine = .ok () engine' ∧
      PaysDue log event block round taken engine engine' ∧
      engine'.addressedInvoices schedule = []) ∨
    ∃ taken error engine', loop.run engine = .error error engine' ∧
      PaysDue log event block round taken engine engine' := by
  intro loop
  induction fuel generalizing engine with
  | zero =>
    have hnil := List.eq_nil_of_length_eq_zero (Nat.le_zero.mp hfuel)
    exact .inl ⟨[], engine, rfl, .refl engine, hnil⟩
  | succ fuel ih =>
    simp only [loop, payInvoicesLoop, EStateM.run_bind, EStateM.run_get, run_ite]
    by_cases hnil : engine.addressedInvoices schedule = []
    · rw [if_pos hnil]
      exact .inl ⟨[], engine, rfl, .refl engine, hnil⟩
    · rw [if_neg hnil]
      rcases run_payBatch_cases h hdue 3
          (List.take_prefix batchSize (engine.addressedInvoices schedule)) with
        ⟨engine1, hrun, hpays, hdrop⟩ | ⟨error, engine1, hrun, hpays⟩
      · have hpos := List.length_pos_iff.mpr hnil
        have hfuel1 : (engine1.addressedInvoices schedule).length ≤ fuel := by
          rw [hdrop, List.length_drop, List.length_take, batchSize]
          omega
        simp only [hrun]
        rcases ih hfuel1 with
          ⟨taken, engine', hrest, hothers, hempty⟩ | ⟨taken, error, engine', hrest, hothers⟩
        · exact .inl ⟨_, engine', hrest, hpays.trans hothers, hempty⟩
        · exact .inr ⟨_, error, engine', hrest, hpays.trans hothers⟩
      · simp only [hrun]
        exact .inr ⟨_, error, engine1, rfl, hpays⟩

theorem run_paySchedule_cases (h : ∀ send ∈ distributor, LogsBatches log event send)
    {schedule : Int × Int} (hdue : isDue block round schedule = true) (engine : Funding σ) :
    let pay := paySchedule distributor schedule
    (∃ taken engine', pay.run engine = .ok () engine' ∧
      PaysDue log event block round taken engine engine' ∧
      ∀ entry ∈ engine'.entries, entry.1 ≠ schedule) ∨
    ∃ taken error engine', pay.run engine = .error error engine' ∧
      PaysDue log event block round taken engine engine' := by
  intro pay
  simp only [pay, paySchedule, payInvoices, EStateM.run_bind, EStateM.run_get]
  rcases run_payInvoicesLoop_cases h hdue
      (le_refl (engine.addressedInvoices schedule).length) with
    ⟨taken, engine1, hrun, hpays, hempty⟩ | ⟨taken, error, engine1, hrun, hpays⟩
  · simp only [hrun, EStateM.run_modify]
    refine .inl ⟨taken ++ [], _, rfl, hpays.trans (.nothing rfl ?_), ?_⟩
    · have hentries := Groups.entries_remove engine1.nodup_keys schedule
      rw [show engine1.invoices.get schedule = [] from hempty] at hentries
      exact hentries
    · intro entry hentry
      obtain ⟨group, hgroup, hmem⟩ := List.mem_flatMap.mp hentry
      obtain ⟨invoice, -, rfl⟩ := List.mem_map.mp hmem
      simpa using (List.mem_filter.mp hgroup).2
  · simp only [hrun]
    exact .inr ⟨taken, error, engine1, rfl, hpays⟩

theorem run_forM_paySchedule_cases (h : ∀ send ∈ distributor, LogsBatches log event send)
    {due : List (Int × Int)} (hdue : ∀ schedule ∈ due, isDue block round schedule = true)
    (engine : Funding σ) :
    let loop := forM due (paySchedule distributor)
    (∃ taken engine', loop.run engine = .ok () engine' ∧
      PaysDue log event block round taken engine engine' ∧
      ∀ entry ∈ engine'.entries, entry.1 ∉ due) ∨
    ∃ taken error engine', loop.run engine = .error error engine' ∧
      PaysDue log event block round taken engine engine' := by
  intro loop
  induction due generalizing engine with
  | nil => exact .inl ⟨[], engine, rfl, .refl engine, by simp⟩
  | cons schedule rest ih =>
    simp only [loop, List.forM_cons, EStateM.run_bind]
    rcases run_paySchedule_cases h (hdue schedule (by simp)) engine with
      ⟨taken, engine1, hrun, hpays, hgone⟩ | ⟨taken, error, engine1, hrun, hpays⟩
    · simp only [hrun]
      have hlater : ∀ schedule' ∈ rest, isDue block round schedule' = true :=
        fun schedule' hmem => hdue schedule' (List.mem_cons_of_mem _ hmem)
      rcases ih hlater engine1 with
        ⟨taken', engine', hrest, hothers, hnone⟩ | ⟨taken', error, engine', hrest, hothers⟩
      · refine .inl ⟨_, engine', hrest, hpays.trans hothers, fun entry hentry hmem => ?_⟩
        rcases List.mem_cons.mp hmem with hfirst | hlater
        · exact hgone entry (hothers.subset hentry) hfirst
        · exact hnone entry hentry hlater
      · exact .inr ⟨_, error, engine', hrest, hpays.trans hothers⟩
    · simp only [hrun]
      exact .inr ⟨taken, error, engine1, rfl, hpays⟩

/-- An update sends some due invoices, and all of them if it returns. -/
theorem run_update_cases (h : ∀ send ∈ distributor, LogsBatches log event send)
    (block round : Int) (engine : Funding σ) :
    let update := updateInvoicePayments distributor block round
    (∃ taken engine', update.run engine = .ok () engine' ∧
      PaysDue log event block round taken engine engine' ∧
      ∀ entry ∈ engine'.entries, isDue block round entry.1 = false) ∨
    ∃ taken error engine', update.run engine = .error error engine' ∧
      PaysDue log event block round taken engine engine' := by
  intro update
  simp only [update, updateInvoicePayments, EStateM.run_bind, EStateM.run_get]
  have hdue : ∀ schedule ∈ dueSchedules engine block round, isDue block round schedule = true :=
    fun schedule hmem => (List.mem_filter.mp hmem).2
  rcases run_forM_paySchedule_cases h hdue engine with
    ⟨taken, engine', hrun, hpays, hnone⟩ | ⟨taken, error, engine', hrun, hpays⟩
  · refine .inl ⟨taken, engine', hrun, hpays, fun entry hentry => ?_⟩
    by_contra hdue
    obtain ⟨group, hgroup, hmem⟩ := List.mem_flatMap.mp (hpays.subset hentry)
    obtain ⟨invoice, -, rfl⟩ := List.mem_map.mp hmem
    refine hnone _ hentry (List.mem_filter.mpr ⟨List.mem_map_of_mem hgroup, ?_⟩)
    simpa using hdue
  · exact .inr ⟨taken, error, engine', hrun, hpays⟩

end Sends

end CoinjoinEmulator
