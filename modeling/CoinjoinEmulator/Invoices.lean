import CoinjoinEmulator.Errors
import CoinjoinEmulator.ProofKit.Collect
import CoinjoinEmulator.ProofKit.Effect
import Mathlib.Data.List.Infix

/-! The invoices that fund the wallets, and the engine's loop that pays the due ones through its
distributor. -/

namespace CoinjoinEmulator

open ProofKit

/-- An address and the amount in satoshis that it is to get. -/
abbrev Invoice := String × Int

/-- What the engine does with its distributor: `send` a batch of invoices.  The result is the text
of what it returns. -/
abbrev Distributor (σ : Type) := List Invoice → EStateM PyError σ String

/-- The scheduled invoices by their delays in blocks and rounds, and the world of the
distributor. -/
@[ext] structure Funding (σ : Type) where
  world : σ
  invoices : Groups (Int × Int) Invoice
  nodup_keys : (invoices.map Prod.fst).Nodup

namespace Funding

variable {σ : Type}

/-- `self.invoices[schedule]`. -/
def addressedInvoices (engine : Funding σ) (schedule : Int × Int) : List Invoice :=
  engine.invoices.get schedule

/-- Every invoice that is scheduled. -/
def scheduled (engine : Funding σ) : List Invoice := engine.invoices.flatMap Prod.snd

/-- Every scheduled invoice with its delays. -/
def entries (engine : Funding σ) : List ((Int × Int) × Invoice) := engine.invoices.entries

/-- `del addressed_invoices[:count]` for the list of `schedule`. -/
def deletePaid (engine : Funding σ) (schedule : Int × Int) (count : Nat) : Funding σ where
  world := engine.world
  invoices := engine.invoices.put schedule ((engine.addressedInvoices schedule).drop count)
  nodup_keys := by simpa using engine.nodup_keys

/-- `del self.invoices[schedule]`. -/
def deleteSchedule (engine : Funding σ) (schedule : Int × Int) : Funding σ where
  world := engine.world
  invoices := engine.invoices.remove schedule
  nodup_keys := Groups.nodup_keys_remove engine.nodup_keys schedule

def setWorld (engine : Funding σ) (world : σ) : Funding σ :=
  ⟨world, engine.invoices, engine.nodup_keys⟩

def onWorld {α : Type} (program : EStateM PyError σ α) : EStateM PyError (Funding σ) α :=
  zoom world setWorld program

end Funding

/-- Small batches avoid races between their transactions. -/
def batchSize : Nat := 5

section Pay

variable {σ : Type} (distributor : Option (Distributor σ))

/-- `self.distributor.send(batch)`. -/
def sendBatch (batch : List Invoice) : EStateM PyError σ String :=
  match distributor with
  | none => throw (.runtimeError "Distributor is not initialized")
  | some send => send batch

/-- Send a batch with a number of tries left.  A batch that was sent leaves the list; the others
stay for a later update. -/
def payBatch (schedule : Int × Int) (batch : List Invoice) : Nat → EStateM PyError (Funding σ) Unit
  | 0 => throw (.exception "Invoice payment failed")
  | tries + 1 => do
    match ← observing (Funding.onWorld (sendBatch distributor batch)) with
    | .ok result =>
      if result = "timeout" then payBatch schedule batch tries
      else modify fun engine => engine.deletePaid schedule batch.length
    | .error _ => payBatch schedule batch tries

/-- The loop over the batches of a list.  Each batch leaves the list, so the length of the list
bounds the rounds. -/
def payInvoicesLoop (schedule : Int × Int) : Nat → EStateM PyError (Funding σ) Unit
  | 0 => pure ()
  | fuel + 1 => do
    let addressedInvoices := (← get).addressedInvoices schedule
    if addressedInvoices = [] then pure ()
    else do
      payBatch distributor schedule (addressedInvoices.take batchSize) 3
      payInvoicesLoop schedule fuel

def payInvoices (schedule : Int × Int) : EStateM PyError (Funding σ) Unit := do
  payInvoicesLoop distributor schedule ((← get).addressedInvoices schedule).length

/-- Whether the delays of a schedule have passed. -/
def isDue (currentBlock currentRound : Int) (schedule : Int × Int) : Bool :=
  schedule.1 ≤ currentBlock ∧ schedule.2 ≤ currentRound

/-- The schedules that are due, in the order of the dictionary. -/
def dueSchedules (engine : Funding σ) (currentBlock currentRound : Int) : List (Int × Int) :=
  (engine.invoices.map Prod.fst).filter (isDue currentBlock currentRound)

/-- Keep the invoices of a schedule until their payment succeeds. -/
def paySchedule (schedule : Int × Int) : EStateM PyError (Funding σ) Unit := do
  payInvoices distributor schedule
  modify fun engine => engine.deleteSchedule schedule

def updateInvoicePayments (currentBlock currentRound : Int) : EStateM PyError (Funding σ) Unit := do
  let due := dueSchedules (← get) currentBlock currentRound
  forM due (paySchedule distributor)

end Pay

/-! ### A distributor that always reports success -/

namespace Funding

variable {σ : Type}

theorem addressedInvoices_deletePaid (engine : Funding σ) (schedule : Int × Int) (count : Nat) :
    (engine.deletePaid schedule count).addressedInvoices schedule =
      (engine.addressedInvoices schedule).drop count := by
  by_cases h : schedule ∈ engine.invoices.map Prod.fst
  · exact Groups.get_put_self h _
  · have hnone : engine.addressedInvoices schedule = [] := Groups.get_of_not_mem h
    rw [hnone, List.drop_nil]
    exact Groups.get_of_not_mem (by simpa [deletePaid] using h)

end Funding

section Sure

variable {σ : Type} {send : Distributor σ}

/-- `send` neither raises nor reports a timeout, and sending two lists in turn is sending both. -/
structure AlwaysSends (send : Distributor σ) : Prop where
  sends : ∀ batch world, ∃ result, result ≠ "timeout" ∧
    (send batch).run world = .ok result (stateAfter (send batch) world)
  nil : ∀ world, stateAfter (send []) world = world
  append : ∀ batch rest world, stateAfter (send (batch ++ rest)) world =
    stateAfter (send rest) (stateAfter (send batch) world)

theorem run_payBatch (h : AlwaysSends send) (engine : Funding σ) (schedule : Int × Int)
    (batch : List Invoice) (tries : Nat) :
    (payBatch (some send) schedule batch (tries + 1)).run engine =
      .ok () ((engine.deletePaid schedule batch.length).setWorld
        (stateAfter (send batch) engine.world)) := by
  obtain ⟨result, hresult, hrun⟩ := h.sends batch engine.world
  have hworld : (Funding.onWorld (send batch)).run engine =
      .ok result (engine.setWorld (stateAfter (send batch) engine.world)) := by
    rw [Funding.onWorld, run_zoom, hrun]
  simp only [payBatch, sendBatch, EStateM.run_bind, run_observing, hworld, hresult, if_false,
    EStateM.run_modify]
  rfl

/-- The loop sends the whole list, batch after batch, and leaves the other lists as they are. -/
theorem run_payInvoicesLoop (h : AlwaysSends send) (schedule : Int × Int) {fuel : Nat}
    {engine : Funding σ} (hfuel : (engine.addressedInvoices schedule).length ≤ fuel) :
    ∃ engine', (payInvoicesLoop (some send) schedule fuel).run engine = .ok () engine' ∧
      engine'.world = stateAfter (send (engine.addressedInvoices schedule)) engine.world ∧
      engine'.deleteSchedule schedule =
        (engine.deleteSchedule schedule).setWorld engine'.world := by
  induction fuel generalizing engine with
  | zero =>
    have hnil := List.eq_nil_of_length_eq_zero (Nat.le_zero.mp hfuel)
    refine ⟨engine, rfl, ?_, rfl⟩
    rw [hnil, h.nil]
  | succ fuel ih =>
    simp only [payInvoicesLoop, EStateM.run_bind, EStateM.run_get, run_ite]
    by_cases hnil : engine.addressedInvoices schedule = []
    · refine ⟨engine, by rw [if_pos hnil]; rfl, ?_, rfl⟩
      rw [hnil, h.nil]
    · rw [if_neg hnil]
      simp only [run_payBatch h]
      set batch := (engine.addressedInvoices schedule).take batchSize with hbatch
      set engine1 := (engine.deletePaid schedule batch.length).setWorld
        (stateAfter (send batch) engine.world)
      have hlist : engine1.addressedInvoices schedule =
          (engine.addressedInvoices schedule).drop batchSize := by
        apply (engine.addressedInvoices_deletePaid schedule batch.length).trans
        rw [hbatch, List.length_take, List.drop_eq_drop_iff]
        omega
      have hpos := List.length_pos_iff.mpr hnil
      have hfuel1 : (engine1.addressedInvoices schedule).length ≤ fuel := by
        rw [hlist, List.length_drop, batchSize]
        omega
      obtain ⟨engine', hrun, hworld, hothers⟩ := ih hfuel1
      refine ⟨engine', hrun, ?_, ?_⟩
      · rw [hworld, hlist]
        show stateAfter _ (stateAfter (send batch) engine.world) = _
        rw [← h.append, List.take_append_drop]
      · rw [hothers]
        ext1
        · rfl
        · exact Groups.remove_put _ _ _

theorem run_paySchedule (h : AlwaysSends send) (engine : Funding σ) (schedule : Int × Int) :
    (paySchedule (some send) schedule).run engine =
      .ok () ((engine.deleteSchedule schedule).setWorld
        (stateAfter (send (engine.addressedInvoices schedule)) engine.world)) := by
  obtain ⟨engine', hrun, hworld, hothers⟩ :=
    run_payInvoicesLoop h schedule (le_refl (engine.addressedInvoices schedule).length)
  simp only [paySchedule, payInvoices, EStateM.run_bind, EStateM.run_get, hrun, EStateM.run_modify]
  rw [hothers, hworld]

theorem run_forM_paySchedule (h : AlwaysSends send) {due : List (Int × Int)} (hdue : due.Nodup)
    (engine : Funding σ) :
    ∃ engine', (forM due (paySchedule (some send))).run engine = .ok () engine' ∧
      engine'.world = stateAfter (send (due.flatMap engine.addressedInvoices)) engine.world ∧
      engine'.invoices = engine.invoices.filter fun group => group.1 ∉ due := by
  induction due generalizing engine with
  | nil => exact ⟨engine, rfl, (h.nil _).symm, by simp⟩
  | cons schedule rest ih =>
    obtain ⟨hnew, hrest⟩ := List.nodup_cons.mp hdue
    simp only [List.forM_cons, EStateM.run_bind, run_paySchedule h]
    obtain ⟨engine', hrun, hworld, hinvoices⟩ := ih hrest
      ((engine.deleteSchedule schedule).setWorld
        (stateAfter (send (engine.addressedInvoices schedule)) engine.world))
    refine ⟨engine', hrun, ?_, ?_⟩
    · rw [hworld, List.flatMap_cons, h.append]
      congr 2
      apply List.flatMap_congr
      intro schedule' hschedule'
      exact Groups.get_remove_ne _ fun heq => hnew (heq ▸ hschedule')
    · rw [hinvoices]
      show (engine.invoices.filter _).filter _ = _
      rw [List.filter_filter]
      apply List.filter_congr
      intro group _
      by_cases hschedule : group.1 = schedule <;> simp [hschedule]

/-- The invoices of the schedules that are due. -/
def dueInvoices (engine : Funding σ) (currentBlock currentRound : Int) : List Invoice :=
  (dueSchedules engine currentBlock currentRound).flatMap engine.addressedInvoices

/-- Through a distributor that always reports success, an update sends each due invoice once, in
order, and leaves none of them scheduled. -/
theorem run_updateInvoicePayments (h : AlwaysSends send) (engine : Funding σ)
    (currentBlock currentRound : Int) :
    ∃ engine', (updateInvoicePayments (some send) currentBlock currentRound).run engine =
        .ok () engine' ∧
      engine'.world =
        stateAfter (send (dueInvoices engine currentBlock currentRound)) engine.world ∧
      engine.scheduled.Perm (dueInvoices engine currentBlock currentRound ++ engine'.scheduled) := by
  have hdue : (dueSchedules engine currentBlock currentRound).Nodup := engine.nodup_keys.filter _
  obtain ⟨engine', hrun, hworld, hinvoices⟩ := run_forM_paySchedule h hdue engine
  refine ⟨engine', ?_, hworld, ?_⟩
  · simpa only [updateInvoicePayments, EStateM.run_bind, EStateM.run_get] using hrun
  · have hpaid := Groups.flatMap_get_filter engine.nodup_keys (isDue currentBlock currentRound)
    have hkept : engine'.invoices =
        engine.invoices.filter fun group => !isDue currentBlock currentRound group.1 := by
      rw [hinvoices]
      apply List.filter_congr
      intro group hgroup
      have hkey : group.1 ∈ engine.invoices.map Prod.fst := List.mem_map_of_mem hgroup
      simp only [dueSchedules, List.mem_filter, hkey, true_and]
      cases isDue currentBlock currentRound group.1 <;> rfl
    rw [dueInvoices, Funding.scheduled, Funding.scheduled, hkept]
    have hperm := (List.filter_append_perm (fun group : (Int × Int) × List Invoice =>
      isDue currentBlock currentRound group.1) engine.invoices).flatMap_right Prod.snd
    rw [List.flatMap_append, ← hpaid] at hperm
    exact hperm.symm

end Sure

end CoinjoinEmulator
