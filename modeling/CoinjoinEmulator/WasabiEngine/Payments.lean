import CoinjoinEmulator.WasabiEngine.Turns

/-! What a run of the Wasabi engine pays: each scheduled invoice at most once, when its delays have
passed.  A round that does not raise leaves none that is due. -/

namespace CoinjoinEmulator.WasabiEngine

open ProofKit Postmix

variable {σ : Type} {n : Nat}

/-- The invoices that a request pays, with the counts of its round. -/
def Request.payments : Request n → List (Invoice × Counts)
  | .pay invoices counts => invoices.map (·, counts)
  | .refresh _ => []
  | .start _ _ => []
  | .stop _ _ => []
  | .pause _ => []
  | .mine _ => []

/-- The payment is of the scheduled invoice, after both of its delays. -/
structure PaidInTime (entry : (Int × Int) × Invoice) (payment : Invoice × Counts) : Prop where
  invoice : payment.1 = entry.2
  due : isDue payment.2.block payment.2.round entry.1 = true

/-- The requests that were added to the log paid the entries `taken`, each once.  The others are
still scheduled. -/
structure Paid (added : List (Request n)) (taken : List ((Int × Int) × Invoice))
    (engine engine' : Engine σ n) : Prop where
  log : engine'.world.log = engine.world.log ++ added
  payments : List.Forall₂ PaidInTime taken (added.flatMap Request.payments)
  scheduled : engine.funding.entries.Perm (taken ++ engine'.funding.entries)

/-- A batch pays its invoices at the counts of its round. -/
theorem payments_pay (batches : List (List Invoice)) (counts : Counts) :
    (batches.flatMap fun batch => [(Request.pay batch counts : Request n)]).flatMap
      Request.payments = batches.flatten.map (·, counts) := by
  rw [List.flatMap_assoc, List.map_flatten, ← List.flatMap_def]
  apply List.flatMap_congr
  intro batch _
  exact List.flatMap_singleton Request.payments _

/-- Some entries were paid. -/
def Pays (engine engine' : Engine σ n) : Prop := ∃ added taken, Paid added taken engine engine'

theorem Paid.nothing {added : List (Request n)} {engine engine' : Engine σ n}
    (hlog : engine'.world.log = engine.world.log ++ added)
    (hadded : ∀ request ∈ added, request.payments = [])
    (hentries : engine'.funding.entries = engine.funding.entries) :
    Paid added [] engine engine' where
  log := hlog
  payments := by
    rw [List.flatMap_eq_nil_iff.mpr hadded]
    exact .nil
  scheduled := by rw [hentries, List.nil_append]

theorem Paid.trans {added added' : List (Request n)} {taken taken' : List ((Int × Int) × Invoice)}
    {engine engine' engine'' : Engine σ n} (h : Paid added taken engine engine')
    (h' : Paid added' taken' engine' engine'') :
    Paid (added ++ added') (taken ++ taken') engine engine'' where
  log := by rw [h'.log, h.log, List.append_assoc]
  payments := by
    rw [List.flatMap_append]
    exact List.rel_append h.payments h'.payments
  scheduled := by
    rw [List.append_assoc]
    exact h.scheduled.trans (h'.scheduled.append_left taken)

instance : Std.Refl (Pays (σ := σ) (n := n)) :=
  ⟨fun _ => ⟨[], [], .nothing (List.append_nil _).symm (by simp) rfl⟩⟩

instance : IsTrans (Engine σ n) Pays where
  trans _ _ _ h h' := by
    obtain ⟨added, taken, hpaid⟩ := h
    obtain ⟨added', taken', hpaid'⟩ := h'
    exact ⟨_, _, hpaid.trans hpaid'⟩

/-! ### What keeps the invoices -/

section Invoices

variable {clock : Clock σ} {parties : Parties σ n}

/-- What a call to a party leaves as it is. -/
def SameInvoices (engine engine' : Engine σ n) : Prop :=
  engine'.funding.invoices = engine.funding.invoices

instance : Std.Refl (SameInvoices (σ := σ) (n := n)) := ⟨fun _ => rfl⟩

instance : IsTrans (Engine σ n) SameInvoices := ⟨fun _ _ _ h h' => h'.trans h⟩

theorem sameInvoices_onWorld {α : Type} (program : EStateM PyError (EngineWorld σ n) α) :
    Keeps SameInvoices (Engine.onWorld program) :=
  Keeps.zoom (fun engine world => (rfl : (engine.setWorld world).funding.invoices = _)) program

theorem SameInvoices.entries {engine engine' : Engine σ n} (h : SameInvoices engine engine') :
    engine'.funding.entries = engine.funding.entries := congrArg Groups.entries h

theorem sameInvoices_refresh {failure : String} {count : EStateM PyError (Engine σ n) Int}
    (h : Keeps SameInvoices count) (attempts : Nat) :
    Keeps SameInvoices (refresh failure count attempts) := by
  induction attempts with
  | zero => exact .throw _
  | succ attempts ih =>
    refine h.observing.bind fun result => ?_
    cases result with
    | ok value => exact .pure value
    | error error => exact ih

theorem sameInvoices_refreshCounts (node : MiningNode σ) (initialBlock : Int) :
    Keeps SameInvoices (refreshCounts clock parties node initialBlock) :=
  (sameInvoices_refresh (sameInvoices_onWorld _) 3).bind fun _ =>
    (sameInvoices_refresh (sameInvoices_onWorld _) 3).bind fun _ => .pure _

theorem sameInvoices_updatePostmixSpends (node : MiningNode σ) (counts : Counts) :
    Keeps SameInvoices (updatePostmixSpends clock parties node counts) := by
  refine Keeps.get.bind fun engine => ?_
  cases engine.postmixSpends with
  | none => exact .pure ()
  | some spends => exact (sameInvoices_onWorld _).bind fun spends' => .modify fun _ => rfl

end Invoices

/-! ### Payments of a run -/

section Runs

variable {clock : Clock σ} {parties : Parties σ n} {threads : ThreadPool σ} {limits : Limits}

theorem logsBatches_distributor (clock : Clock σ) (parties : Parties σ n) (counts : Counts) :
    ∀ send ∈ distributor clock parties counts,
      LogsBatches Postmix.World.log (fun batch => [Request.pay batch counts]) send := by
  intro _ hsend
  obtain ⟨send, -, rfl⟩ := Option.map_eq_some_iff.mp hsend
  intro batch w
  simp only [stateAfter, Postmix.World.call, EStateM.run_bind, run_zoom, run_ite]
  cases hrun : (send batch).run w.inner with
  | error error inner => exact ⟨[], (List.append_nil _).symm, rfl⟩
  | ok result inner =>
    by_cases htimeout : result = "timeout"
    · simp only [htimeout, if_true]
      exact ⟨[], (List.append_nil _).symm, rfl⟩
    · simp only [htimeout, if_false]
      refine ⟨[.pay batch counts], rfl, ?_⟩
      show [Request.pay batch counts] = if result != "timeout" then _ else _
      rw [if_pos (bne_iff_ne.mpr htimeout)]

/-- An update of the invoices pays entries that are due. -/
theorem pays_updateInvoicePayments (counts : Counts) : Keeps Pays (Engine.onFunding
    (updateInvoicePayments (distributor clock parties counts) counts.block counts.round)) := by
  intro engine
  have hpays : ∀ taken funding, PaysDue Postmix.World.log (fun batch => [Request.pay batch counts])
      counts.block counts.round taken engine.funding funding →
      Pays engine { engine with funding } := by
    intro taken funding h
    obtain ⟨batches, hbatches, hlog⟩ := h.sent
    refine ⟨_, taken, hlog, ?_, h.scheduled⟩
    rw [payments_pay, hbatches, List.map_map, List.forall₂_map_right_iff, List.forall₂_same]
    exact fun entry hentry => ⟨rfl, h.due entry hentry⟩
  simp only [stateAfter, Engine.onFunding, run_zoom]
  rcases run_update_cases (logsBatches_distributor clock parties counts) counts.block counts.round
      engine.funding with ⟨taken, funding, hrun, h, -⟩ | ⟨taken, error, funding, hrun, h⟩
  · rw [hrun]
    exact hpays taken funding h
  · rw [hrun]
    exact hpays taken funding h

/-- What asks for no payment and keeps the invoices pays nothing. -/
theorem pays_of_asks {α : Type} {program : EStateM PyError (Engine σ n) α}
    (h : Keeps (EngineAsks (fun request => request.payments = []) AnyChange) program)
    (hsame : Keeps SameInvoices program) : Keeps Pays program := by
  intro engine
  obtain ⟨added, hlog, hadded⟩ := (h engine).log
  exact ⟨added, [], .nothing hlog hadded (hsame engine).entries⟩

theorem pays_mineSettlementBlocks (node : MiningNode σ) :
    Keeps Pays (Engine.onWorld (n := n) (mineSettlementBlocks clock node)) := by
  have hnote : Keeps (Asks (fun request : Request n => request.payments = []) (AnyChange (σ := σ)))
      (Postmix.World.note (.mine settlementBlocks)) := asks_note rfl
  refine pays_of_asks (asks_onWorld ?_) (sameInvoices_onWorld _)
  refine hnote.bind fun _ => (asks_call (keeps_anyChange _)).bind fun mined => ?_
  exact .ite _ (.pure ()) (.throw _)

/-- A round of the loop pays some entries. -/
theorem pays_updateAll {node : MiningNode σ} (hnode : parties.node = some node) (counts : Counts) :
    Keeps Pays (updateAll clock parties threads limits node counts) := by
  have hkeep := parties.keep_anyChange clock
  have hworld : ∀ {α : Type} {program : EStateM PyError (EngineWorld σ n) α},
      Keeps (Asks (fun request => request.payments = []) AnyChange) program →
        Keeps Pays (Engine.onWorld program) :=
    fun h => pays_of_asks (asks_onWorld h) (sameInvoices_onWorld _)
  have hpostmix : Keeps Pays (updatePostmixSpends clock parties node counts) :=
    pays_of_asks (asks_updatePostmixSpends hkeep hnode (fun _ => rfl) counts)
      (sameInvoices_updatePostmixSpends node counts)
  refine (hworld (asks_note rfl)).bind fun _ => (pays_updateInvoicePayments counts).bind fun _ =>
    hpostmix.bind fun _ => Keeps.bind ?_ fun _ => hworld ((asks_time hkeep.wait).sleep 1)
  have hcoinjoins : Emits (fun engine : Engine σ n => engine.world.log)
      (Engine.onWorld (updateCoinjoins clock parties threads limits counts))
      fun _ => MadeCalls parties limits [] counts :=
    (emits_updateCoinjoins counts).zoom fun _ _ => rfl
  intro engine
  obtain ⟨added, hlog, turn, -, hpaid, rfl, -⟩ := hcoinjoins engine
  refine ⟨_, [], .nothing hlog ?_ (sameInvoices_onWorld _ engine).entries⟩
  intro request hrequest
  have hcases : (∃ i ∈ turn.paused, .pause i = request) ∨
      (∃ i ∈ turn.started, .start i turn.counts = request) ∨
        ∃ i ∈ turn.stopped, .stop i turn.counts = request := by
    simpa only [Turn.asked, hpaid, List.map_nil, List.nil_append, List.mem_append, List.mem_map]
      using hrequest
  rcases hcases with ⟨i, -, rfl⟩ | ⟨i, -, rfl⟩ | ⟨i, -, rfl⟩ <;> rfl

theorem pays_runLoop {node : MiningNode σ} (hnode : parties.node = some node) (initialBlock : Int)
    (fuel : Nat) (counts : Counts) :
    Keeps Pays (runLoop clock parties threads limits node initialBlock fuel counts) := by
  have hmine : Keeps Pays (do
      Engine.onWorld (mineSettlementBlocks clock node)
      return true : EStateM PyError (Engine σ n) Bool) :=
    (pays_mineSettlementBlocks node).bind fun _ => .pure true
  induction fuel generalizing counts with
  | zero =>
    unfold runLoop
    exact .ite _ hmine (.pure false)
  | succ fuel ih =>
    unfold runLoop
    refine .ite _ hmine (Keeps.bind ?_ fun counts' => (pays_updateAll hnode counts').bind
      fun _ => ih counts')
    exact pays_of_asks (asks_refreshCounts (parties.keep_anyChange clock) hnode initialBlock)
      (sameInvoices_refreshCounts node initialBlock)

/-- Every run, however it ends, pays some of the entries. -/
theorem pays_runEngine (fuel : Nat) :
    Keeps Pays (runEngine clock parties threads limits fuel) := by
  unfold runEngine
  split
  · exact .throw _
  · rename_i node hnode
    have hcount : Keeps Pays
        (Engine.onWorld (n := n) (Postmix.World.call clock node.getBlockCount)) :=
      pays_of_asks (asks_onWorld (asks_call (keeps_anyChange _))) (sameInvoices_onWorld _)
    exact hcount.bind fun initialBlock => pays_runLoop hnode initialBlock fuel ⟨0, 0⟩

/-! ### What is due -/

/-- No invoice that is due at these counts is left to pay. -/
def NothingDue (counts : Counts) (engine : Engine σ n) : Prop :=
  ∀ entry ∈ engine.funding.entries, isDue counts.block counts.round entry.1 = false

theorem nothingDue_of_same {counts : Counts} {engine engine' : Engine σ n}
    (hsame : SameInvoices engine engine') (h : NothingDue counts engine) :
    NothingDue counts engine' := by
  intro entry hentry
  rw [hsame.entries] at hentry
  exact h entry hentry

/-- If nothing due is left, all that was due was paid. -/
theorem Paid.due_paid {added : List (Request n)} {taken : List ((Int × Int) × Invoice)}
    {engine engine' : Engine σ n} (h : Paid added taken engine engine') {counts : Counts}
    (hdue : NothingDue counts engine') :
    (engine.funding.entries.filter fun entry => isDue counts.block counts.round entry.1).Perm
      (taken.filter fun entry => isDue counts.block counts.round entry.1) := by
  have hnone : (engine'.funding.entries.filter fun entry =>
      isDue counts.block counts.round entry.1) = [] := by
    rw [List.filter_eq_nil_iff]
    intro entry hentry
    simp [hdue entry hentry]
  have hperm := h.scheduled.filter fun entry => isDue counts.block counts.round entry.1
  rwa [List.filter_append, hnone, List.append_nil] at hperm

/-- A round that does not raise leaves nothing due. -/
theorem nothingDue_updateAll {node : MiningNode σ} {counts : Counts} {engine engine' : Engine σ n}
    (h : (updateAll clock parties threads limits node counts).run engine = .ok () engine') :
    NothingDue counts engine' := by
  obtain ⟨_, engine₁, -, hrest⟩ := of_run_bind_eq_ok h
  obtain ⟨_, engine₂, hfunding, hothers⟩ := of_run_bind_eq_ok hrest
  have hpaid : NothingDue counts engine₂ := by
    simp only [Engine.onFunding, run_zoom] at hfunding
    rcases run_update_cases (logsBatches_distributor clock parties counts) counts.block counts.round
        engine₁.funding with ⟨taken, funding, hrun, -, hnone⟩ | ⟨taken, error, funding, hrun, -⟩
    · rw [hrun] at hfunding
      cases hfunding
      exact hnone
    · rw [hrun] at hfunding
      cases hfunding
  have hkeep : Keeps SameInvoices (do
      updatePostmixSpends clock parties node counts
      Engine.onWorld (updateCoinjoins clock parties threads limits counts)
      Engine.onWorld (Postmix.World.sleep 1)) :=
    (sameInvoices_updatePostmixSpends node counts).bind fun _ =>
      (sameInvoices_onWorld _).bind fun _ => sameInvoices_onWorld _
  have hsame := hkeep engine₂
  rw [stateAfter_of_ok hothers] at hsame
  exact nothingDue_of_same hsame hpaid

end Runs

end CoinjoinEmulator.WasabiEngine
