import CoinjoinEmulator.JoinMarket.Engine
import CoinjoinEmulator.RoundEvents.Blocks

/-! Runs of the JoinMarket engine over an append-only chain: attempts are recorded, blocks are
mined, scans complete or abort, and attempts time out, in any order. -/

namespace CoinjoinEmulator

open ProofKit RoundEventRecord ExportedTransactionRecord JoinMarketClientServer JoinmarketEngine

/-- The node answers from `chain`, or raises: the block count may be an earlier one, and a hash
leads to the block of its height. -/
structure BlockSource.Serves (node : BlockSource) (chain : List ExportedBlock) : Prop where
  count_lt : ∀ tip, node.getBlockCount = .ok tip → tip < chain.length
  block_eq : ∀ (h : Int) block, node.block h = .ok (h, block) →
    ∃ i : Nat, h = i ∧ chain[i]? = some block

/-- The engine and the chain.  `recordedAt i j` is a history variable: the length of the chain when
the client `i` recorded its event `j`. -/
structure World where
  engine : JoinmarketEngine
  chain : List ExportedBlock
  recordedAt : Nat → Nat → Nat

/-- No client has recorded an attempt and no block has been scanned. -/
structure World.Initial (w : World) : Prop where
  roundEvents_eq : ∀ client ∈ w.engine.clients, client.roundEvents = []
  roundScanHeight_eq : w.engine.roundScanHeight = -1
  currentRound_eq : w.engine.currentRound = 0

inductive LiveStep : World → World → Prop
  | recordStart {w : World} (i : Nat) (client : JoinMarketClientServer)
      (destination amountSats counterparties mixdepth chainHeight : Value) (currentBlock : Int) :
      w.engine.clients[i]? = some client →
      LiveStep w { w with
        engine := w.engine.modifyClient i fun client => client.recordRoundStart destination
          amountSats counterparties mixdepth currentBlock chainHeight
        recordedAt := fun i' j =>
          if i' = i ∧ j = client.roundEvents.length then w.chain.length else w.recordedAt i' j }
  | startOutcome {w : World} (i ref : Nat) (acknowledged : Bool) :
      LiveStep w { w with
        engine := w.engine.modifyClient i (·.recordRoundStartOutcome ref acknowledged) }
  | mineBlock {w : World} (block : ExportedBlock) :
      LiveStep w { w with chain := w.chain ++ [block] }
  | scan {w : World} (node : BlockSource) : node.Serves w.chain →
      LiveStep w { w with engine := stateAfter (confirmStartedRounds (some node)) w.engine }
  | timeout {w : World} (takerName reason : String) (currentBlock : Int) :
      LiveStep w { w with
        engine := stateAfter (markTakerRoundFailed takerName reason currentBlock) w.engine }
  | readConfirmed {w : World} :
      LiveStep w { w with engine := stateAfter (onLiveEvents confirmedCoinjoinTxids) w.engine }

def liveSystem : System World := ⟨World.Initial, LiveStep⟩

/-! ### What a step does to the events -/

/-- The payments that a walk found are in blocks of the chain. -/
def PaidOn (chain : List ExportedBlock) (paid : List Payment) : Prop :=
  ∀ p ∈ paid, p.txid ≠ "" ∧
    ∃ i : Nat, p.blockHeight = i ∧ ∃ block, chain[i]? = some block ∧ PaysIn block p.txid p.address

/-- What one step may do to an event that is already recorded. -/
inductive EventChange (events : List RoundEvent) (chain : List ExportedBlock) (event : RoundEvent) :
    RoundEvent → Prop
  | unchanged : EventChange events chain event event
  | outcome (acknowledged : Bool) :
      EventChange events chain event (roundStartOutcome acknowledged event)
  | scanned (paid : List Payment) : PaidOn chain paid →
      EventChange events chain event (scanEvent events paid event)
  | timedOut (takerName reason : String) (stopBlock : Int) : isPendingOf takerName event = true →
      EventChange events chain event (markRoundFailed reason stopBlock event)
  | read : EventChange events chain event (persistDestinationMatches event)

/-- The event of a new attempt. -/
def IsNewEvent (event : RoundEvent) : Prop :=
  status event = some EventStatus.started.text ∧ destinationMatches event = []

/-- The clients of a world after a step. -/
def ClientsChange (w w' : World) : Prop :=
  w.engine.clients.Forall₂
    (OnlyEvents (Grows (EventChange w.engine.liveRoundEvents w.chain) IsNewEvent))
    w'.engine.clients

theorem paidOn_walkBlocks {node : BlockSource} {chain : List ExportedBlock}
    (hserves : node.Serves chain) (scannedHeight tip : Int) :
    PaidOn chain (walkBlocks (blocksAbove node scannedHeight tip)).1 := by
  intro p hp
  refine ⟨txid_ne_of_mem_walkBlocks hp, ?_⟩
  obtain ⟨block, hmem, hpays⟩ := mem_walkBlocks hp
  obtain ⟨h, -, hblock⟩ := List.mem_map.mp hmem
  have hheight := BlockSource.height_of_block hblock
  obtain ⟨i, hi, hchain⟩ := hserves.block_eq _ _ (hheight ▸ hblock)
  exact ⟨i, hheight.trans hi, block, hchain, hpays⟩

/-- A step that records no attempt changes the recorded events one by one. -/
theorem LiveStep.events_cases {w w' : World} (h : LiveStep w w') :
    (w'.recordedAt = w.recordedAt ∧ w.engine.clients.Forall₂
      (OnlyEvents (List.Forall₂ (EventChange w.engine.liveRoundEvents w.chain)))
      w'.engine.clients) ∨
    ∃ i client event, w.engine.clients[i]? = some client ∧ IsNewEvent event ∧
      w'.engine.clients = w.engine.clients.modify i (fun client =>
        { client with roundEvents := client.roundEvents ++ [event] }) ∧
      w'.chain = w.chain ∧ w'.engine.roundScanHeight = w.engine.roundScanHeight ∧
      w'.recordedAt = fun i' j => if i' = i ∧ j = client.roundEvents.length then w.chain.length
        else w.recordedAt i' j := by
  cases h with
  | recordStart i client destination amountSats counterparties mixdepth chainHeight currentBlock hi =>
    refine .inr ⟨i, client, client.roundStartEvent destination amountSats counterparties mixdepth
      currentBlock chainHeight, hi, ⟨by simp, by simp⟩, ?_, rfl, rfl, rfl⟩
    apply List.ext_getElem?
    intro k
    simp only [modifyClient, List.getElem?_modify]
    by_cases hk : i = k
    · subst hk
      simp [hi, recordRoundStart]
    · simp [hk]
  | startOutcome i ref acknowledged =>
    have hclient : ∀ client : JoinMarketClientServer, OnlyEvents
        (List.Forall₂ (EventChange w.engine.liveRoundEvents w.chain)) client client := fun client =>
      ⟨client.roundEvents, rfl, List.forall₂_same.mpr fun event _ => .unchanged⟩
    refine .inl ⟨rfl, forall₂_modify (fun client _ => hclient client) fun client _ => ⟨_, rfl, ?_⟩⟩
    exact forall₂_modify (fun event _ => .unchanged) fun event _ => .outcome acknowledged
  | mineBlock block => exact .inl ⟨rfl, forall₂_onlyEvents_refl (fun _ => .unchanged) _⟩
  | scan node hserves =>
    refine .inl ⟨rfl, onlyEvents_scan w.engine (some node) (fun _ => .unchanged) ?_⟩
    intro source tip hnode event
    obtain rfl := Option.some.inj hnode
    exact .scanned _ (paidOn_walkBlocks hserves w.engine.roundScanHeight tip)
  | timeout takerName reason currentBlock =>
    exact .inl ⟨rfl, onlyEvents_mark w.engine takerName reason currentBlock (fun _ => .unchanged)
      fun event hpending => .timedOut takerName reason currentBlock hpending⟩
  | readConfirmed => exact .inl ⟨rfl, onlyEvents_read w.engine fun _ => .read⟩

/-- A step changes the recorded events one by one and adds new ones at the end of a
client's list. -/
theorem LiveStep.clientsChange {w w' : World} (h : LiveStep w w') : ClientsChange w w' := by
  rcases h.events_cases with ⟨-, hevents⟩ | ⟨i, client, event, -, hnew, hclients, -⟩
  · exact hevents.imp fun _ _ ⟨events', heq, hR⟩ => ⟨events', heq, .of_forall₂ hR⟩
  · rw [ClientsChange, hclients]
    refine forall₂_modify (fun client _ => ?_) fun client _ => ⟨_, rfl, ?_⟩
    · exact ⟨client.roundEvents, rfl, .of_forall₂ (List.forall₂_same.mpr fun event _ => .unchanged)⟩
    · exact .append_singleton (fun event _ => .unchanged) hnew

/-! ### What a step leaves of an event -/

section EventChange

variable {events : List RoundEvent} {chain : List ExportedBlock} {event event' : RoundEvent}

theorem scanEvent_of_not_started (hstarted : hasStatus .started event = false)
    (paid : List Payment) : scanEvent events paid event = event := by
  simp [scanEvent, hstarted]

theorem EventChange.destinationAddress_eq (h : EventChange events chain event event') :
    destinationAddress event' = destinationAddress event := by
  cases h with
  | unchanged => rfl
  | outcome acknowledged => exact destinationAddress_congr (get_roundStartOutcome _ (by decide) _)
  | scanned paid hpaid =>
    unfold scanEvent
    split <;> simp
  | timedOut takerName reason stopBlock => simp
  | read => simp

/-- Only pending events get another status or other matches. -/
theorem EventChange.settled (h : EventChange events chain event event')
    (hstarted : hasStatus .started event = false) :
    status event' = status event ∧ destinationMatches event' = destinationMatches event := by
  cases h with
  | unchanged => exact ⟨rfl, rfl⟩
  | outcome acknowledged =>
    exact ⟨status_congr (get_roundStartOutcome _ (by decide) _),
      destinationMatches_congr (get_roundStartOutcome _ (by decide) _)⟩
  | scanned paid hpaid =>
    rw [scanEvent_of_not_started hstarted]
    exact ⟨rfl, rfl⟩
  | timedOut takerName reason stopBlock hpending =>
    simp only [isPendingOf, hstarted, Bool.false_and, Bool.false_eq_true] at hpending
  | read => exact ⟨status_persistDestinationMatches event,
      destinationMatches_persistDestinationMatches event⟩

/-- A pending event stays as it is, times out, or is reconciled with payments on the chain. -/
theorem EventChange.pending (h : EventChange events chain event event')
    (hstarted : hasStatus .started event = true) :
    (status event' = status event ∧ destinationMatches event' = destinationMatches event) ∨
    (status event' = some EventStatus.failed.text ∧
      destinationMatches event' = destinationMatches event) ∨
    ∃ paid, PaidOn chain paid ∧ event' =
      reconcileEvent (sharesDestination (events.filter (hasStatus .started)) event) paid event := by
  cases h with
  | unchanged => exact .inl ⟨rfl, rfl⟩
  | outcome acknowledged =>
    exact .inl ⟨status_congr (get_roundStartOutcome _ (by decide) _),
      destinationMatches_congr (get_roundStartOutcome _ (by decide) _)⟩
  | scanned paid hpaid =>
    refine .inr (.inr ⟨paid, hpaid, ?_⟩)
    simp [scanEvent, hstarted]
  | timedOut takerName reason stopBlock hpending => exact .inr (.inl ⟨by simp, by simp⟩)
  | read => exact .inl ⟨status_persistDestinationMatches event,
      destinationMatches_persistDestinationMatches event⟩

theorem EventChange.confirmed (h : EventChange events chain event event')
    (hconfirmed : hasStatus .confirmed event = true) : hasStatus .confirmed event' = true := by
  have hstarted : hasStatus .started event = false := by
    rw [hasStatus_iff] at hconfirmed
    simp [hasStatus, hconfirmed]
  rw [hasStatus_iff, (h.settled hstarted).1, ← hasStatus_iff]
  exact hconfirmed

end EventChange

/-! ### What every reachable event satisfies -/

/-- The status of a live event agrees with its matches, which are payments of the chain. -/
structure EventInv (chain : List ExportedBlock) (event : RoundEvent) : Prop where
  nodup : (destinationMatches event).Nodup
  paid : ∀ found ∈ destinationMatches event, found ∈ paymentsOf chain event
  status_cases :
    (status event = some EventStatus.started.text ∨ status event = some EventStatus.failed.text) ∧
      destinationMatches event = [] ∨
    status event = some EventStatus.confirmed.text ∧ (destinationMatches event).length = 1 ∨
    status event = some EventStatus.multipleMatches.text ∧
      2 ≤ (destinationMatches event).length ∨
    status event = some EventStatus.duplicateDestination.text

theorem mem_paymentsOf_of_matchesTo {chain : List ExportedBlock} (hchain : WellFormedChain chain)
    {paid : List Payment} (hpaid : PaidOn chain paid) {event : RoundEvent}
    {found : DestinationMatch}
    (h : found ∈ matchesTo (destinationAddress event) paid) :
    found ∈ paymentsOf chain event := by
  obtain ⟨a, ha, hmem⟩ := mem_matchesTo.mp h
  obtain ⟨-, i, hi, block, hblock, hpays⟩ := hpaid _ hmem
  refine ⟨a, ha, block, List.mem_of_getElem? hblock, ?_, hpays⟩
  rw [(hchain i block hblock).height_eq]
  exact congrArg some hi.symm

theorem EventInv.of_new {chain : List ExportedBlock} {event : RoundEvent} (h : IsNewEvent event) :
    EventInv chain event where
  nodup := h.2 ▸ List.nodup_nil
  paid := by simp [h.2]
  status_cases := .inl ⟨.inl h.1, h.2⟩

/-- The invariant depends on status, matches and destination only, and the chain may grow. -/
theorem EventInv.congr {chain chain' : List ExportedBlock} {event event' : RoundEvent}
    (h : EventInv chain event) (hchain : chain ⊆ chain') (hstatus : status event' = status event)
    (hmatches : destinationMatches event' = destinationMatches event)
    (hdest : destinationAddress event' = destinationAddress event) : EventInv chain' event' where
  nodup := hmatches ▸ h.nodup
  paid := by
    rw [hmatches, paymentsOf_congr hdest]
    exact fun found hfound => paymentsOf_mono hchain event (h.paid found hfound)
  status_cases := by
    rw [hstatus, hmatches]
    exact h.status_cases

/-- A pending event has no match yet. -/
theorem EventInv.unmatched {chain : List ExportedBlock} {event : RoundEvent}
    (h : EventInv chain event) (hstarted : status event = some EventStatus.started.text) :
    destinationMatches event = [] := by
  rcases h.status_cases with h | h | h | h
  · exact h.2
  all_goals
    rw [hstarted] at h
    simp at h

/-- A confirmation has one match. -/
theorem EventInv.length_of_confirmed {chain : List ExportedBlock} {event : RoundEvent}
    (h : EventInv chain event) (hconfirmed : status event = some EventStatus.confirmed.text) :
    (destinationMatches event).length = 1 := by
  rcases h.status_cases with h | ⟨-, h⟩ | h | h
  · rw [hconfirmed] at h
    simp at h
  · exact h
  all_goals
    rw [hconfirmed] at h
    simp at h

/-- Reconciling an unmatched event leaves the matches, and the status that they lead to. -/
theorem EventInv.reconcile {chain : List ExportedBlock} (hchain : WellFormedChain chain)
    {paid : List Payment} (hpaid : PaidOn chain paid) {event : RoundEvent}
    (hstarted : status event = some EventStatus.started.text)
    (hunmatched : destinationMatches event = []) (shared : Bool) :
    EventInv chain (reconcileEvent shared paid event) := by
  have htxids : ∀ p ∈ paid, p.txid ≠ "" := fun p hp => (hpaid p hp).1
  have hmatches := destinationMatches_reconcileEvent shared htxids event
  rw [hunmatched] at hmatches
  have hstatus := status_reconcileEvent shared htxids event
  refine ⟨?_, ?_, ?_⟩
  · rw [hmatches]
    exact nodup_foldl_insertNew _ List.nodup_nil
  · intro found hfound
    rw [hmatches, mem_foldl_insertNew] at hfound
    rw [paymentsOf_congr (destinationAddress_reconcileEvent shared paid event)]
    rcases hfound with hfound | hfound
    · simp at hfound
    · exact mem_paymentsOf_of_matchesTo hchain hpaid hfound
  · cases shared with
    | true => exact .inr (.inr (.inr (by simpa using hstatus)))
    | false =>
      simp only [Bool.false_eq_true, if_false] at hstatus
      split at hstatus
      · rename_i hnone
        rw [hnone, List.foldl_nil] at hmatches
        exact .inl ⟨.inl (hstatus.trans hstarted), hmatches⟩
      · rename_i hsome
        have hnotDup : status event ≠ some EventStatus.duplicateDestination.text := by
          rw [hstarted]
          decide
        rw [if_neg hnotDup] at hstatus
        have hpos : destinationMatches (reconcileEvent false paid event) ≠ [] := by
          obtain ⟨found, hfound⟩ := List.exists_mem_of_ne_nil _ hsome
          rw [hmatches]
          exact List.ne_nil_of_mem ((mem_foldl_insertNew _ _ _).mpr (.inr hfound))
        have hlength := List.length_pos_iff.mpr hpos
        unfold countedStatus at hstatus
        split at hstatus
        · rename_i hone
          exact .inr (.inl ⟨hstatus, hone⟩)
        · exact .inr (.inr (.inl ⟨hstatus, by omega⟩))

theorem EventInv.change {events : List RoundEvent} {chain : List ExportedBlock}
    {event event' : RoundEvent} (hinv : EventInv chain event)
    (h : EventChange events chain event event') (hchain : WellFormedChain chain) :
    EventInv chain event' := by
  have hdest := h.destinationAddress_eq
  cases hstarted : hasStatus .started event with
  | false =>
    obtain ⟨hstatus, hmatches⟩ := h.settled hstarted
    exact hinv.congr (List.Subset.refl _) hstatus hmatches hdest
  | true =>
    rw [hasStatus_iff] at hstarted
    have hunmatched := hinv.unmatched hstarted
    rcases h.pending (hasStatus_iff.mpr hstarted) with
      ⟨hstatus, hmatches⟩ | ⟨hstatus, hmatches⟩ | ⟨paid, hpaid, rfl⟩
    · exact hinv.congr (List.Subset.refl _) hstatus hmatches hdest
    · rw [hunmatched] at hmatches
      exact ⟨by simp [hmatches], by simp [hmatches], .inl ⟨.inr hstatus, hmatches⟩⟩
    · exact .reconcile hchain hpaid hstarted hunmatched _

/-! ### Runs -/

theorem LiveStep.chain_prefix {w w' : World} (h : LiveStep w w') : w.chain <+: w'.chain := by
  cases h with
  | mineBlock block => exact List.prefix_append _ _
  | _ => exact List.prefix_refl _

theorem mem_liveRoundEvents {engine : JoinmarketEngine} {event : RoundEvent} :
    event ∈ engine.liveRoundEvents ↔ ∃ client ∈ engine.clients, event ∈ client.roundEvents := by
  simp [liveRoundEvents, roundEventGroups]

theorem ClientsChange.mem_right {w w' : World} (h : ClientsChange w w') {event' : RoundEvent}
    (hevent' : event' ∈ w'.engine.liveRoundEvents) :
    (∃ event ∈ w.engine.liveRoundEvents,
      EventChange w.engine.liveRoundEvents w.chain event event') ∨ IsNewEvent event' := by
  obtain ⟨client', hclient', hmem⟩ := mem_liveRoundEvents.mp hevent'
  obtain ⟨i, hi⟩ := List.mem_iff_getElem?.mp hclient'
  obtain ⟨client, hclient, roundEvents', rfl, hgrows⟩ := forall₂_getElem?_right h hi
  rcases hgrows.mem_right hmem with ⟨event, hevent, hchange⟩ | hnew
  · exact .inl ⟨event, mem_liveRoundEvents.mpr ⟨client, List.mem_of_getElem? hclient, hevent⟩, hchange⟩
  · exact .inr hnew

theorem countP_flatten_le {R : RoundEvent → RoundEvent → Prop} {New : RoundEvent → Prop}
    {clients clients' : List JoinMarketClientServer}
    (h : clients.Forall₂ (OnlyEvents (Grows R New)) clients') {p : RoundEvent → Bool}
    (hp : ∀ event event', R event event' → p event = true → p event' = true) :
    (clients.map roundEvents).flatten.countP p ≤ (clients'.map roundEvents).flatten.countP p := by
  induction h with
  | nil => exact Nat.le_refl _
  | cons hclient _ ih =>
    obtain ⟨roundEvents', rfl, hgrows⟩ := hclient
    have hle := hgrows.countP_le hp
    simp only [List.map_cons, List.flatten_cons, List.countP_append]
    omega

/-- A property that no change of an event takes away holds of no fewer events after a step. -/
theorem ClientsChange.countP_le {w w' : World} (h : ClientsChange w w') {p : RoundEvent → Bool}
    (hp : ∀ event event', EventChange w.engine.liveRoundEvents w.chain event event' →
      p event = true → p event' = true) :
    w.engine.liveRoundEvents.countP p ≤ w'.engine.liveRoundEvents.countP p :=
  countP_flatten_le h hp

theorem eventInv_of_reachable {w : World} (h : liveSystem.Reachable w)
    (hchain : WellFormedChain w.chain) : ∀ event ∈ w.engine.liveRoundEvents, EventInv w.chain event := by
  revert hchain
  refine System.Reachable.invariant (I := fun w => WellFormedChain w.chain →
    ∀ event ∈ w.engine.liveRoundEvents, EventInv w.chain event) ?_ ?_ h
  · intro w hinit _ event hevent
    obtain ⟨client, hclient, hmem⟩ := mem_liveRoundEvents.mp hevent
    rw [hinit.roundEvents_eq client hclient] at hmem
    simp at hmem
  · intro w w' _ ih hstep hchain' event' hevent'
    have hprefix := hstep.chain_prefix
    have hchain := hchain'.of_prefix hprefix
    rcases hstep.clientsChange.mem_right hevent' with ⟨event, hevent, hchange⟩ | hnew
    · have hinv := (ih hchain event hevent).change hchange hchain
      exact hinv.congr hprefix.subset rfl rfl rfl
    · exact .of_new hnew

/-! ### The round counter -/

theorem LiveStep.currentRound_cases {w w' : World} (h : LiveStep w w') :
    w'.engine.currentRound = w.engine.currentRound ∨
      w'.engine.currentRound = countConfirmedRounds w'.engine.liveRoundEvents := by
  cases h with
  | scan node hserves =>
    have houtcome := run_confirmStartedRounds node w.engine
    simp only [stateAfter]
    generalize (confirmStartedRounds (some node)).run w.engine = result at houtcome ⊢
    cases houtcome with
    | noCount error hcount => exact .inl rfl
    | aborted tip paid error hcount hwalk => exact .inl rfl
    | completed tip paid engine' hcount hwalk hclients hheight hround => exact .inr hround
  | timeout takerName reason currentBlock =>
    obtain ⟨marked, events', hrun, -⟩ :=
      run_markLatestStartedRoundFailed takerName reason currentBlock w.engine.liveRoundEvents
    simp only [stateAfter, markTakerRoundFailed, run_onLiveEvents_ok hrun]
    exact .inl rfl
  | readConfirmed =>
    have hrun := run_confirmedCoinjoinTxids w.engine.liveRoundEvents
    simp only [stateAfter, run_onLiveEvents_ok hrun]
    exact .inl rfl
  | _ => exact .inl rfl

theorem LiveStep.countConfirmedRounds_le {w w' : World} (h : LiveStep w w') :
    countConfirmedRounds w.engine.liveRoundEvents ≤
      countConfirmedRounds w'.engine.liveRoundEvents :=
  h.clientsChange.countP_le fun _ _ hchange => hchange.confirmed

theorem currentRound_le_of_reachable {w : World} (h : liveSystem.Reachable w) :
    w.engine.currentRound ≤ countConfirmedRounds w.engine.liveRoundEvents := by
  refine System.Reachable.invariant (I := fun w =>
    w.engine.currentRound ≤ countConfirmedRounds w.engine.liveRoundEvents) ?_ ?_ h
  · intro w hinit
    rw [hinit.currentRound_eq]
    exact Nat.zero_le _
  · intro w w' _ ih hstep
    have hcount := hstep.countConfirmedRounds_le
    rcases hstep.currentRound_cases with hround | hround <;> omega

theorem currentRound_le_of_run {w w' : World} (h : liveSystem.Reachable w)
    (hrun : liveSystem.Run w w') : w.engine.currentRound ≤ w'.engine.currentRound := by
  refine System.Reachable.mono_run (f := fun w : World => w.engine.currentRound) ?_ h hrun
  intro w w' hreach hstep
  have hle := currentRound_le_of_reachable hreach
  have hcount := hstep.countConfirmedRounds_le
  rcases hstep.currentRound_cases with hround | hround <;> omega

/-! ### Shared destinations -/

/-- `sharesDestination` asks for the number of events with one destination. -/
theorem sharesDestination_eq_true {events : List RoundEvent} {event : RoundEvent} :
    sharesDestination events event = true ↔ ∃ a, destinationAddress event = some a ∧
      1 < events.countP (fun other => destinationAddress other = some a) := by
  unfold sharesDestination
  cases h : destinationAddress event <;> simp

/-- Another event than the `i`-th one has the destination of `event`. -/
def SharedByAnother (events : List RoundEvent) (i : Nat) (event : RoundEvent) : Prop :=
  ∃ j other, j ≠ i ∧ events[j]? = some other ∧
    destinationAddress other = destinationAddress event ∧ destinationAddress event ≠ none

theorem sharesDestination_iff {events : List RoundEvent} {i : Nat} {event : RoundEvent}
    (hi : events[i]? = some event) :
    sharesDestination events event = true ↔ SharedByAnother events i event := by
  rw [sharesDestination_eq_true]
  constructor
  · rintro ⟨a, ha, hlong⟩
    obtain ⟨j, other, hji, hj, hother⟩ := (one_lt_countP_iff hi (by simpa using ha)).mp hlong
    exact ⟨j, other, hji, hj, by simpa [ha] using hother, by simp [ha]⟩
  · rintro ⟨j, other, hji, hj, hother, hsome⟩
    obtain ⟨a, ha⟩ := Option.ne_none_iff_exists'.mp hsome
    refine ⟨a, ha, (one_lt_countP_iff hi (by simpa using ha)).mpr ⟨j, other, hji, hj, ?_⟩⟩
    simpa [ha] using hother

/-- An event that a scan found to share its destination still shares it. -/
theorem sharesDestination_of_reachable {w : World} (h : liveSystem.Reachable w) :
    ∀ event ∈ w.engine.liveRoundEvents,
      status event = some EventStatus.duplicateDestination.text →
      sharesDestination w.engine.liveRoundEvents event = true := by
  refine System.Reachable.invariant (I := fun w => ∀ event ∈ w.engine.liveRoundEvents,
    status event = some EventStatus.duplicateDestination.text →
      sharesDestination w.engine.liveRoundEvents event = true) ?_ ?_ h
  · intro w hinit event hevent
    obtain ⟨client, hclient, hmem⟩ := mem_liveRoundEvents.mp hevent
    rw [hinit.roundEvents_eq client hclient] at hmem
    simp at hmem
  · intro w w' _ ih hstep event' hevent' hdup
    rcases hstep.clientsChange.mem_right hevent' with ⟨event, hevent, hchange⟩ | hnew
    · -- the event was shared before the step, and destinations stay
      have hshared : sharesDestination w.engine.liveRoundEvents event = true := by
        cases hstarted : hasStatus .started event with
        | false =>
          rw [(hchange.settled hstarted).1] at hdup
          exact ih event hevent hdup
        | true =>
          have hne : status event ≠ some EventStatus.duplicateDestination.text := by
            rw [hasStatus_iff.mp hstarted]
            decide
          rcases hchange.pending hstarted with ⟨hstatus, -⟩ | ⟨hstatus, -⟩ | ⟨paid, hpaid, rfl⟩
          · exact absurd (hstatus ▸ hdup) hne
          · rw [hstatus] at hdup
            simp at hdup
          · have hpending := shared_of_status_reconcileEvent (fun p hp => (hpaid p hp).1) hne hdup
            obtain ⟨a, ha, hlong⟩ := sharesDestination_eq_true.mp hpending
            exact sharesDestination_eq_true.mpr
              ⟨a, ha, Nat.lt_of_lt_of_le hlong List.filter_sublist.countP_le⟩
      obtain ⟨a, ha, hlong⟩ := sharesDestination_eq_true.mp hshared
      refine sharesDestination_eq_true.mpr ⟨a, hchange.destinationAddress_eq.trans ha,
        Nat.lt_of_lt_of_le hlong (hstep.clientsChange.countP_le fun other other' hother hdest => ?_)⟩
      simpa [hother.destinationAddress_eq] using hdest
    · rw [hnew.1] at hdup
      simp at hdup

/-! ### A run in which the chain pays a destination again after its round was confirmed -/

def exampleTaker : JoinMarketClientServer where
  name := "jcs-000"
  type := .taker
  delay := (0, 0)
  stop := (0, 0)
  offers := []
  timeBetweenRounds := 0
  coinjoinTimeoutBlocks := defaultCoinjoinTimeoutBlocks
  coinjoinTimeoutBlocks_pos := defaultCoinjoinTimeoutBlocks_pos
  maxCoinjoins := 0

/-- A node with the two blocks `minedBlock 0 []` and `minedBlock 1 [("txA", "destination")]`. -/
def exampleNode : BlockSource where
  getBlockCount := .ok 1
  getBlockHash h :=
    if h = 0 then .ok "hash0" else if h = 1 then .ok "hash1"
    else .error (.rpcError "Block height out of range")
  getBlockInfo hash :=
    if hash = "hash0" then .ok (minedBlock 0 [])
    else if hash = "hash1" then .ok (minedBlock 1 [("txA", "destination")])
    else .error (.rpcError "Block not found")

/-- An attempt was recorded and then its destination was paid in the block 1. -/
def paidOnce : World where
  engine := (JoinmarketEngine.mk [exampleTaker] (-1) 0).modifyClient 0 fun client =>
    client.recordRoundStart (.str "destination") .none .none .none 0 .none
  chain := [minedBlock 0 [], minedBlock 1 [("txA", "destination")]]
  recordedAt := fun i j => if i = 0 ∧ j = 0 then 0 else 0

/-- A scan confirmed the attempt, and then its destination was paid again in the block 2. -/
def paidTwice : World where
  engine := stateAfter (confirmStartedRounds (some exampleNode)) paidOnce.engine
  chain := paidOnce.chain ++ [minedBlock 2 [("txB", "destination")]]
  recordedAt := paidOnce.recordedAt

theorem exampleNode_serves : exampleNode.Serves paidOnce.chain where
  count_lt := by
    intro tip htip
    cases htip
    decide
  block_eq := by
    intro h block hblock
    simp only [BlockSource.block, exampleNode] at hblock
    by_cases h0 : h = 0
    · subst h0
      cases hblock
      exact ⟨0, rfl, rfl⟩
    · by_cases h1 : h = 1
      · subst h1
        cases hblock
        exact ⟨1, rfl, rfl⟩
      · simp only [h0, h1, if_false] at hblock
        cases hblock

theorem paidOnce_reachable : liveSystem.Reachable paidOnce := by
  have h0 : liveSystem.Reachable ⟨JoinmarketEngine.mk [exampleTaker] (-1) 0, [], fun _ _ => 0⟩ :=
    .init ⟨by simp [exampleTaker], rfl, rfl⟩
  have h1 := h0.step (.recordStart 0 exampleTaker (.str "destination") .none .none .none .none 0 rfl)
  have h2 := h1.step (.mineBlock (minedBlock 0 []))
  exact h2.step (.mineBlock (minedBlock 1 [("txA", "destination")]))

theorem paidTwice_reachable : liveSystem.Reachable paidTwice :=
  (paidOnce_reachable.step (.scan exampleNode exampleNode_serves)).step
    (.mineBlock (minedBlock 2 [("txB", "destination")]))

theorem wellFormedChain_paidTwice : WellFormedChain paidTwice.chain := by
  intro i block hi
  match i with
  | 0 => cases hi; exact wellFormedBlock_minedBlock 0 (by simp)
  | 1 => cases hi; exact wellFormedBlock_minedBlock 1 (by simp)
  | 2 => cases hi; exact wellFormedBlock_minedBlock 2 (by simp)
  | i + 3 => cases hi

end CoinjoinEmulator
