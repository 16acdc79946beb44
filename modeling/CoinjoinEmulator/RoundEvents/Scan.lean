import CoinjoinEmulator.RoundEvents.LiveRun

/-! What the live scans have confirmed: the cursor of the scans against the pending events. -/

namespace CoinjoinEmulator

open ProofKit RoundEventRecord JoinMarketClientServer JoinmarketEngine

/-- The event `j` of the client `i`. -/
def JoinmarketEngine.eventAt (engine : JoinmarketEngine) (i j : Nat) : Option RoundEvent :=
  engine.clients[i]?.bind (·.roundEvents[j]?)

theorem eventAt_eq_some {engine : JoinmarketEngine} {i j : Nat} {event : RoundEvent} :
    engine.eventAt i j = some event ↔
      ∃ client, engine.clients[i]? = some client ∧ client.roundEvents[j]? = some event :=
  Option.bind_eq_some_iff

/-- A change of the events one by one, seen from the events after it. -/
theorem eventAt_of_onlyEvents {R : RoundEvent → RoundEvent → Prop}
    {engine engine' : JoinmarketEngine}
    (h : engine.clients.Forall₂ (OnlyEvents (List.Forall₂ R)) engine'.clients) {i j : Nat}
    {event' : RoundEvent} (hevent' : engine'.eventAt i j = some event') :
    ∃ event, engine.eventAt i j = some event ∧ R event event' := by
  obtain ⟨client', hclient', hj⟩ := eventAt_eq_some.mp hevent'
  obtain ⟨client, hclient, events', rfl, hevents⟩ := forall₂_getElem?_right h hclient'
  obtain ⟨event, hevent, hR⟩ := forall₂_getElem?_right hevents hj
  exact ⟨event, eventAt_eq_some.mpr ⟨client, hclient, hevent⟩, hR⟩

/-- No block up to `scanned` that was mined after the event was recorded pays its destination. -/
def UnpaidUpTo (chain : List ExportedBlock) (scanned : Int) (recordedAt : Nat)
    (event : RoundEvent) :
    Prop :=
  ∀ (h : Nat) block a, chain[h]? = some block → (h : Int) ≤ scanned → recordedAt ≤ h →
    destinationAddress event = some a → ¬Pays block a

/-- The pending events are unpaid in the scanned part of the chain. -/
structure ScanInv (w : World) : Prop where
  scanned_lt : w.engine.roundScanHeight < w.chain.length
  unpaid : ∀ i j event, w.engine.eventAt i j = some event → hasStatus .started event = true →
    UnpaidUpTo w.chain w.engine.roundScanHeight (w.recordedAt i j) event

theorem EventChange.started_of_started {events : List RoundEvent} {chain : List ExportedBlock}
    {event event' : RoundEvent} (h : EventChange events chain event event')
    (hstarted : hasStatus .started event' = true) : hasStatus .started event = true := by
  cases hold : hasStatus .started event with
  | true => rfl
  | false =>
    rw [hasStatus_iff, (h.settled hold).1, ← hasStatus_iff, hold] at hstarted
    cases hstarted

/-- An event after a step was there before it, or was recorded by it. -/
theorem LiveStep.eventAt_cases {w w' : World} (h : LiveStep w w') {i j : Nat} {event' : RoundEvent}
    (hevent' : w'.engine.eventAt i j = some event') :
    (∃ event, w.engine.eventAt i j = some event ∧ w'.recordedAt i j = w.recordedAt i j ∧
      EventChange w.engine.liveRoundEvents w.chain event event') ∨
    w'.chain = w.chain ∧ w'.engine.roundScanHeight = w.engine.roundScanHeight ∧
      w'.recordedAt i j = w.chain.length := by
  rcases h.events_cases with ⟨hat, hevents⟩ |
    ⟨k, client, event, hk, -, hclients, hchain, hheight, hat⟩
  · obtain ⟨event, hevent, hchange⟩ := eventAt_of_onlyEvents hevents hevent'
    exact .inl ⟨event, hevent, by rw [hat], hchange⟩
  · obtain ⟨client', hclient', hj⟩ := eventAt_eq_some.mp hevent'
    rw [hclients, List.getElem?_modify] at hclient'
    by_cases hki : k = i
    · subst hki
      simp only [if_true, hk, Option.map_eq_map, Option.map_some, Option.some.injEq] at hclient'
      subst hclient'
      rcases Nat.lt_or_ge j client.roundEvents.length with hlt | hge
      · rw [List.getElem?_append_left hlt] at hj
        refine .inl ⟨event', eventAt_eq_some.mpr ⟨client, hk, hj⟩, ?_, .unchanged⟩
        simp [hat, Nat.ne_of_lt hlt]
      · have hlast : j = client.roundEvents.length := by
          rw [List.getElem?_append_right hge] at hj
          have hlt := (List.getElem?_eq_some_iff.mp hj).1
          rw [List.length_singleton] at hlt
          omega
        exact .inr ⟨hchain, hheight, by simp [hat, hlast]⟩
    · simp only [hki, if_false, Option.map_eq_map, Option.map_id'] at hclient'
      refine .inl ⟨event', eventAt_eq_some.mpr ⟨client', by simpa using hclient', hj⟩, ?_, .unchanged⟩
      simp [hat, Ne.symm hki]

/-- A step that leaves the scanned part of the chain keeps the invariant. -/
theorem ScanInv.of_same_height {w w' : World} (hinv : ScanInv w) (hstep : LiveStep w w')
    (hheight : w'.engine.roundScanHeight = w.engine.roundScanHeight) : ScanInv w' := by
  obtain ⟨mined, hmined⟩ := hstep.chain_prefix
  refine ⟨?_, ?_⟩
  · have hlt := hinv.scanned_lt
    rw [hheight, ← hmined, List.length_append]
    omega
  · intro i j event' hevent' hstarted' h block a hblock hle hat ha
    rw [hheight] at hle
    rcases hstep.eventAt_cases hevent' with ⟨event, hevent, hrecorded, hchange⟩ |
      ⟨hchain, -, hrecorded⟩
    · have hstarted := hchange.started_of_started hstarted'
      have hlt := hinv.scanned_lt
      rw [← hmined, List.getElem?_append_left (by omega)] at hblock
      exact hinv.unpaid i j event hevent hstarted h block a hblock hle (hrecorded ▸ hat)
        (hchange.destinationAddress_eq ▸ ha)
    · -- the event was recorded when the chain was shorter than `h`
      rw [hrecorded] at hat
      rw [hchain] at hblock
      have hlt := (List.getElem?_eq_some_iff.mp hblock).1
      omega

/-- A completed scan finds the payment of each pending event above the old scan height. -/
theorem unpaid_of_completed {node : BlockSource} {chain : List ExportedBlock}
    (hserves : node.Serves chain) {scannedHeight tip : Int} {paid : List Payment}
    (hwalk : walkBlocks (blocksAbove node scannedHeight tip) = (paid, none))
    {events : List RoundEvent} {event : RoundEvent} (hstarted : hasStatus .started event = true)
    (hstarted' : hasStatus .started (scanEvent events paid event) = true)
    {h : Nat} {block : ExportedBlock} (hblock : chain[h]? = some block)
    (habove : scannedHeight < h) (hle : (h : Int) ≤ tip) {a : String}
    (ha : destinationAddress event = some a) : ¬Pays block a := by
  rintro ⟨t, hpays⟩
  have hpaid : ⟨a, t, (h : Int)⟩ ∈ paid := by
    have hitem : node.block h ∈ blocksAbove node scannedHeight tip :=
      List.mem_map_of_mem (Int.mem_range_iff.mpr ⟨by omega, by omega⟩)
    obtain ⟨height, block', hok, hfound⟩ := walkBlocks_complete (by rw [hwalk]) _ hitem
    have hheight := BlockSource.height_of_block hok
    subst hheight
    obtain ⟨i, hi, hchain⟩ := hserves.block_eq _ _ hok
    have hih : i = h := by omega
    rw [hih, hblock, Option.some.injEq] at hchain
    rw [hwalk] at hfound
    exact hfound t a (hchain ▸ hpays)
  have htxids : ∀ p ∈ paid, p.txid ≠ "" := by
    intro p hp
    rw [show paid = (walkBlocks (blocksAbove node scannedHeight tip)).1 by rw [hwalk]] at hp
    exact txid_ne_of_mem_walkBlocks hp
  have hfound : (⟨t, h⟩ : DestinationMatch) ∈ matchesTo (destinationAddress event) paid :=
    mem_matchesTo.mpr ⟨a, ha, hpaid⟩
  have hmatched : matchesTo (destinationAddress event) paid ≠ [] := List.ne_nil_of_mem hfound
  have hne : status event ≠ some EventStatus.duplicateDestination.text := by
    rw [hasStatus_iff.mp hstarted]
    decide
  rw [hasStatus_iff, scanEvent, if_pos hstarted, status_reconcileEvent _ htxids, if_neg hmatched,
    if_neg hne] at hstarted'
  split at hstarted'
  · simp at hstarted'
  · unfold countedStatus at hstarted'
    split at hstarted' <;> simp at hstarted'

theorem eventAt_withRoundEvents_map {engine : JoinmarketEngine} (g : RoundEvent → RoundEvent)
    {i j : Nat} {event' : RoundEvent}
    (hevent' : (engine.withRoundEvents (engine.liveRoundEvents.map g)).eventAt i j = some event') :
    ∃ event, engine.eventAt i j = some event ∧ event' = g event := by
  have hclients := @forall₂_withRoundEvents (fun event event' => event' = g event) engine _
    (by rw [List.forall₂_map_right_iff, List.forall₂_same]; exact fun _ _ => rfl)
  exact eventAt_of_onlyEvents hclients hevent'

/-- A completed scan moves the scan height to its tip. -/
theorem ScanInv.of_completed {w : World} (hinv : ScanInv w) {node : BlockSource}
    (hserves : node.Serves w.chain) {tip : Int} {paid : List Payment} {engine' : JoinmarketEngine}
    (hcount : node.getBlockCount = .ok tip)
    (hwalk : walkBlocks (blocksAbove node w.engine.roundScanHeight tip) = (paid, none))
    (hclients : engine'.clients = (w.engine.withRoundEvents
      (w.engine.liveRoundEvents.map (scanEvent w.engine.liveRoundEvents paid))).clients)
    (hheight : engine'.roundScanHeight = tip) : ScanInv { w with engine := engine' } := by
  refine ⟨hheight ▸ hserves.count_lt tip hcount, ?_⟩
  intro i j event' hevent' hstarted' h block a hblock hle hat ha
  simp only [eventAt, hclients] at hevent'
  obtain ⟨event, hevent, rfl⟩ := eventAt_withRoundEvents_map _ hevent'
  have hchange : EventChange w.engine.liveRoundEvents w.chain event
      (scanEvent w.engine.liveRoundEvents paid event) := by
    have hpaid := paidOn_walkBlocks hserves w.engine.roundScanHeight tip
    rw [hwalk] at hpaid
    exact .scanned paid hpaid
  have hstarted := hchange.started_of_started hstarted'
  rw [hchange.destinationAddress_eq] at ha
  rw [hheight] at hle
  by_cases habove : w.engine.roundScanHeight < h
  · exact unpaid_of_completed hserves hwalk hstarted hstarted' hblock habove hle ha
  · exact hinv.unpaid i j event hevent hstarted h block a hblock (by omega) hat ha

theorem scanInv_of_reachable {w : World} (h : liveSystem.Reachable w) : ScanInv w := by
  refine System.Reachable.invariant ?_ ?_ h
  · intro w hinit
    refine ⟨by rw [hinit.roundScanHeight_eq]; omega, fun i j event hevent => ?_⟩
    obtain ⟨client, hclient, hj⟩ := eventAt_eq_some.mp hevent
    rw [hinit.roundEvents_eq client (List.mem_of_getElem? hclient)] at hj
    simp at hj
  · intro w w' _ hinv hstep
    cases hstep with
    | scan node hserves =>
      have hkeep := hinv.of_same_height (.scan node hserves)
      have houtcome := run_confirmStartedRounds node w.engine
      simp only [stateAfter] at hkeep ⊢
      generalize (confirmStartedRounds (some node)).run w.engine = result at houtcome hkeep ⊢
      cases houtcome with
      | noCount error hcount => exact hkeep rfl
      | aborted tip paid error hcount hwalk => exact hkeep rfl
      | completed tip paid engine' hcount hwalk hclients hheight hround =>
        exact hinv.of_completed hserves hcount hwalk hclients hheight
    | timeout takerName reason currentBlock =>
      apply hinv.of_same_height (.timeout takerName reason currentBlock)
      obtain ⟨marked, events', hrun, -⟩ :=
        run_markLatestStartedRoundFailed takerName reason currentBlock w.engine.liveRoundEvents
      simp only [stateAfter, markTakerRoundFailed, run_onLiveEvents_ok hrun]
      rfl
    | readConfirmed =>
      apply hinv.of_same_height .readConfirmed
      have hrun := run_confirmedCoinjoinTxids w.engine.liveRoundEvents
      simp only [stateAfter, run_onLiveEvents_ok hrun]
      rfl
    | recordStart i client _ _ _ _ _ _ hi =>
      exact hinv.of_same_height (.recordStart i client _ _ _ _ _ _ hi) rfl
    | startOutcome i ref acknowledged =>
      exact hinv.of_same_height (.startOutcome i ref acknowledged) rfl
    | mineBlock block => exact hinv.of_same_height (.mineBlock block) rfl

/-- No confirmation is lost by a completed scan, a scan that raises moves neither the scan height
nor the counter, and the counter never decreases. -/
theorem scan_loses_no_confirmation {w : World} (h : liveSystem.Reachable w) :
    (∀ node : BlockSource, node.Serves w.chain →
      match (confirmStartedRounds (some node)).run w.engine with
      | .ok _ engine' =>
        node.getBlockCount = .ok engine'.roundScanHeight ∧
          ∀ i j event, engine'.eventAt i j = some event → hasStatus .started event = true →
            UnpaidUpTo w.chain engine'.roundScanHeight (w.recordedAt i j) event
      | .error _ engine' =>
        engine'.roundScanHeight = w.engine.roundScanHeight ∧
          engine'.currentRound = w.engine.currentRound) ∧
    ∀ w', liveSystem.Run w w' → w.engine.currentRound ≤ w'.engine.currentRound := by
  refine ⟨fun node hserves => ?_, fun w' hrun => currentRound_le_of_run h hrun⟩
  have houtcome := run_confirmStartedRounds node w.engine
  generalize (confirmStartedRounds (some node)).run w.engine = result at houtcome ⊢
  cases houtcome with
  | noCount error hcount => exact ⟨rfl, rfl⟩
  | aborted tip paid error hcount hwalk => exact ⟨rfl, rfl⟩
  | completed tip paid engine' hcount hwalk hclients hheight hround =>
    refine ⟨by rw [hcount, hheight], ?_⟩
    exact ((scanInv_of_reachable h).of_completed hserves hcount hwalk hclients hheight).unpaid

theorem scan_loses_no_confirmation_paidOnce :
    exampleNode.getBlockCount =
        .ok (stateAfter (confirmStartedRounds (some exampleNode)) paidOnce.engine).roundScanHeight ∧
      paidOnce.engine.currentRound ≤ paidTwice.engine.currentRound := by
  have hclaim := scan_loses_no_confirmation paidOnce_reachable
  have hscan : liveSystem.Run paidOnce _ := .single (.scan exampleNode exampleNode_serves)
  have hrun : liveSystem.Run paidOnce paidTwice :=
    hscan.tail (.mineBlock (minedBlock 2 [("txB", "destination")]))
  exact ⟨(hclaim.1 exampleNode exampleNode_serves).1, hclaim.2 paidTwice hrun⟩

end CoinjoinEmulator
