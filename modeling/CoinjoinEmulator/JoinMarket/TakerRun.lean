import CoinjoinEmulator.JoinMarket.Engine
import CoinjoinEmulator.JoinMarket.Taker

/-! Runs of takers under the engine: updates of either copy, live scans, and the failure marks that
follow a returned -1. -/

namespace CoinjoinEmulator

open ProofKit RoundEventRecord JoinMarketClientServer JoinmarketEngine TakerClient

/-! ### What an update does to the attempts of a taker -/

inductive UpdatePath where
  | sync
  | async
deriving DecidableEq

def runUpdate (path : UpdatePath) (answers : TakerAnswers) (currentBlock currentRound : Int) :
    Taker Int :=
  match path with
  | .sync => update answers currentBlock currentRound
  | .async => updateAsync answers currentBlock currentRound

/-- The settings that no update changes. -/
structure SameSettings (client client' : JoinMarketClientServer) : Prop where
  name_eq : client'.name = client.name
  delay_eq : client'.delay = client.delay
  stop_eq : client'.stop = client.stop
  coinjoinTimeoutBlocks_eq : client'.coinjoinTimeoutBlocks = client.coinjoinTimeoutBlocks
  maxCoinjoins_eq : client'.maxCoinjoins = client.maxCoinjoins

theorem SameSettings.refl (client : JoinMarketClientServer) : SameSettings client client :=
  ⟨rfl, rfl, rfl, rfl, rfl⟩

theorem SameSettings.trans {client client' client'' : JoinMarketClientServer}
    (h : SameSettings client client') (h' : SameSettings client' client'') :
    SameSettings client client'' :=
  ⟨h'.name_eq.trans h.name_eq, h'.delay_eq.trans h.delay_eq, h'.stop_eq.trans h.stop_eq,
    h'.coinjoinTimeoutBlocks_eq.trans h.coinjoinTimeoutBlocks_eq,
    h'.maxCoinjoins_eq.trans h.maxCoinjoins_eq⟩

/-- The client recorded no attempt. -/
structure KeptAttempts (client client' : JoinMarketClientServer) : Prop where
  settings : SameSettings client client'
  roundEvents_eq : client'.roundEvents = client.roundEvents
  coinjoinStart_eq : client'.coinjoinStart = client.coinjoinStart

/-- The client recorded one attempt, at `currentBlock`. -/
structure RecordedAttempt (client : JoinMarketClientServer) (currentBlock : Int)
    (client' : JoinMarketClientServer) : Prop where
  settings : SameSettings client client'
  roundEvents_eq : ∃ event, client'.roundEvents = client.roundEvents ++ [event] ∧
    status event = some EventStatus.started.text ∧
    event.get "taker" = some (.str client.name) ∧
    event.get "start_block" = some (.int currentBlock)
  coinjoinStart_eq : client'.coinjoinStart = currentBlock

/-- The engine sees a timeout in the result of an update. -/
def returnsNegative : EStateM.Result PyError TakerState Int → Bool
  | .ok delta _ => decide (delta < 0)
  | .error _ _ => false

theorem KeptAttempts.trans {client client' client'' : JoinMarketClientServer}
    (h : KeptAttempts client client') (h' : KeptAttempts client' client'') :
    KeptAttempts client client'' :=
  ⟨h.settings.trans h'.settings, h'.roundEvents_eq.trans h.roundEvents_eq,
    h'.coinjoinStart_eq.trans h.coinjoinStart_eq⟩

theorem KeptAttempts.recorded {client client' client'' : JoinMarketClientServer}
    {currentBlock : Int} (h : KeptAttempts client client')
    (h' : RecordedAttempt client' currentBlock client'') :
    RecordedAttempt client currentBlock client'' := by
  obtain ⟨event, hevents, hstatus, htaker, hstart⟩ := h'.roundEvents_eq
  refine ⟨h.settings.trans h'.settings, ⟨event, ?_, hstatus, ?_, hstart⟩, h'.coinjoinStart_eq⟩
  · rw [hevents, h.roundEvents_eq]
  · rw [htaker, h.settings.name_eq]

/-- The event of a recorded attempt, also after its outcome is noted. -/
theorem RecordedAttempt.of_outcome {client client' : JoinMarketClientServer} {currentBlock : Int}
    (settings : SameSettings client client') (acknowledged : Bool)
    (destination amountSats counterparties mixdepth : Value)
    (hevents : client'.roundEvents = (client.roundEvents ++ [client.roundStartEvent destination
      amountSats counterparties mixdepth currentBlock .none]).modify client.roundEvents.length
        (roundStartOutcome acknowledged))
    (hstart : client'.coinjoinStart = currentBlock) : RecordedAttempt client currentBlock client' where
  settings := settings
  roundEvents_eq := by
    refine ⟨roundStartOutcome acknowledged (client.roundStartEvent destination amountSats
      counterparties mixdepth currentBlock .none), ?_, ?_, ?_, ?_⟩
    · rw [hevents, List.modify_eq_take_cons_drop (by simp)]
      simp
    · exact (status_congr (get_roundStartOutcome _ (by decide) _)).trans (by simp)
    · rw [get_roundStartOutcome _ (by decide)]
      simp
    · rw [get_roundStartOutcome _ (by decide)]
      simp
  coinjoinStart_eq := hstart

/-- The start branch records at most one attempt, and never reports a timeout. -/
theorem startAttempt_effect {answers : TakerAnswers} {currentBlock currentRound : Int}
    {s : TakerState} {result : EStateM.Result PyError TakerState Int}
    (h : (startAttempt (startCoinjoin answers) answers currentBlock currentRound).run s = result) :
    returnsNegative result = false ∧ (KeptAttempts s.client (resultState result).client ∨
      RecordedAttempt s.client currentBlock (resultState result).client) := by
  simp only [startAttempt, EStateM.run_bind] at h
  rcases run_prepareAttempt answers currentRound s with ⟨error, hprepare⟩ | ⟨offer, offers, hprepare⟩
  · rw [hprepare] at h
    subst h
    exact ⟨rfl, .inl ⟨.refl _, rfl, rfl⟩⟩
  · simp only [hprepare, run_recordAttempt, run_tryCatch] at h
    generalize hrecorded : TakerState.mk { JoinMarketClientServer.recordRoundStart _ _ _ _ _ _ with
      coinjoinStart := currentBlock } s.requests = recorded at h
    obtain ⟨requests, hstart | ⟨error, hstart⟩⟩ := run_startCoinjoin answers offer recorded
    · simp only [hstart, run_noteAttemptStarted] at h
      subst h hrecorded
      exact ⟨rfl, .inr (.of_outcome ⟨rfl, rfl, rfl, rfl, rfl⟩ true _ _ _ _ rfl rfl)⟩
    · simp only [hstart, onClient, EStateM.run_bind, EStateM.run_modify] at h
      subst h hrecorded
      exact ⟨rfl, .inr (.of_outcome ⟨rfl, rfl, rfl, rfl, rfl⟩ false _ _ _ _ rfl rfl)⟩

theorem keptAttempts_updateCoinHistory (utxos : Except PyError (List (Dict Value)))
    (client : JoinMarketClientServer) : KeptAttempts client (updateCoinHistory utxos client) := by
  cases utxos <;> exact ⟨⟨rfl, rfl, rfl, rfl, rfl⟩, rfl, rfl⟩

theorem keptAttempts_refreshed (answers : TakerAnswers) (inProcess : Bool)
    (client : JoinMarketClientServer) :
    KeptAttempts client (refreshed answers inProcess client) := by
  obtain ⟨history, hrefreshed⟩ := refreshed_eq answers inProcess client
  rw [hrefreshed]
  exact ⟨⟨rfl, rfl, rfl, rfl, rfl⟩, rfl, rfl⟩

/-- What one update can do: it records no attempt and reports a timeout only of an attempt that
timed out, or it records one attempt of an unpaused client without a pending one. -/
inductive UpdateEffect (client : JoinMarketClientServer) (currentBlock currentRound : Int) :
    EStateM.Result PyError TakerState Int → Prop
  | kept {result} : KeptAttempts client (resultState result).client →
      (returnsNegative result = true → client.coinjoinTimedOut currentBlock = true) →
      UpdateEffect client currentBlock currentRound result
  | recorded {result} : RecordedAttempt client currentBlock (resultState result).client →
      returnsNegative result = false → client.hasUnconfirmedRound = false →
      isPausedAfterRefresh client currentBlock currentRound = false →
      UpdateEffect client currentBlock currentRound result

theorem UpdateEffect.of_startAttempt {answers : TakerAnswers} {inProcess : Bool}
    {currentBlock currentRound : Int} {client : JoinMarketClientServer}
    {requests : List TakerRequest}
    (hpending : (refreshed answers inProcess client).hasUnconfirmedRound = false)
    (hpaused : (refreshed answers inProcess client).isPaused currentBlock currentRound = false) :
    UpdateEffect client currentBlock currentRound
      ((startAttempt (startCoinjoin answers) answers currentBlock currentRound).run
        ⟨refreshed answers inProcess client, requests⟩) := by
  have hkept := keptAttempts_refreshed answers inProcess client
  obtain ⟨history, hrefreshed⟩ := refreshed_eq answers inProcess client
  obtain ⟨hnegative, hkept' | hrecorded⟩ := startAttempt_effect
    (s := ⟨refreshed answers inProcess client, requests⟩) rfl
  · exact .kept (hkept.trans hkept') fun h => by rw [hnegative] at h; cases h
  · refine .recorded (hkept.recorded hrecorded) hnegative ?_ ?_
    · rw [hrefreshed] at hpending
      exact hpending
    · rw [hrefreshed] at hpaused
      exact hpaused

theorem UpdateEffect.of_stop {answers : TakerAnswers} {inProcess : Bool}
    {currentBlock currentRound : Int} {client : JoinMarketClientServer}
    {requests : List TakerRequest}
    (htimedOut : (refreshed answers inProcess client).coinjoinTimedOut currentBlock = true) :
    UpdateEffect client currentBlock currentRound
      ((stopTimedOutAttempt answers currentBlock).run
        ⟨refreshed answers inProcess client, requests⟩) := by
  rw [run_stopTimedOutAttempt]
  have hkept := keptAttempts_refreshed answers inProcess client
  obtain ⟨history, hrefreshed⟩ := refreshed_eq answers inProcess client
  refine .kept (hkept.trans ⟨⟨rfl, rfl, rfl, rfl, rfl⟩, rfl, rfl⟩) fun _ => ?_
  rw [hrefreshed] at htimedOut
  exact htimedOut

theorem UpdateEffect.of_unconfirmed {answers : TakerAnswers} {inProcess : Bool}
    {currentBlock currentRound : Int} {client : JoinMarketClientServer}
    {requests : List TakerRequest} :
    UpdateEffect client currentBlock currentRound (.ok
      ((refreshed answers inProcess client).unconfirmedFinishedAttemptResult currentBlock)
      ⟨refreshed answers inProcess client, requests⟩) := by
  refine .kept (keptAttempts_refreshed answers inProcess client) fun h => ?_
  obtain ⟨history, hrefreshed⟩ := refreshed_eq answers inProcess client
  rw [hrefreshed] at h
  simp only [returnsNegative, unconfirmedFinishedAttemptResult] at h
  split at h
  · assumption
  · simp at h

theorem UpdateEffect.of_idle {answers : TakerAnswers} {inProcess : Bool}
    {currentBlock currentRound : Int} {client : JoinMarketClientServer}
    {requests : List TakerRequest} :
    UpdateEffect client currentBlock currentRound
      (.ok 0 ⟨refreshed answers inProcess client, requests⟩) :=
  .kept (keptAttempts_refreshed answers inProcess client) fun h => by simp [returnsNegative] at h

theorem update_effect (answers : TakerAnswers) (currentBlock currentRound : Int) (s : TakerState) :
    UpdateEffect s.client currentBlock currentRound
      ((update answers currentBlock currentRound).run s) := by
  rcases update_cases answers currentBlock currentRound s with ⟨inProcess, hsession⟩ | ⟨error, hrun⟩
  · rw [run_update hsession]
    dsimp only
    split
    · exact .of_unconfirmed
    · split
      · rename_i hstart
        simp only [Bool.and_eq_true, Bool.not_eq_true'] at hstart
        exact .of_startAttempt hstart.2 hstart.1.2
      · split
        · rename_i hstop
          exact .of_stop (Bool.and_eq_true_iff.mp hstop).2
        · exact .of_idle
  · rw [hrun]
    exact .kept (keptAttempts_updateCoinHistory answers.utxos s.client) fun h => by cases h

theorem updateAsync_effect (answers : TakerAnswers) (currentBlock currentRound : Int)
    (s : TakerState) :
    UpdateEffect s.client currentBlock currentRound
      ((updateAsync answers currentBlock currentRound).run s) := by
  rcases updateAsync_cases answers currentBlock currentRound s with
    ⟨inProcess, hsession⟩ | ⟨error, hrun⟩
  · rw [run_updateAsync hsession]
    dsimp only
    split
    · exact .of_unconfirmed
    · split
      · exact .of_idle
      · rename_i hpaused
        split
        · rename_i hstart
          simp only [Bool.and_eq_true, Bool.not_eq_true'] at hstart
          exact .of_startAttempt hstart.2 (Bool.eq_false_iff.mpr hpaused)
        · split
          · rename_i hstop
            exact .of_stop (Bool.and_eq_true_iff.mp hstop).2
          · exact .of_idle
  · rw [hrun]
    exact .kept (keptAttempts_updateCoinHistory answers.utxos s.client) fun h => by cases h

theorem runUpdate_effect (path : UpdatePath) (answers : TakerAnswers)
    (currentBlock currentRound : Int) (s : TakerState) :
    UpdateEffect s.client currentBlock currentRound
      ((runUpdate path answers currentBlock currentRound).run s) := by
  cases path with
  | sync => exact update_effect answers currentBlock currentRound s
  | async => exact updateAsync_effect answers currentBlock currentRound s

/-! ### Runs of the engine with its takers -/

/-- The engine, the block and round of its latest update, the clients whose returned -1 it has still
to mark, and as a history variable the block and round at which the client `i` recorded its event
`j`. -/
structure TakerWorld where
  engine : JoinmarketEngine
  block : Int
  round : Int
  toMark : List Nat
  recordedAt : Nat → Nat → Int × Int

/-- No attempt has been recorded; the clients have names of their own. -/
structure TakerWorld.Initial (w : TakerWorld) : Prop where
  roundEvents_eq : ∀ client ∈ w.engine.clients, client.roundEvents = []
  names_nodup : (w.engine.clients.map name).Nodup
  toMark_eq : w.toMark = []

/-- The world after an update of the client `i` ended with `result`. -/
def TakerWorld.afterUpdate (w : TakerWorld) (i : Nat) (client : JoinMarketClientServer)
    (currentBlock currentRound : Int) (result : EStateM.Result PyError TakerState Int) :
    TakerWorld where
  engine := w.engine.modifyClient i fun _ => (resultState result).client
  block := currentBlock
  round := currentRound
  toMark := if returnsNegative result then i :: w.toMark else w.toMark
  recordedAt i' j :=
    if i' = i ∧ client.roundEvents.length ≤ j then (currentBlock, currentRound)
    else w.recordedAt i' j

/-- The world after the engine marked the attempt of the client `i`. -/
def TakerWorld.afterMark (w : TakerWorld) (i : Nat) (client : JoinMarketClientServer) :
    TakerWorld :=
  { w with
    engine := stateAfter
      (markTakerRoundFailed client.name "coinjoin attempt timed out" w.block) w.engine
    toMark := w.toMark.erase i }

/-- The block and the round do not decrease.  A client is not updated again before the engine has
marked its returned -1. -/
inductive TakerStep : TakerWorld → TakerWorld → Prop
  | update {w : TakerWorld} (i : Nat) (client : JoinMarketClientServer) (path : UpdatePath)
      (answers : TakerAnswers) (currentBlock currentRound : Int)
      (result : EStateM.Result PyError TakerState Int) :
      w.engine.clients[i]? = some client → i ∉ w.toMark → w.block ≤ currentBlock →
      w.round ≤ currentRound →
      (runUpdate path answers currentBlock currentRound).run ⟨client, []⟩ = result →
      TakerStep w (w.afterUpdate i client currentBlock currentRound result)
  | mark {w : TakerWorld} (i : Nat) (client : JoinMarketClientServer) :
      w.engine.clients[i]? = some client → i ∈ w.toMark →
      TakerStep w (w.afterMark i client)
  | scan {w : TakerWorld} (node : Option BlockSource) :
      TakerStep w { w with engine := stateAfter (confirmStartedRounds node) w.engine }

def takerSystem : System TakerWorld := ⟨TakerWorld.Initial, TakerStep⟩

/-- Started or confirmed: what counts against `max_coinjoins`. -/
def isOpen (event : RoundEvent) : Bool := hasStatus .started event || hasStatus .confirmed event

/-- The attempts of one taker.  `recordedAt j` is where its event `j` was recorded. -/
structure TakerInv (client : JoinMarketClientServer) (recordedAt : Nat → Int × Int) (block : Int) :
    Prop where
  taker_eq : ∀ event ∈ client.roundEvents, event.get "taker" = some (.str client.name)
  start_eq : ∀ (j : Nat) event, client.roundEvents[j]? = some event →
    event.get "start_block" = some (.int (recordedAt j).1)
  window : ∀ j < client.roundEvents.length,
    client.outsideSchedule (recordedAt j).1 (recordedAt j).2 = false
  started_last : ∀ (j : Nat) event, client.roundEvents[j]? = some event →
    hasStatus .started event = true →
    j + 1 = client.roundEvents.length ∧ (recordedAt j).1 = client.coinjoinStart
  limit : 0 < client.maxCoinjoins → (client.roundEvents.countP isOpen : Int) ≤ client.maxCoinjoins
  failed : ∀ (j : Nat) event, client.roundEvents[j]? = some event →
    hasStatus .failed event = true → ∃ stopBlock, event.get "stop_block" = some (.int stopBlock) ∧
      (recordedAt j).1 + client.coinjoinTimeoutBlocks < stopBlock ∧ stopBlock ≤ block

/-- The attempts of all takers; one that the engine has still to mark has timed out. -/
structure TakerWorldInv (w : TakerWorld) : Prop where
  names_nodup : (w.engine.clients.map name).Nodup
  clients : ∀ (i : Nat) client, w.engine.clients[i]? = some client →
    TakerInv client (w.recordedAt i) w.block
  timed_out : ∀ (i : Nat) client, w.engine.clients[i]? = some client → i ∈ w.toMark →
    client.coinjoinTimedOut w.block = true

/-! ### What scans and marks do to the attempts -/

/-- A change of an event at `block` that records no attempt: no attempt is reopened, and one fails
only if it was started and timed out. -/
structure AttemptChange (timedOut : Prop) (block : Int) (event event' : RoundEvent) : Prop where
  taker_eq : event'.get "taker" = event.get "taker"
  start_block_eq : event'.get "start_block" = event.get "start_block"
  started : hasStatus .started event' = true → hasStatus .started event = true
  isOpen : isOpen event' = true → isOpen event = true
  failed : hasStatus .failed event' = true →
    hasStatus .failed event = true ∧ event'.get "stop_block" = event.get "stop_block" ∨
    hasStatus .started event = true ∧ timedOut ∧
      event'.get "stop_block" = some (.int block)

theorem AttemptChange.refl (timedOut : Prop) (block : Int) (event : RoundEvent) :
    AttemptChange timedOut block event event :=
  ⟨rfl, rfl, id, id, fun h => .inl ⟨h, rfl⟩⟩

theorem AttemptChange.of_scan (timedOut : Prop) (block : Int) (events : List RoundEvent)
    (blocks : List (Except PyError (Int × ExportedBlock))) (event : RoundEvent) :
    AttemptChange timedOut block event (scanEvent events (walkBlocks blocks).1 event) := by
  unfold scanEvent
  split
  · rename_i hstarted
    have hopen : CoinjoinEmulator.isOpen event = true := by simp [CoinjoinEmulator.isOpen, hstarted]
    refine ⟨get_reconcileEvent (by decide) _ _ _, get_reconcileEvent (by decide) _ _ _,
      fun _ => hstarted, fun _ => hopen, fun hfailed => ?_⟩
    -- reconciliation leaves a started event started, or gives it a status of its own
    rw [hasStatus_iff, status_reconcileEvent _ fun p hp => txid_ne_of_mem_walkBlocks hp,
      hasStatus_iff.mp hstarted] at hfailed
    split at hfailed
    · simp at hfailed
    · split at hfailed
      · simp at hfailed
      · split at hfailed
        · simp at hfailed
        · unfold countedStatus at hfailed
          split at hfailed <;> simp at hfailed
  · exact .refl timedOut block event

theorem AttemptChange.of_mark {timedOut : Prop} (block : Int) {takerName : String} (reason : String)
    {event : RoundEvent} (hpending : isPendingOf takerName event = true) (htimedOut : timedOut) :
    AttemptChange timedOut block event (markRoundFailed reason block event) := by
  have hstarted : hasStatus .started event = true := (Bool.and_eq_true_iff.mp hpending).1
  have hstatus := status_markRoundFailed reason block event
  refine ⟨get_markRoundFailed (by decide) _ _ _, get_markRoundFailed (by decide) _ _ _, ?_, ?_, ?_⟩
  · intro h
    rw [hasStatus_iff, hstatus] at h
    simp at h
  · intro h
    simp [CoinjoinEmulator.isOpen, hasStatus, hstatus] at h
  · exact fun _ => .inr ⟨hstarted, htimedOut, by simp [markRoundFailed]⟩

/-- Scans and marks keep the invariant of a taker. -/
theorem TakerInv.change {client client' : JoinMarketClientServer} {recordedAt : Nat → Int × Int}
    {block : Int} (hinv : TakerInv client recordedAt block)
    (h : OnlyEvents (List.Forall₂ (AttemptChange (client.coinjoinTimedOut block = true) block))
      client client') : TakerInv client' recordedAt block := by
  obtain ⟨events', rfl, hR⟩ := h
  have hlength := hR.length_eq
  refine ⟨?_, ?_, ?_, ?_, ?_, ?_⟩
  · intro event' hevent'
    obtain ⟨j, hj⟩ := List.mem_iff_getElem?.mp hevent'
    obtain ⟨event, hevent, hchange⟩ := forall₂_getElem?_right hR hj
    rw [hchange.taker_eq]
    exact hinv.taker_eq event (List.mem_of_getElem? hevent)
  · intro j event' hj
    obtain ⟨event, hevent, hchange⟩ := forall₂_getElem?_right hR hj
    rw [hchange.start_block_eq]
    exact hinv.start_eq j event hevent
  · intro j hj
    exact hinv.window j (hlength ▸ hj)
  · intro j event' hj hstarted
    obtain ⟨event, hevent, hchange⟩ := forall₂_getElem?_right hR hj
    obtain ⟨hlast, hstart⟩ := hinv.started_last j event hevent (hchange.started hstarted)
    exact ⟨hlast.trans hlength, hstart⟩
  · intro hmax
    have hle := countP_le_of_forall₂ (p := CoinjoinEmulator.isOpen)
      (R := fun event' event => AttemptChange (client.coinjoinTimedOut block = true) block event event')
      (fun _ _ hchange => hchange.isOpen) hR.flip
    have hlimit := hinv.limit hmax
    simp only
    omega
  · intro j event' hj hfailed
    obtain ⟨event, hevent, hchange⟩ := forall₂_getElem?_right hR hj
    rcases hchange.failed hfailed with ⟨hold, hstop⟩ | ⟨hstarted, htimedOut, hstop⟩
    · rw [hstop]
      exact hinv.failed j event hevent hold
    · -- the attempt that times out is the one that `coinjoin_start` belongs to
      obtain ⟨-, hstart⟩ := hinv.started_last j event hevent hstarted
      have hlt : client.coinjoinStart + client.coinjoinTimeoutBlocks < block :=
        of_decide_eq_true htimedOut
      exact ⟨block, hstop, by rw [hstart]; exact hlt, Int.le_refl _⟩

/-! ### What an update does to the invariant -/

theorem outsideSchedule_congr {client client' : JoinMarketClientServer}
    (h : SameSettings client client') (block round : Int) :
    client'.outsideSchedule block round = client.outsideSchedule block round := by
  simp only [outsideSchedule, h.delay_eq, h.stop_eq]

theorem TakerInv.kept {client client' : JoinMarketClientServer}
    {recordedAt recordedAt' : Nat → Int × Int}
    {block block' : Int} (hinv : TakerInv client recordedAt block) (h : KeptAttempts client client')
    (hblock : block ≤ block')
    (hrecorded : ∀ j < client.roundEvents.length, recordedAt' j = recordedAt j) :
    TakerInv client' recordedAt' block' := by
  have hat : ∀ {j : Nat} {event}, client.roundEvents[j]? = some event →
      recordedAt' j = recordedAt j := fun hj => hrecorded _ (List.getElem?_eq_some_iff.mp hj).1
  refine ⟨?_, ?_, ?_, ?_, ?_, ?_⟩
  · rw [h.roundEvents_eq, h.settings.name_eq]
    exact hinv.taker_eq
  · intro j event hj
    rw [h.roundEvents_eq] at hj
    rw [hat hj]
    exact hinv.start_eq j event hj
  · intro j hj
    rw [h.roundEvents_eq] at hj
    rw [hrecorded j hj, outsideSchedule_congr h.settings]
    exact hinv.window j hj
  · intro j event hj hstarted
    rw [h.roundEvents_eq] at hj ⊢
    rw [hat hj, h.coinjoinStart_eq]
    exact hinv.started_last j event hj hstarted
  · rw [h.roundEvents_eq, h.settings.maxCoinjoins_eq]
    exact hinv.limit
  · intro j event hj hfailed
    rw [h.roundEvents_eq] at hj
    rw [hat hj, h.settings.coinjoinTimeoutBlocks_eq]
    obtain ⟨stopBlock, hstop, hlt, hle⟩ := hinv.failed j event hj hfailed
    exact ⟨stopBlock, hstop, hlt, by omega⟩

/-- Without a pending attempt the open ones are the confirmed ones. -/
theorem countP_isOpen {client : JoinMarketClientServer}
    (hpending : client.hasUnconfirmedRound = false) :
    client.roundEvents.countP isOpen = client.confirmedRounds := by
  apply List.countP_congr
  intro event hevent
  have hnot := List.any_eq_false.mp hpending event hevent
  simp [isOpen, hnot]

theorem TakerInv.recorded {client client' : JoinMarketClientServer}
    {recordedAt recordedAt' : Nat → Int × Int} {block currentBlock currentRound : Int}
    (hinv : TakerInv client recordedAt block) (h : RecordedAttempt client currentBlock client')
    (hpending : client.hasUnconfirmedRound = false)
    (hpaused : isPausedAfterRefresh client currentBlock currentRound = false)
    (hblock : block ≤ currentBlock)
    (hrecorded : ∀ j < client.roundEvents.length, recordedAt' j = recordedAt j)
    (hnew : recordedAt' client.roundEvents.length = (currentBlock, currentRound)) :
    TakerInv client' recordedAt' currentBlock := by
  obtain ⟨new, hevents, hstatus, htaker, hstart⟩ := h.roundEvents_eq
  simp only [isPausedAfterRefresh, Bool.or_eq_false_iff, decide_eq_false_iff_not] at hpaused
  obtain ⟨⟨hschedule, -⟩, hmaximum⟩ := hpaused
  have hold : ∀ {j : Nat} {event}, client'.roundEvents[j]? = some event →
      (client.roundEvents[j]? = some event ∧ recordedAt' j = recordedAt j) ∨
      j = client.roundEvents.length ∧ event = new := by
    intro j event hj
    rw [hevents] at hj
    rcases Nat.lt_or_ge j client.roundEvents.length with hlt | hge
    · rw [List.getElem?_append_left hlt] at hj
      exact .inl ⟨hj, hrecorded j hlt⟩
    · rw [List.getElem?_append_right hge] at hj
      have hzero := (List.getElem?_eq_some_iff.mp hj).1
      rw [List.length_singleton] at hzero
      have heq : j - client.roundEvents.length = 0 := by omega
      rw [heq, List.getElem?_cons_zero, Option.some.injEq] at hj
      exact .inr ⟨by omega, hj.symm⟩
  refine ⟨?_, ?_, ?_, ?_, ?_, ?_⟩
  · intro event hevent
    rw [h.settings.name_eq]
    rw [hevents, List.mem_append, List.mem_singleton] at hevent
    rcases hevent with hevent | rfl
    · exact hinv.taker_eq event hevent
    · exact htaker
  · intro j event hj
    rcases hold hj with ⟨hj, hat⟩ | ⟨rfl, rfl⟩
    · rw [hat]
      exact hinv.start_eq j event hj
    · rw [hnew]
      exact hstart
  · intro j hj
    rw [outsideSchedule_congr h.settings]
    rw [hevents, List.length_append, List.length_singleton] at hj
    rcases Nat.lt_or_ge j client.roundEvents.length with hlt | hge
    · rw [hrecorded j hlt]
      exact hinv.window j hlt
    · rw [show j = client.roundEvents.length by omega, hnew]
      exact hschedule
  · intro j event hj hstarted
    rcases hold hj with ⟨hj, -⟩ | ⟨rfl, rfl⟩
    · -- no earlier attempt is pending
      have hnot := List.any_eq_false.mp hpending event (List.mem_of_getElem? hj)
      exact absurd hstarted hnot
    · rw [hnew, hevents, List.length_append, List.length_singleton, h.coinjoinStart_eq]
      exact ⟨rfl, rfl⟩
  · intro hmax
    rw [h.settings.maxCoinjoins_eq] at hmax ⊢
    rw [hevents, List.countP_append, countP_isOpen hpending]
    have hone : [new].countP isOpen ≤ 1 := List.countP_le_length
    have hlt : ¬client.maxCoinjoins ≤ max client.completedCoinjoins client.confirmedRounds :=
      fun hle => hmaximum ⟨hmax, hle⟩
    rw [le_max_iff] at hlt
    omega
  · intro j event hj hfailed
    rcases hold hj with ⟨hj, hat⟩ | ⟨rfl, rfl⟩
    · rw [hat, h.settings.coinjoinTimeoutBlocks_eq]
      obtain ⟨stopBlock, hstop, hlt, hle⟩ := hinv.failed j event hj hfailed
      exact ⟨stopBlock, hstop, hlt, by omega⟩
    · rw [hasStatus_iff, hstatus] at hfailed
      simp at hfailed

theorem coinjoinTimedOut_mono {client : JoinMarketClientServer} {block block' : Int}
    (h : client.coinjoinTimedOut block = true) (hblock : block ≤ block') :
    client.coinjoinTimedOut block' = true := by
  simp only [coinjoinTimedOut, decide_eq_true_eq] at h ⊢
  omega

theorem coinjoinTimedOut_kept {client client' : JoinMarketClientServer}
    (h : KeptAttempts client client') (block : Int) :
    client'.coinjoinTimedOut block = client.coinjoinTimedOut block := by
  simp only [coinjoinTimedOut, h.coinjoinStart_eq, h.settings.coinjoinTimeoutBlocks_eq]

/-! ### The invariant over a run -/

theorem getElem?_modifyClient (engine : JoinmarketEngine) (i k : Nat)
    (f : JoinMarketClientServer → JoinMarketClientServer) :
    (engine.modifyClient i f).clients[k]? =
      if i = k then engine.clients[k]?.map f else engine.clients[k]? := by
  simp only [JoinmarketEngine.modifyClient, List.getElem?_modify]
  split <;> simp

theorem names_modify {clients : List JoinMarketClientServer} {i : Nat}
    {f : JoinMarketClientServer → JoinMarketClientServer}
    (hf : ∀ client, clients[i]? = some client → (f client).name = client.name) :
    (clients.modify i f).map name = clients.map name := by
  apply List.ext_getElem?
  intro k
  rw [List.getElem?_map, List.getElem?_map, List.getElem?_modify]
  by_cases hik : i = k
  · subst hik
    cases hi : clients[i]? with
    | none => rfl
    | some client => simp [hf client hi]
  · simp [hik]

theorem names_of_onlyEvents {R : List RoundEvent → List RoundEvent → Prop}
    {clients clients' : List JoinMarketClientServer} (h : clients.Forall₂ (OnlyEvents R) clients') :
    clients'.map name = clients.map name := by
  induction h with
  | nil => rfl
  | cons hclient _ ih =>
    obtain ⟨events', rfl, -⟩ := hclient
    simp [ih]

theorem TakerWorldInv.update {w : TakerWorld} (hinv : TakerWorldInv w) {i : Nat}
    {client : JoinMarketClientServer} {currentBlock currentRound : Int}
    {result : EStateM.Result PyError TakerState Int} (hi : w.engine.clients[i]? = some client)
    (hmark : i ∉ w.toMark) (hblock : w.block ≤ currentBlock)
    (heffect : UpdateEffect client currentBlock currentRound result) :
    TakerWorldInv (w.afterUpdate i client currentBlock currentRound result) := by
  have hsettings : SameSettings client (resultState result).client := by
    cases heffect with
    | kept hkept => exact hkept.settings
    | recorded hrecorded => exact hrecorded.settings
  refine ⟨?_, ?_, ?_⟩
  · rw [TakerWorld.afterUpdate, JoinmarketEngine.modifyClient, names_modify]
    · exact hinv.names_nodup
    · intro client' hclient'
      rw [hi, Option.some.injEq] at hclient'
      rw [← hclient']
      exact hsettings.name_eq
  · intro k client' hclient'
    simp only [TakerWorld.afterUpdate, getElem?_modifyClient] at hclient'
    by_cases hik : i = k
    · subst hik
      rw [if_pos rfl, hi, Option.map_some, Option.some.injEq] at hclient'
      subst hclient'
      have hrecorded : ∀ j < client.roundEvents.length,
          (if i = i ∧ client.roundEvents.length ≤ j then (currentBlock, currentRound)
            else w.recordedAt i j) = w.recordedAt i j := fun j hj => if_neg (by omega)
      cases heffect with
      | kept hkept => exact (hinv.clients i client hi).kept hkept hblock hrecorded
      | recorded hnew hnegative hpending hpaused =>
        exact (hinv.clients i client hi).recorded hnew hpending hpaused hblock hrecorded
          (if_pos ⟨rfl, Nat.le_refl _⟩)
    · rw [if_neg hik] at hclient'
      refine (hinv.clients k client' hclient').kept ⟨.refl _, rfl, rfl⟩ hblock fun j _ => ?_
      exact if_neg (by omega)
  · intro k client' hclient' hk
    simp only [TakerWorld.afterUpdate, getElem?_modifyClient] at hclient' hk
    by_cases hik : i = k
    · subst hik
      rw [if_pos rfl, hi, Option.map_some, Option.some.injEq] at hclient'
      subst hclient'
      have hnegative : returnsNegative result = true := by
        by_contra hnot
        rw [if_neg hnot] at hk
        exact hmark hk
      cases heffect with
      | kept hkept htimedOut =>
        rw [coinjoinTimedOut_kept hkept]
        exact htimedOut hnegative
      | recorded hnew hnot =>
        rw [hnegative] at hnot
        cases hnot
    · rw [if_neg hik] at hclient'
      have hold : k ∈ w.toMark := by
        split at hk
        · exact (List.mem_cons.mp hk).resolve_left (Ne.symm hik)
        · exact hk
      exact coinjoinTimedOut_mono (hinv.timed_out k client' hclient' hold) hblock

/-- Scans and marks keep the invariant of the engine. -/
theorem TakerWorldInv.change {w : TakerWorld} (hinv : TakerWorldInv w) {engine' : JoinmarketEngine}
    {R : RoundEvent → RoundEvent → Prop} {toMark' : List Nat} (hsub : toMark' ⊆ w.toMark)
    (hclients : w.engine.clients.Forall₂ (OnlyEvents (List.Forall₂ R)) engine'.clients)
    (hR : ∀ (i : Nat) client event event', w.engine.clients[i]? = some client →
      event ∈ client.roundEvents → R event event' →
      AttemptChange (client.coinjoinTimedOut w.block = true) w.block event event') :
    TakerWorldInv { w with engine := engine', toMark := toMark' } := by
  refine ⟨?_, ?_, ?_⟩
  · rw [names_of_onlyEvents hclients]
    exact hinv.names_nodup
  · intro i client' hclient'
    obtain ⟨client, hclient, events', heq, hevents⟩ := forall₂_getElem?_right hclients hclient'
    refine (hinv.clients i client hclient).change ⟨events', heq, ?_⟩
    rw [List.forall₂_iff_get] at hevents ⊢
    refine ⟨hevents.1, fun j hj hj' => ?_⟩
    exact hR i client _ _ hclient (List.getElem_mem hj) (hevents.2 j hj hj')
  · intro i client' hclient' hi
    obtain ⟨client, hclient, events', rfl, -⟩ := forall₂_getElem?_right hclients hclient'
    exact hinv.timed_out i client hclient (hsub hi)

theorem TakerWorldInv.scan {w : TakerWorld} (hinv : TakerWorldInv w) (node : Option BlockSource) :
    TakerWorldInv { w with engine := stateAfter (confirmStartedRounds node) w.engine } := by
  refine hinv.change (R := fun event event' => ∀ timedOut,
    AttemptChange timedOut w.block event event') (List.Subset.refl _) ?_
    fun _ _ _ _ _ _ hchange => hchange _
  apply onlyEvents_scan w.engine node (fun event timedOut => .refl timedOut w.block event)
  intro source tip _ event timedOut
  exact .of_scan timedOut w.block w.engine.liveRoundEvents
    (blocksAbove source w.engine.roundScanHeight tip) event

theorem TakerWorldInv.mark {w : TakerWorld} (hinv : TakerWorldInv w) {i : Nat}
    {client : JoinMarketClientServer} (hi : w.engine.clients[i]? = some client)
    (hmark : i ∈ w.toMark) :
    TakerWorldInv (w.afterMark i client) := by
  refine hinv.change (R := fun event event' => event' = event ∨
      isPendingOf client.name event = true ∧
        event' = markRoundFailed "coinjoin attempt timed out" w.block event) List.erase_subset
    (onlyEvents_mark w.engine _ _ w.block (fun _ => .inl rfl) fun _ hpending => .inr ⟨hpending, rfl⟩)
    ?_
  rintro k client' event event' hk hevent (rfl | ⟨hpending, rfl⟩)
  · exact .refl _ _ _
  · -- the marked event carries the name of its own client, so that client is the one to mark
    have hname : client'.name = client.name := by
      have htaker := (hinv.clients k client' hk).taker_eq event hevent
      have hpendingOf := of_decide_eq_true (Bool.and_eq_true_iff.mp hpending).2
      rw [htaker] at hpendingOf
      simpa [Value.asStr] using hpendingOf
    have hki : k = i := by
      have hkname : (w.engine.clients.map name)[k]? = some client.name := by
        rw [List.getElem?_map, hk, Option.map_some, hname]
      have hiname : (w.engine.clients.map name)[i]? = some client.name := by
        rw [List.getElem?_map, hi, Option.map_some]
      exact (List.getElem?_inj (List.getElem?_eq_some_iff.mp hkname).1 hinv.names_nodup).mp
        (hkname.trans hiname.symm)
    subst hki
    rw [hi, Option.some.injEq] at hk
    exact .of_mark w.block _ hpending (hk ▸ hinv.timed_out k client hi hmark)

theorem takerWorldInv_of_reachable {w : TakerWorld} (h : takerSystem.Reachable w) :
    TakerWorldInv w := by
  refine System.Reachable.invariant ?_ ?_ h
  · intro w hinit
    refine ⟨hinit.names_nodup, fun i client hi => ?_, fun i client hi hmark => ?_⟩
    · have hempty := hinit.roundEvents_eq client (List.mem_of_getElem? hi)
      refine ⟨by simp [hempty], by simp [hempty], by simp [hempty], by simp [hempty], ?_,
        by simp [hempty]⟩
      intro hmax
      rw [hempty, List.countP_nil]
      omega
    · rw [hinit.toMark_eq] at hmark
      simp at hmark
  · intro w w' _ hinv hstep
    cases hstep with
    | update i client path answers currentBlock currentRound result hi hmark hblock hround hrun =>
      have heffect := runUpdate_effect path answers currentBlock currentRound ⟨client, []⟩
      rw [hrun] at heffect
      exact hinv.update hi hmark hblock heffect
    | mark i client hi hmark => exact hinv.mark hi hmark
    | scan node => exact hinv.scan node

/-- The attempts of a taker in every reachable state: only the last one can be pending, no more than
`max_coinjoins` are pending or confirmed, each was recorded inside the schedule, and a failed one
was marked at a block after its timeout. -/
theorem taker_attempts {w : TakerWorld} (h : takerSystem.Reachable w) {i : Nat}
    {client : JoinMarketClientServer} (hi : w.engine.clients[i]? = some client) :
    (∀ (j : Nat) event, client.roundEvents[j]? = some event → hasStatus .started event = true →
      j + 1 = client.roundEvents.length) ∧
    (0 < client.maxCoinjoins → (client.roundEvents.countP
      (fun event => hasStatus .started event || hasStatus .confirmed event) : Int) ≤
        client.maxCoinjoins) ∧
    (∀ (j : Nat) event, client.roundEvents[j]? = some event →
      event.get "start_block" = some (.int (w.recordedAt i j).1) ∧
      client.outsideSchedule (w.recordedAt i j).1 (w.recordedAt i j).2 = false) ∧
    (∀ (j : Nat) event, client.roundEvents[j]? = some event → hasStatus .failed event = true →
      ∃ startBlock stopBlock, event.get "start_block" = some (.int startBlock) ∧
        event.get "stop_block" = some (.int stopBlock) ∧
        startBlock + client.coinjoinTimeoutBlocks < stopBlock ∧ stopBlock ≤ w.block) := by
  have hinv := (takerWorldInv_of_reachable h).clients i client hi
  refine ⟨fun j event hj hstarted => (hinv.started_last j event hj hstarted).1, hinv.limit,
    fun j event hj => ⟨hinv.start_eq j event hj, ?_⟩, fun j event hj hfailed => ?_⟩
  · exact hinv.window j (List.getElem?_eq_some_iff.mp hj).1
  · obtain ⟨stopBlock, hstop, hlt, hle⟩ := hinv.failed j event hj hfailed
    exact ⟨(w.recordedAt i j).1, stopBlock, hinv.start_eq j event hj, hstop, hlt, hle⟩

/-- A taker with one offer and a limit of one coinjoin. -/
def limitedTaker : JoinMarketClientServer where
  name := "jcs-000"
  type := .taker
  delay := (0, 0)
  stop := (0, 0)
  offers := [[("mixdepth", .int 0), ("amount_sats", .int 40000), ("counterparties", .int 4)]]
  timeBetweenRounds := 0
  coinjoinTimeoutBlocks := defaultCoinjoinTimeoutBlocks
  coinjoinTimeoutBlocks_pos := defaultCoinjoinTimeoutBlocks_pos
  maxCoinjoins := 1

/-- jmwalletd is idle and acknowledges a start. -/
def idleAnswers : TakerAnswers where
  utxos := .ok []
  session := .ok (.object false)
  newAddress := .ok "destination"
  startCoinjoin := .ok ()
  stop := .ok ()

def idleWorld : TakerWorld := ⟨⟨[limitedTaker], -1, 0⟩, 0, 0, [], fun _ _ => (0, 0)⟩

/-- An attempt was started at block 0, jmwalletd went idle, and the attempt timed out at block 9. -/
def timedOutWorld : TakerWorld :=
  let started := (update idleAnswers 0 0).run ⟨limitedTaker, []⟩
  let client := (resultState started).client
  let settled := (updateAsync idleAnswers 9 0).run ⟨client, []⟩
  ((idleWorld.afterUpdate 0 limitedTaker 0 0 started).afterUpdate 0 client 9 0 settled).afterMark 0
    (resultState settled).client

theorem timedOutWorld_reachable : takerSystem.Reachable timedOutWorld := by
  have h0 : takerSystem.Reachable idleWorld :=
    .init ⟨by simp [idleWorld, limitedTaker], by simp [idleWorld], rfl⟩
  have h1 := h0.step (.update 0 limitedTaker .sync idleAnswers 0 0 _ rfl (by decide)
    (Int.le_refl 0) (Int.le_refl 0) rfl)
  have h2 := h1.step (.update 0 _ .async idleAnswers 9 0 _ rfl (by decide) (by decide)
    (Int.le_refl 0) rfl)
  exact h2.step (.mark 0 _ rfl (by decide))

theorem taker_attempts_timedOut :
    ∃ client event, timedOutWorld.engine.clients[0]? = some client ∧
      client.roundEvents[0]? = some event ∧
      ∃ startBlock stopBlock, event.get "start_block" = some (.int startBlock) ∧
        event.get "stop_block" = some (.int stopBlock) ∧ startBlock + 8 < stopBlock :=
  ⟨_, _, rfl, rfl, by
    obtain ⟨startBlock, stopBlock, hstart, hstop, hlt, -⟩ :=
      (taker_attempts timedOutWorld_reachable (i := 0) rfl).2.2.2 0 _ rfl rfl
    exact ⟨startBlock, stopBlock, hstart, hstop, hlt⟩⟩

end CoinjoinEmulator
