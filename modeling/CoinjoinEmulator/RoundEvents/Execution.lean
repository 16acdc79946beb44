import CoinjoinEmulator.JoinMarket.TakerRun
import CoinjoinEmulator.RoundEvents.Labels
import CoinjoinEmulator.RoundEvents.Scan

/-! `execution_status`: what the emulator itself knows about an attempt.  The client writes it
before and after the start RPC, the timeout marks change it, and no reconciliation does. -/

namespace CoinjoinEmulator

open ProofKit RoundEventRecord JoinMarketClientServer JoinmarketEngine TakerClient

/-! ### Reconciliation keeps evidence that is present -/

section Evidence

variable {event : RoundEvent} {evidence : Value}
  (h : event.get "execution_status" = some evidence)

include h

theorem preserveExecutionStatus_of_some : preserveExecutionStatus event = event := by
  unfold preserveExecutionStatus
  split
  · split
    · exact Dict.setDefault_of_some _ h
    · rfl
  · rfl

theorem evidence_markDuplicateDestination :
    (markDuplicateDestination event).get "execution_status" = some evidence := by
  rw [markDuplicateDestination, preserveExecutionStatus_of_some h]
  simp [h]

theorem evidence_addDestinationMatch (txid : String) (blockHeight : Int) :
    (addDestinationMatch txid blockHeight event).get "execution_status" = some evidence := by
  simp only [addDestinationMatch, preserveExecutionStatus_of_some h]
  split
  · simp [setDestinationMatches, h]
  · split <;> simp [setDestinationMatches, h]

theorem evidence_creditEvent (paid : List Payment) :
    (creditEvent paid event).get "execution_status" = some evidence := by
  induction paid generalizing event with
  | nil => exact h
  | cons p rest ih =>
    rw [creditEvent_cons]
    split
    · exact ih (evidence_addDestinationMatch h p.txid p.blockHeight)
    · exact ih h

theorem evidence_reconcileEvent (shared : Bool) (paid : List Payment) :
    (reconcileEvent shared paid event).get "execution_status" = some evidence := by
  simp only [reconcileEvent, preserveExecutionStatus_of_some h]
  apply evidence_creditEvent
  split
  · exact evidence_markDuplicateDestination h
  · exact h

theorem evidence_scanEvent (events : List RoundEvent) (paid : List Payment) :
    (scanEvent events paid event).get "execution_status" = some evidence := by
  unfold scanEvent
  split
  · exact evidence_reconcileEvent h _ paid
  · exact h

theorem evidence_exportLabel (events : List RoundEvent) (blocks : List ExportedBlock) (id : Int) :
    (exportLabel events blocks (copyWithExportRoundId event id)).get "execution_status" =
      some evidence := by
  apply evidence_reconcileEvent
  simp [copyWithExportRoundId, h]

end Evidence

/-- A mark replaces the evidence of an acknowledged start only. -/
theorem evidence_markRoundFailed {event : RoundEvent} {evidence : ExecutionStatus}
    (h : event.get "execution_status" = some (.str evidence.text)) (reason : String)
    (stopBlock : Int) :
    (markRoundFailed reason stopBlock event).get "execution_status" =
      some (.str (if evidence = .started then ExecutionStatus.failed else evidence).text) := by
  have hexec : (event.set "status" (.str EventStatus.failed.text)).get "execution_status" =
      some (.str evidence.text) := by simp [h]
  have hisExecuting : isExecuting (event.set "status" (.str EventStatus.failed.text)) =
      decide (evidence = .started) := by
    simp only [isExecuting, hexec]
    cases evidence <;> simp [Value.asStr]
  simp only [markRoundFailed, hisExecuting, decide_eq_true_eq]
  split
  · simp
  · simp [h]

/-! ### The events of an engine by client and position -/

theorem eventAt_modifyClient (engine : JoinmarketEngine) (i i' j : Nat)
    (f : JoinMarketClientServer → JoinMarketClientServer) :
    (engine.modifyClient i f).eventAt i' j =
      if i = i' then engine.clients[i]?.bind fun client => (f client).roundEvents[j]?
      else engine.eventAt i' j := by
  rw [JoinmarketEngine.eventAt, getElem?_modifyClient]
  split
  · rename_i hi
    subst hi
    rw [Option.bind_map]
    rfl
  · rfl

/-- A change of the events one by one, seen from the events before it. -/
theorem eventAt_onlyEvents {R : RoundEvent → RoundEvent → Prop} {engine engine' : JoinmarketEngine}
    (h : engine.clients.Forall₂ (OnlyEvents (List.Forall₂ R)) engine'.clients) {i j : Nat}
    {event : RoundEvent} (hevent : engine.eventAt i j = some event) :
    ∃ event', engine'.eventAt i j = some event' ∧ R event event' := by
  obtain ⟨client, hclient, hj⟩ := eventAt_eq_some.mp hevent
  obtain ⟨client', hclient', events', rfl, hevents⟩ := forall₂_getElem? h hclient
  obtain ⟨event', hevent', hR⟩ := forall₂_getElem? hevents hj
  exact ⟨event', eventAt_eq_some.mpr ⟨_, hclient', hevent'⟩, hR⟩

/-! ### Runs with the outcome of each start RPC -/

/-- How the start RPC of an attempt ended, if it did. -/
inductive StartRpc where
  | pending
  | returned
  | raised
deriving DecidableEq, Repr

/-- The evidence that an attempt leads to. -/
def attemptEvidence (rpc : StartRpc) (timedOut : Bool) : ExecutionStatus :=
  match rpc with
  | .pending => .requested
  | .returned => if timedOut then .failed else .started
  | .raised => .unknown

/-- `table i j`, with one entry changed. -/
def setEntry {α : Type} (table : Nat → Nat → α) (i j : Nat) (entry : α) : Nat → Nat → α :=
  fun i' j' => if i' = i ∧ j' = j then entry else table i' j'

/-- The engine, and as history variables about the event `j` of the client `i` how its start RPC
ended, and whether it was marked as timed out after that RPC had returned. -/
structure AttemptWorld where
  engine : JoinmarketEngine
  rpc : Nat → Nat → StartRpc
  timedOut : Nat → Nat → Bool

structure AttemptWorld.Initial (w : AttemptWorld) : Prop where
  roundEvents_eq : ∀ client ∈ w.engine.clients, client.roundEvents = []
  timedOut_eq : ∀ i j, w.timedOut i j = false

/-- The event `j` of the client `i` has this status. -/
def JoinmarketEngine.hasStatusAt (engine : JoinmarketEngine) (status : EventStatus) (i j : Nat) :
    Bool :=
  (engine.eventAt i j).any (hasStatus status)

/-- The world after a mark turned `w.engine` into `engine'`. -/
def AttemptWorld.afterMark (w : AttemptWorld) (engine' : JoinmarketEngine) : AttemptWorld where
  engine := engine'
  rpc := w.rpc
  timedOut i j := w.timedOut i j || (decide (w.rpc i j = .returned) &&
    w.engine.hasStatusAt .started i j && engine'.hasStatusAt .failed i j)

/-- An attempt is recorded, its start RPC ends or is never answered, and scans, marks, reads and
other changes of the clients come at any time. -/
inductive AttemptStep : AttemptWorld → AttemptWorld → Prop
  | recordStart {w : AttemptWorld} (i : Nat) (client : JoinMarketClientServer)
      (destination amountSats counterparties mixdepth chainHeight : Value) (currentBlock : Int) :
      w.engine.clients[i]? = some client →
      AttemptStep w {
        engine := w.engine.modifyClient i fun client => client.recordRoundStart destination
          amountSats counterparties mixdepth currentBlock chainHeight
        rpc := setEntry w.rpc i client.roundEvents.length .pending
        timedOut := setEntry w.timedOut i client.roundEvents.length false }
  | startEnded {w : AttemptWorld} (i j : Nat) (acknowledged : Bool) : w.rpc i j = .pending →
      AttemptStep w { w with
        engine := w.engine.modifyClient i (·.recordRoundStartOutcome j acknowledged)
        rpc := setEntry w.rpc i j (if acknowledged then .returned else .raised) }
  | scan {w : AttemptWorld} (node : Option BlockSource) :
      AttemptStep w { w with engine := stateAfter (confirmStartedRounds node) w.engine }
  | mark {w : AttemptWorld} (takerName reason : String) (currentBlock : Int) :
      AttemptStep w (w.afterMark
        (stateAfter (markTakerRoundFailed takerName reason currentBlock) w.engine))
  | readConfirmed {w : AttemptWorld} :
      AttemptStep w { w with engine := stateAfter (onLiveEvents confirmedCoinjoinTxids) w.engine }
  | changeClient {w : AttemptWorld} (i : Nat) (client client' : JoinMarketClientServer) :
      w.engine.clients[i]? = some client → client'.roundEvents = client.roundEvents →
      AttemptStep w { w with engine := w.engine.modifyClient i fun _ => client' }

def attemptSystem : System AttemptWorld := ⟨AttemptWorld.Initial, AttemptStep⟩

/-! ### The evidence of every reachable event -/

/-- Each event carries the evidence of its attempt. -/
structure AttemptInv (w : AttemptWorld) : Prop where
  evidence : ∀ i j event, w.engine.eventAt i j = some event → event.get "execution_status" =
    some (.str (attemptEvidence (w.rpc i j) (w.timedOut i j)).text)
  returned : ∀ i j, w.timedOut i j = true → w.rpc i j = .returned

/-- What reconciliation does to the evidence of an event: nothing. -/
def KeepsEvidence (event event' : RoundEvent) : Prop :=
  ∀ evidence, event.get "execution_status" = some evidence →
    event'.get "execution_status" = some evidence

theorem onlyEvents_scan_evidence (engine : JoinmarketEngine) (node : Option BlockSource) :
    engine.clients.Forall₂ (OnlyEvents (List.Forall₂ KeepsEvidence))
      (stateAfter (confirmStartedRounds node) engine).clients :=
  onlyEvents_scan engine node (fun _ _ h => h) fun _ _ _ _ _ h => evidence_scanEvent h _ _

theorem onlyEvents_read_evidence (engine : JoinmarketEngine) :
    engine.clients.Forall₂ (OnlyEvents (List.Forall₂ KeepsEvidence))
      (stateAfter (onLiveEvents confirmedCoinjoinTxids) engine).clients := by
  apply onlyEvents_read engine
  intro event evidence h
  rw [get_persistDestinationMatches (by decide), h]

theorem AttemptInv.of_keepsEvidence {w : AttemptWorld} (hinv : AttemptInv w)
    {engine' : JoinmarketEngine} (h : w.engine.clients.Forall₂
      (OnlyEvents (List.Forall₂ KeepsEvidence)) engine'.clients) :
    AttemptInv { w with engine := engine' } where
  evidence i j event' hevent' := by
    obtain ⟨event, hevent, hkeeps⟩ := eventAt_of_onlyEvents h hevent'
    exact hkeeps _ (hinv.evidence i j event hevent)
  returned := hinv.returned

theorem AttemptInv.recordStart {w : AttemptWorld} (hinv : AttemptInv w) {i : Nat}
    {client : JoinMarketClientServer} (hi : w.engine.clients[i]? = some client)
    (destination amountSats counterparties mixdepth chainHeight : Value) (currentBlock : Int) :
    AttemptInv {
      engine := w.engine.modifyClient i fun client => client.recordRoundStart destination
        amountSats counterparties mixdepth currentBlock chainHeight
      rpc := setEntry w.rpc i client.roundEvents.length .pending
      timedOut := setEntry w.timedOut i client.roundEvents.length false } where
  evidence i' j event hevent := by
    simp only [eventAt_modifyClient, hi, Option.bind_some, recordRoundStart] at hevent
    by_cases hentry : i' = i ∧ j = client.roundEvents.length
    · obtain ⟨rfl, rfl⟩ := hentry
      simp only [if_true, List.getElem?_concat_length, Option.some.injEq] at hevent
      subst hevent
      simp only [setEntry, and_self, if_true]
      rfl
    · simp only [setEntry, hentry, if_false]
      apply hinv.evidence i' j event
      split at hevent
      · rename_i hii
        subst hii
        have hlt := (List.getElem?_eq_some_iff.mp hevent).1
        rw [List.length_append, List.length_singleton] at hlt
        rw [List.getElem?_append_left (by omega)] at hevent
        exact eventAt_eq_some.mpr ⟨client, hi, hevent⟩
      · exact hevent
  returned i' j h := by
    simp only [setEntry] at h ⊢
    split at h
    · cases h
    · rename_i hentry
      rw [if_neg hentry]
      exact hinv.returned i' j h

theorem AttemptInv.startEnded {w : AttemptWorld} (hinv : AttemptInv w) {i j : Nat}
    (hpending : w.rpc i j = .pending) (acknowledged : Bool) :
    AttemptInv { w with
      engine := w.engine.modifyClient i (·.recordRoundStartOutcome j acknowledged)
      rpc := setEntry w.rpc i j (if acknowledged then .returned else .raised) } where
  evidence i' j' event' hevent' := by
    have hfalse : w.timedOut i j = false := by
      rw [Bool.eq_false_iff]
      intro htimedOut
      rw [hinv.returned i j htimedOut] at hpending
      cases hpending
    by_cases hentry : i' = i ∧ j' = j
    · obtain ⟨rfl, rfl⟩ := hentry
      simp only [eventAt_modifyClient, if_true, recordRoundStartOutcome, Option.bind_eq_some_iff,
        List.getElem?_modify, Option.map_eq_map, Option.map_eq_some_iff] at hevent'
      obtain ⟨client, -, event, -, rfl⟩ := hevent'
      simp only [setEntry, and_self, if_true, hfalse, roundStartOutcome]
      cases acknowledged <;> rfl
    · simp only [setEntry, hentry, if_false]
      apply hinv.evidence i' j' event'
      rw [eventAt_modifyClient] at hevent'
      split at hevent'
      · rename_i hii
        subst hii
        have hjj : ¬j = j' := fun hjj => hentry ⟨rfl, hjj.symm⟩
        simp only [recordRoundStartOutcome, List.getElem?_modify, hjj, if_false] at hevent'
        simpa [JoinmarketEngine.eventAt] using hevent'
      · exact hevent'
  returned i' j' h := by
    have hold := hinv.returned i' j' h
    simp only [setEntry]
    split
    · rename_i hentry
      obtain ⟨rfl, rfl⟩ := hentry
      rw [hold] at hpending
      cases hpending
    · exact hold

/-- A mark is seen in the evidence of the event that it fails, if that event's start had been
acknowledged. -/
theorem AttemptInv.mark {w : AttemptWorld} (hinv : AttemptInv w) (takerName reason : String)
    (currentBlock : Int) :
    AttemptInv (w.afterMark
      (stateAfter (markTakerRoundFailed takerName reason currentBlock) w.engine)) where
  evidence i j event' hevent' := by
    have hmarked := onlyEvents_mark (R := fun event event' => event' = event ∨
        hasStatus .started event = true ∧ event' = markRoundFailed reason currentBlock event)
      w.engine takerName reason currentBlock (fun _ => .inl rfl)
      fun event hpending => .inr ⟨(Bool.and_eq_true_iff.mp hpending).1, rfl⟩
    generalize stateAfter (markTakerRoundFailed takerName reason currentBlock) w.engine = engine'
      at hevent' hmarked
    change engine'.eventAt i j = some event' at hevent'
    obtain ⟨event, hevent, hchange⟩ := eventAt_of_onlyEvents hmarked hevent'
    have hold := hinv.evidence i j event hevent
    have hstarted : w.engine.hasStatusAt .started i j = hasStatus .started event := by
      rw [hasStatusAt, hevent, Option.any_some]
    have hfailed : engine'.hasStatusAt .failed i j = hasStatus .failed event' := by
      rw [hasStatusAt, hevent', Option.any_some]
    simp only [AttemptWorld.afterMark, hstarted, hfailed]
    rcases hchange with rfl | ⟨hpending, rfl⟩
    · -- an event that stayed as it is was not both started and failed
      have hnot : (hasStatus .started event' && hasStatus .failed event') = false := by
        rw [Bool.eq_false_iff]
        intro hboth
        rw [Bool.and_eq_true, hasStatus_iff, hasStatus_iff] at hboth
        rw [hboth.1] at hboth
        simp at hboth
      rw [Bool.and_assoc, hnot, Bool.and_false, Bool.or_false]
      exact hold
    · have hnow : hasStatus .failed (markRoundFailed reason currentBlock event) = true := by
        rw [hasStatus_iff, status_markRoundFailed]
      rw [evidence_markRoundFailed hold, hpending, hnow, Bool.and_true, Bool.and_true]
      cases w.rpc i j <;> cases w.timedOut i j <;> rfl
  returned i j h := by
    simp only [AttemptWorld.afterMark, Bool.or_eq_true, Bool.and_eq_true, decide_eq_true_eq] at h
    rcases h with h | h
    · exact hinv.returned i j h
    · exact h.1.1

theorem attemptInv_of_reachable {w : AttemptWorld} (h : attemptSystem.Reachable w) :
    AttemptInv w := by
  refine System.Reachable.invariant ?_ ?_ h
  · intro w hinit
    refine ⟨fun i j event hevent => ?_, fun i j htimedOut => ?_⟩
    · obtain ⟨client, hclient, hj⟩ := eventAt_eq_some.mp hevent
      rw [hinit.roundEvents_eq client (List.mem_of_getElem? hclient)] at hj
      simp at hj
    · rw [hinit.timedOut_eq] at htimedOut
      cases htimedOut
  · intro w w' _ hinv hstep
    cases hstep with
    | recordStart i client _ _ _ _ _ currentBlock hi =>
      exact hinv.recordStart hi _ _ _ _ _ currentBlock
    | startEnded i j acknowledged hpending => exact hinv.startEnded hpending acknowledged
    | scan node => exact hinv.of_keepsEvidence (onlyEvents_scan_evidence w.engine node)
    | mark takerName reason currentBlock => exact hinv.mark takerName reason currentBlock
    | readConfirmed => exact hinv.of_keepsEvidence (onlyEvents_read_evidence w.engine)
    | changeClient i client client' hi hevents =>
      refine ⟨fun i' j event hevent => hinv.evidence i' j event ?_, hinv.returned⟩
      rw [eventAt_modifyClient] at hevent
      split at hevent
      · rename_i hii
        subst hii
        rw [hi, Option.bind_some, hevents] at hevent
        exact eventAt_eq_some.mpr ⟨client, hi, hevent⟩
      · exact hevent

/-! ### The evidence of every exported event -/

/-- The position of the event `j` of the client `i` among all live events. -/
def JoinmarketEngine.eventPosition (engine : JoinmarketEngine) (i j : Nat) : Nat :=
  ((engine.roundEventGroups.take i).map List.length).sum + j

theorem getElem?_roundEventGroups (engine : JoinmarketEngine) (i j : Nat) :
    engine.eventAt i j = engine.roundEventGroups[i]?.bind (·[j]?) := by
  rw [JoinmarketEngine.eventAt, roundEventGroups, List.getElem?_map, Option.bind_map]
  rfl

theorem liveRoundEvents_eventPosition {engine : JoinmarketEngine} {i j : Nat} {event : RoundEvent}
    (h : engine.eventAt i j = some event) :
    engine.liveRoundEvents[engine.eventPosition i j]? = some event := by
  rw [getElem?_roundEventGroups] at h
  obtain ⟨part, hi, hj⟩ := Option.bind_eq_some_iff.mp h
  exact getElem?_flatten_of_part hi hj

theorem exists_eventPosition {engine : JoinmarketEngine} {n : Nat} {event : RoundEvent}
    (h : engine.liveRoundEvents[n]? = some event) :
    ∃ i j, engine.eventAt i j = some event ∧ n = engine.eventPosition i j := by
  obtain ⟨i, j, part, hi, hj, hn⟩ := exists_part_of_getElem?_flatten h
  refine ⟨i, j, ?_, hn⟩
  rw [getElem?_roundEventGroups, hi, Option.bind_some, hj]

/-- An export that raises nothing labels the collected events one by one. -/
theorem labels_of_matchRoundEventsToBlocks {eventGroups : List (List RoundEvent)}
    {blocks : List ExportedBlock} {labels : List RoundEvent}
    (h : matchRoundEventsToBlocks (collectRoundEvents eventGroups) blocks = .ok labels) :
    labels = (collectRoundEvents eventGroups).map
      (exportLabel (collectRoundEvents eventGroups) blocks) := by
  cases hwalk : (walkBlocks (indexedBlocks blocks)).2 with
  | none =>
    rw [matchRoundEventsToBlocks_collected eventGroups hwalk, Except.ok.injEq] at h
    exact h.symm
  | some error =>
    rw [matchRoundEventsToBlocks, run_reconcile_all, hwalk] at h
    cases h

/-- `event["execution_status"]` says this. -/
def HasEvidence (event : RoundEvent) (evidence : ExecutionStatus) : Prop :=
  event.get "execution_status" = some (.str evidence.text)

theorem HasEvidence.iff_eq {event : RoundEvent} {evidence : ExecutionStatus}
    (h : HasEvidence event evidence) (other : ExecutionStatus) :
    HasEvidence event other ↔ evidence = other := by
  unfold HasEvidence at h ⊢
  rw [h]
  cases evidence <;> cases other <;> simp

/-- What the exported record of an attempt says about its start. -/
structure ExportedEvidence (rpc : StartRpc) (timedOut : Bool) (live label : RoundEvent) : Prop where
  requested : HasEvidence label .requested ↔ rpc = .pending
  unknown : HasEvidence label .unknown ↔ rpc = .raised
  failed : HasEvidence label .failed ↔ rpc = .returned ∧ timedOut = true
  started : HasEvidence label .started ↔ rpc = .returned ∧ timedOut = false
  unchanged : label.get "execution_status" = live.get "execution_status"

theorem ExportedEvidence.of_hasEvidence {rpc : StartRpc} {timedOut : Bool}
    {live label : RoundEvent} (hlive : HasEvidence live (attemptEvidence rpc timedOut))
    (hlabel : HasEvidence label (attemptEvidence rpc timedOut)) :
    ExportedEvidence rpc timedOut live label where
  requested := by
    rw [hlabel.iff_eq]
    cases rpc <;> cases timedOut <;> simp [attemptEvidence]
  unknown := by
    rw [hlabel.iff_eq]
    cases rpc <;> cases timedOut <;> simp [attemptEvidence]
  failed := by
    rw [hlabel.iff_eq]
    cases rpc <;> cases timedOut <;> simp [attemptEvidence]
  started := by
    rw [hlabel.iff_eq]
    cases rpc <;> cases timedOut <;> simp [attemptEvidence]
  unchanged := by
    unfold HasEvidence at hlive hlabel
    rw [hlive, hlabel]

/-- In every run each exported record says how the start RPC of its attempt ended and whether the
attempt was marked as timed out after that, whatever the blocks of the export, and no scan of the
run changes what a live event says. -/
theorem execution_status_exact {w : AttemptWorld} (h : attemptSystem.Reachable w) :
    (∀ blocks labels,
      matchRoundEventsToBlocks (collectRoundEvents w.engine.roundEventGroups) blocks = .ok labels →
      (∀ (n : Nat) label, labels[n]? = some label →
        ∃ i j live, w.engine.eventAt i j = some live ∧ n = w.engine.eventPosition i j) ∧
      ∀ i j live, w.engine.eventAt i j = some live →
        ∃ label, labels[w.engine.eventPosition i j]? = some label ∧
          ExportedEvidence (w.rpc i j) (w.timedOut i j) live label) ∧
    ∀ (node : Option BlockSource) i j live, w.engine.eventAt i j = some live →
      ∃ live', (stateAfter (confirmStartedRounds node) w.engine).eventAt i j = some live' ∧
        live'.get "execution_status" = live.get "execution_status" := by
  have hinv := attemptInv_of_reachable h
  refine ⟨fun blocks labels hlabels => ⟨fun n label hn => ?_, fun i j live hlive => ?_⟩,
    fun node i j live hlive => ?_⟩
  · have hlt := (List.getElem?_eq_some_iff.mp hn).1
    rw [labels_of_matchRoundEventsToBlocks hlabels, List.length_map,
      length_collectRoundEvents] at hlt
    obtain ⟨i, j, hevent, hposition⟩ :=
      @exists_eventPosition w.engine n _ (List.getElem?_eq_getElem hlt)
    exact ⟨i, j, _, hevent, hposition⟩
  · have hevidence := hinv.evidence i j live hlive
    have hlive' := liveRoundEvents_eventPosition hlive
    have hlength := (List.getElem?_eq_some_iff.mp hlive').1
    rw [liveRoundEvents, ← length_collectRoundEvents] at hlength
    obtain ⟨live'', hlive'', hcopied⟩ := get_collected (List.getElem?_eq_getElem hlength)
    rw [← liveRoundEvents, hlive', Option.some.injEq] at hlive''
    subst hlive''
    refine ⟨exportLabel (collectRoundEvents w.engine.roundEventGroups) blocks
      (copyWithExportRoundId live (w.engine.eventPosition i j + 1)), ?_,
      .of_hasEvidence hevidence (evidence_exportLabel hevidence _ blocks _)⟩
    rw [labels_of_matchRoundEventsToBlocks hlabels, List.getElem?_map,
      List.getElem?_eq_getElem hlength, hcopied, Option.map_some]
  · obtain ⟨live', hlive', hkeeps⟩ :=
      eventAt_onlyEvents (onlyEvents_scan_evidence w.engine node) hlive
    have hevidence := hinv.evidence i j live hlive
    exact ⟨live', hlive', by rw [hkeeps _ hevidence, hevidence]⟩

/-- An attempt that was acknowledged, scanned over and then marked as timed out. -/
def failedAttempt : AttemptWorld :=
  let started : AttemptWorld := {
    engine := ((JoinmarketEngine.mk [exampleTaker] (-1) 0).modifyClient 0 fun client =>
      client.recordRoundStart (.str "destination") .none .none .none 0).modifyClient 0
        (·.recordRoundStartOutcome 0 true)
    rpc := setEntry (setEntry (fun _ _ => .raised) 0 0 .pending) 0 0 .returned
    timedOut := setEntry (fun _ _ => false) 0 0 false }
  started.afterMark
    (stateAfter (markTakerRoundFailed "jcs-000" "coinjoin attempt timed out" 9) started.engine)

theorem failedAttempt_reachable : attemptSystem.Reachable failedAttempt := by
  have h0 : attemptSystem.Reachable
      ⟨JoinmarketEngine.mk [exampleTaker] (-1) 0, fun _ _ => .raised, fun _ _ => false⟩ :=
    .init ⟨by simp [exampleTaker], fun _ _ => rfl⟩
  have h1 := h0.step (.recordStart 0 exampleTaker (.str "destination") .none .none .none .none 0 rfl)
  have h2 := h1.step (.startEnded 0 0 true rfl)
  exact h2.step (.mark "jcs-000" "coinjoin attempt timed out" 9)

theorem execution_status_exact_failedAttempt :
    ∃ label, matchRoundEventsToBlocks (collectRoundEvents failedAttempt.engine.roundEventGroups)
        [] = .ok [label] ∧ HasEvidence label .failed := by
  refine ⟨_, rfl, ?_⟩
  obtain ⟨label, hlabel, hevidence⟩ :=
    ((execution_status_exact failedAttempt_reachable).1 [] _ rfl).2 0 0 _ rfl
  cases hlabel
  exact hevidence.failed.mpr ⟨rfl, rfl⟩

/-! ### The takers of the engine -/

def TakerRequest.isStart : TakerRequest → Bool
  | .startCoinjoin _ => true
  | .stopTaker | .stopMaker => false

/-- The start RPC of an update returned: its request was sent, and answered without an exception. -/
def startReturned (answers : TakerAnswers) (result : EStateM.Result PyError TakerState Int) :
    Bool :=
  (resultState result).requests.any TakerRequest.isStart && answers.startCoinjoin.isOk

/-- An update leaves the attempts of its client, or records one and then how its start RPC ended:
the update raises if and only if the start was not acknowledged. -/
def UpdatesAttempts (answers : TakerAnswers) (client : JoinMarketClientServer) (currentBlock : Int)
    (result : EStateM.Result PyError TakerState Int) : Prop :=
  (resultState result).client.roundEvents = client.roundEvents ∨
    ∃ destination amountSats counterparties mixdepth : Value,
      (resultState result).client.roundEvents = ((client.recordRoundStart destination amountSats
        counterparties mixdepth currentBlock).recordRoundStartOutcome client.roundEvents.length
          (startReturned answers result)).roundEvents ∧
      (startReturned answers result = true ↔ ∃ delta s', result = .ok delta s')

theorem UpdatesAttempts.recorded {answers : TakerAnswers} {client : JoinMarketClientServer}
    {currentBlock : Int} {result : EStateM.Result PyError TakerState Int} {acknowledged : Bool}
    (hreturned : startReturned answers result = acknowledged)
    {destination amountSats counterparties mixdepth : Value}
    (hevents : (resultState result).client.roundEvents = ((client.recordRoundStart destination
      amountSats counterparties mixdepth currentBlock).recordRoundStartOutcome
        client.roundEvents.length acknowledged).roundEvents)
    (hresult : acknowledged = true ↔ ∃ delta s', result = .ok delta s') :
    UpdatesAttempts answers client currentBlock result := by
  subst hreturned
  exact .inr ⟨_, _, _, _, hevents, hresult⟩

/-- The start call returns exactly if the request is sent and acknowledged. -/
theorem returned_startCoinjoin (answers : TakerAnswers) (offer : Offer) {s : TakerState}
    (hs : s.requests = []) :
    ∃ requests, ((startCoinjoin answers offer).run s = .ok () { s with requests := requests } ∧
        (requests.any TakerRequest.isStart && answers.startCoinjoin.isOk) = true) ∨
      ∃ error, (startCoinjoin answers offer).run s = .error error { s with requests := requests } ∧
        (requests.any TakerRequest.isStart && answers.startCoinjoin.isOk) = false := by
  simp only [startCoinjoin, EStateM.run_bind, run_ofExcept, request, EStateM.run_modify]
  cases startCoinjoinArguments offer with
  | error error => exact ⟨s.requests, .inr ⟨error, rfl, by rw [hs]; rfl⟩⟩
  | ok jsonData =>
    cases answers.startCoinjoin with
    | error error =>
      exact ⟨s.requests ++ [.startCoinjoin jsonData], .inr ⟨error, rfl, Bool.and_false _⟩⟩
    | ok _ => exact ⟨s.requests ++ [.startCoinjoin jsonData], .inl ⟨rfl, by rw [hs]; rfl⟩⟩

theorem startAttempt_updatesAttempts (answers : TakerAnswers) (currentBlock currentRound : Int)
    {s : TakerState} (hs : s.requests = []) :
    UpdatesAttempts answers s.client currentBlock
      ((startAttempt (startCoinjoin answers) answers currentBlock currentRound).run s) := by
  simp only [startAttempt, EStateM.run_bind]
  rcases run_prepareAttempt answers currentRound s with ⟨error, hprepare⟩ | ⟨offer, offers, hprepare⟩
  · rw [hprepare]
    exact .inl rfl
  · simp only [hprepare, run_recordAttempt, run_tryCatch]
    generalize hrecorded : TakerState.mk { JoinMarketClientServer.recordRoundStart _ _ _ _ _ _ with
      coinjoinStart := currentBlock } s.requests = recorded
    have hnone : recorded.requests = [] := by rw [← hrecorded, hs]
    obtain ⟨requests, ⟨hstart, hreturned⟩ | ⟨error, hstart, hreturned⟩⟩ :=
      returned_startCoinjoin answers offer hnone
    · simp only [hstart, run_noteAttemptStarted]
      subst hrecorded
      exact .recorded hreturned rfl (iff_of_true rfl ⟨_, _, rfl⟩)
    · simp only [hstart, onClient, EStateM.run_bind, EStateM.run_modify]
      subst hrecorded
      refine .recorded hreturned rfl (iff_of_false Bool.false_ne_true ?_)
      rintro ⟨delta, s', hresult⟩
      cases hresult

theorem UpdatesAttempts.of_kept {answers : TakerAnswers} {client client' : JoinMarketClientServer}
    {currentBlock : Int} {result : EStateM.Result PyError TakerState Int}
    (hkept : KeptAttempts client client')
    (h : UpdatesAttempts answers client' currentBlock result) :
    UpdatesAttempts answers client currentBlock result := by
  rcases h with h | ⟨destination, amountSats, counterparties, mixdepth, h, hresult⟩
  · exact .inl (h.trans hkept.roundEvents_eq)
  · refine .inr ⟨destination, amountSats, counterparties, mixdepth, ?_, hresult⟩
    rw [h]
    simp only [recordRoundStartOutcome, recordRoundStart, roundStartEvent, hkept.roundEvents_eq,
      hkept.settings.name_eq]

theorem update_updatesAttempts (answers : TakerAnswers) (currentBlock currentRound : Int)
    (client : JoinMarketClientServer) :
    UpdatesAttempts answers client currentBlock
      ((update answers currentBlock currentRound).run ⟨client, []⟩) := by
  rcases update_cases answers currentBlock currentRound ⟨client, []⟩ with
    ⟨inProcess, hsession⟩ | ⟨error, hrun⟩
  · rw [run_update hsession]
    apply UpdatesAttempts.of_kept (keptAttempts_refreshed answers inProcess client)
    dsimp only
    split
    · exact .inl rfl
    · split
      · exact startAttempt_updatesAttempts answers currentBlock currentRound rfl
      · split
        · rw [run_stopTimedOutAttempt]
          exact .inl rfl
        · exact .inl rfl
  · rw [hrun]
    exact .inl (keptAttempts_updateCoinHistory answers.utxos client).roundEvents_eq

theorem updateAsync_updatesAttempts (answers : TakerAnswers) (currentBlock currentRound : Int)
    (client : JoinMarketClientServer) :
    UpdatesAttempts answers client currentBlock
      ((updateAsync answers currentBlock currentRound).run ⟨client, []⟩) := by
  rcases updateAsync_cases answers currentBlock currentRound ⟨client, []⟩ with
    ⟨inProcess, hsession⟩ | ⟨error, hrun⟩
  · rw [run_updateAsync hsession]
    apply UpdatesAttempts.of_kept (keptAttempts_refreshed answers inProcess client)
    dsimp only
    split
    · exact .inl rfl
    · split
      · exact .inl rfl
      · split
        · exact startAttempt_updatesAttempts answers currentBlock currentRound rfl
        · split
          · rw [run_stopTimedOutAttempt]
            exact .inl rfl
          · exact .inl rfl
  · rw [hrun]
    exact .inl (keptAttempts_updateCoinHistory answers.utxos client).roundEvents_eq

theorem runUpdate_updatesAttempts (path : UpdatePath) (answers : TakerAnswers)
    (currentBlock currentRound : Int) (client : JoinMarketClientServer) :
    UpdatesAttempts answers client currentBlock
      ((runUpdate path answers currentBlock currentRound).run ⟨client, []⟩) := by
  cases path with
  | sync => exact update_updatesAttempts answers currentBlock currentRound client
  | async => exact updateAsync_updatesAttempts answers currentBlock currentRound client

/-! ### The start RPCs of the takers -/

/-- The takers, and as history variables about the event `j` of the client `i` how the start RPC of
the update that recorded it ended, and whether it was marked as timed out after that. -/
structure RpcWorld where
  taker : TakerWorld
  rpc : Nat → Nat → StartRpc
  timedOut : Nat → Nat → Bool

/-- The attempts of the takers. -/
def RpcWorld.attempts (w : RpcWorld) : AttemptWorld := ⟨w.taker.engine, w.rpc, w.timedOut⟩

/-- The world after an update of the client `i`: an attempt that it recorded has the outcome of its
start RPC. -/
def RpcWorld.afterUpdate (w : RpcWorld) (i : Nat) (client : JoinMarketClientServer)
    (answers : TakerAnswers) (currentBlock currentRound : Int)
    (result : EStateM.Result PyError TakerState Int) : RpcWorld :=
  let taker := w.taker.afterUpdate i client currentBlock currentRound result
  if client.roundEvents.length < (resultState result).client.roundEvents.length then {
    taker
    rpc := setEntry w.rpc i client.roundEvents.length
      (if startReturned answers result then .returned else .raised)
    timedOut := setEntry w.timedOut i client.roundEvents.length false }
  else { w with taker }

/-- The steps of the takers, with the history of their start RPCs. -/
inductive RpcStep : RpcWorld → RpcWorld → Prop
  | update {w : RpcWorld} (i : Nat) (client : JoinMarketClientServer) (path : UpdatePath)
      (answers : TakerAnswers) (currentBlock currentRound : Int)
      (result : EStateM.Result PyError TakerState Int) :
      w.taker.engine.clients[i]? = some client → i ∉ w.taker.toMark →
      w.taker.block ≤ currentBlock → w.taker.round ≤ currentRound →
      (runUpdate path answers currentBlock currentRound).run ⟨client, []⟩ = result →
      RpcStep w (w.afterUpdate i client answers currentBlock currentRound result)
  | mark {w : RpcWorld} (i : Nat) (client : JoinMarketClientServer) :
      w.taker.engine.clients[i]? = some client → i ∈ w.taker.toMark →
      RpcStep w { w with
        taker := w.taker.afterMark i client
        timedOut := (w.attempts.afterMark (w.taker.afterMark i client).engine).timedOut }
  | scan {w : RpcWorld} (node : Option BlockSource) :
      RpcStep w { w with taker := { w.taker with
        engine := stateAfter (confirmStartedRounds node) w.taker.engine } }

structure RpcWorld.Initial (w : RpcWorld) : Prop where
  taker : w.taker.Initial
  timedOut_eq : ∀ i j, w.timedOut i j = false

def rpcSystem : System RpcWorld := ⟨RpcWorld.Initial, RpcStep⟩

@[simp] theorem RpcWorld.taker_afterUpdate (w : RpcWorld) (i : Nat)
    (client : JoinMarketClientServer) (answers : TakerAnswers) (currentBlock currentRound : Int)
    (result : EStateM.Result PyError TakerState Int) :
    (w.afterUpdate i client answers currentBlock currentRound result).taker =
      w.taker.afterUpdate i client currentBlock currentRound result := by
  unfold RpcWorld.afterUpdate
  split <;> rfl

/-- Every run of the takers has such a history. -/
theorem exists_rpcReachable {w : TakerWorld} (h : takerSystem.Reachable w) :
    ∃ w', rpcSystem.Reachable w' ∧ w'.taker = w := by
  induction h with
  | init hinit =>
    exact ⟨⟨_, fun _ _ => .pending, fun _ _ => false⟩, .init ⟨hinit, fun _ _ => rfl⟩, rfl⟩
  | step _ hstep ih =>
    obtain ⟨w', hreach, rfl⟩ := ih
    cases hstep with
    | update i client path answers currentBlock currentRound result hi hmark hblock hround hrun =>
      exact ⟨_, hreach.step (.update i client path answers currentBlock currentRound result hi hmark
        hblock hround hrun), w'.taker_afterUpdate ..⟩
    | mark i client hi hmark => exact ⟨_, hreach.step (.mark i client hi hmark), rfl⟩
    | scan node => exact ⟨_, hreach.step (.scan node), rfl⟩

theorem setEntry_setEntry {α : Type} (table : Nat → Nat → α) (i j : Nat) (entry entry' : α) :
    setEntry (setEntry table i j entry) i j entry' = setEntry table i j entry' := by
  funext i' j'
  simp only [setEntry]
  split <;> rfl

/-- An update of a client is a run of attempt steps, which records the outcome of its start RPC. -/
theorem attemptRun_of_updatesAttempts {w : RpcWorld} {i : Nat} {client : JoinMarketClientServer}
    (hi : w.taker.engine.clients[i]? = some client) {answers : TakerAnswers}
    {currentBlock currentRound : Int} {result : EStateM.Result PyError TakerState Int}
    (h : UpdatesAttempts answers client currentBlock result) :
    attemptSystem.Run w.attempts
      (w.afterUpdate i client answers currentBlock currentRound result).attempts := by
  rcases h with h | ⟨destination, amountSats, counterparties, mixdepth, h, -⟩
  · rw [RpcWorld.afterUpdate, if_neg (by rw [h]; exact Nat.lt_irrefl _)]
    exact .single (.changeClient i client _ hi h)
  · have hlength : client.roundEvents.length < (resultState result).client.roundEvents.length := by
      rw [h]
      simp [recordRoundStartOutcome, recordRoundStart]
    rw [RpcWorld.afterUpdate, if_pos hlength]
    set recorded := client.recordRoundStart destination amountSats counterparties mixdepth
      currentBlock with hrecorded
    set ended := recorded.recordRoundStartOutcome client.roundEvents.length
      (startReturned answers result) with hended
    have hrecord : attemptSystem.Run w.attempts _ := .single
      (.recordStart i client destination amountSats counterparties mixdepth .none currentBlock hi)
    have hend := hrecord.tail (.startEnded i client.roundEvents.length
      (startReturned answers result) (by simp [setEntry]))
    have hclient : ((w.taker.engine.modifyClient i fun client => client.recordRoundStart destination
        amountSats counterparties mixdepth currentBlock).modifyClient i
          (·.recordRoundStartOutcome client.roundEvents.length
            (startReturned answers result))).clients[i]? = some ended := by
      simp only [getElem?_modifyClient, if_true, hi, Option.map_some]
      rfl
    have hrun := hend.tail (.changeClient i ended (resultState result).client hclient h)
    have hengine : (((w.taker.engine.modifyClient i fun client => client.recordRoundStart
        destination amountSats counterparties mixdepth currentBlock).modifyClient i
          (·.recordRoundStartOutcome client.roundEvents.length
            (startReturned answers result))).modifyClient i fun _ => (resultState result).client) =
        w.taker.engine.modifyClient i fun _ => (resultState result).client := by
      simp only [JoinmarketEngine.modifyClient, List.modify_modify_eq]
      rfl
    rw [RpcWorld.attempts, hengine, setEntry_setEntry] at hrun
    exact hrun

/-- The engine with its takers runs as attempts do, with the outcomes of its own start RPCs: every
run of updates, scans and marks is one of attempt steps. -/
theorem attemptReachable_of_taker {w : RpcWorld} (h : rpcSystem.Reachable w) :
    attemptSystem.Reachable w.attempts := by
  induction h with
  | init hinit => exact .init ⟨hinit.taker.roundEvents_eq, hinit.timedOut_eq⟩
  | step _ hstep ih =>
    cases hstep with
    | update i client path answers currentBlock currentRound result hi _ _ _ hrun =>
      have hupdates : UpdatesAttempts answers client currentBlock result := by
        rw [← hrun]
        exact runUpdate_updatesAttempts path answers currentBlock currentRound client
      exact ih.run (attemptRun_of_updatesAttempts hi hupdates)
    | mark i client hi hmark => exact ih.step (.mark client.name _ _)
    | scan node => exact ih.step (.scan node)

end CoinjoinEmulator
