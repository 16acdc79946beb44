import CoinjoinEmulator.ProofKit.Runs
import CoinjoinEmulator.RoundEvents.Reconcile
import Mathlib.Data.Int.Range

/-! Confirmation of in-run round attempts against the blocks mined on the node. -/

namespace CoinjoinEmulator

open ProofKit RoundEventRecord ExportedBlockRecord

/-- The answers of the node RPCs needed to walk mined blocks, or the exceptions that they raise. -/
structure BlockSource where
  getBlockCount : Except PyError Int
  getBlockHash : Int → Except PyError String
  getBlockInfo : String → Except PyError ExportedBlock

/-- `(height, node.get_block_info(node.get_block_hash(height)))`. -/
def BlockSource.block (node : BlockSource) (height : Int) :
    Except PyError (Int × ExportedBlock) := do
  let blockHash ← node.getBlockHash height
  let block ← node.getBlockInfo blockHash
  return (height, block)

theorem BlockSource.height_of_block {node : BlockSource} {h h' : Int} {block : ExportedBlock}
    (hblock : node.block h = .ok (h', block)) : h' = h := by
  unfold BlockSource.block at hblock
  cases hhash : node.getBlockHash h with
  | error error => rw [hhash] at hblock; cases hblock
  | ok hash =>
    cases hinfo : node.getBlockInfo hash with
    | error error => simp only [hhash, bind, Except.bind, hinfo] at hblock; cases hblock
    | ok info =>
      simp only [hhash, bind, Except.bind, hinfo] at hblock
      cases hblock
      rfl

/-- `event.get("status") == status`. -/
def hasStatus (status : EventStatus) (event : RoundEvent) : Bool :=
  RoundEventRecord.status event = some status.text

theorem hasStatus_iff {s : EventStatus} {event : RoundEvent} :
    hasStatus s event = true ↔ RoundEventRecord.status event = some s.text :=
  decide_eq_true_iff

/-- The blocks above `scannedHeight`, up to `tip`. -/
def blocksAbove (node : BlockSource) (scannedHeight tip : Int) :
    List (Except PyError (Int × ExportedBlock)) :=
  (Int.range (scannedHeight + 1) (tip + 1)).map node.block

/-- Match pending destinations in blocks above `scannedHeight`; return the tip that was scanned. -/
def confirmRoundsInBlocks (node : BlockSource) (scannedHeight : Int) : Reconcile Int := do
  let tip ← ofExcept node.getBlockCount
  let events ← get
  let pending := refsWhere (hasStatus .started) events
  reconcileRoundEventDestinations pending (blocksAbove node scannedHeight tip)
  return tip

/-- Rounds whose destination was found in exactly one mined transaction. -/
def countConfirmedRounds (events : List RoundEvent) : Nat :=
  events.countP (hasStatus .confirmed)

/-- `event.get("execution_status", "started") == "started"`. -/
def isExecuting (event : RoundEvent) : Bool :=
  match event.get "execution_status" with
  | none => true
  | some value => value.asStr = some ExecutionStatus.started.text

/-- What marking does to a pending attempt. -/
def markRoundFailed (reason : String) (stopBlock : Int) (event : RoundEvent) : RoundEvent :=
  let event := event.set "status" (.str EventStatus.failed.text)
  let event :=
    if isExecuting event then
      event.set "execution_status" (.str ExecutionStatus.failed.text)
    else event
  let event := event.set "failure_reason" (.str reason)
  event.set "stop_block" (.int stopBlock)

/-- `event.get("status") == "started" and event.get("taker") == taker`. -/
def isPendingOf (taker : String) (event : RoundEvent) : Bool :=
  hasStatus .started event && decide ((event.get "taker").bind Value.asStr = some taker)

/-- Mark and return a taker's latest pending attempt as failed. -/
def markLatestStartedRoundFailed (taker reason : String) (stopBlock : Int) :
    Reconcile (Option RoundEvent) := do
  let events ← get
  match (List.range events.length).reverse.find? fun ref => events[ref]?.any (isPendingOf taker) with
  | some ref =>
    touch (markRoundFailed reason stopBlock) ref
    return (← get)[ref]?
  | none => return none

/-- Keep only the matches that satisfy the exported event contract, as reading them does. -/
def persistDestinationMatches (event : RoundEvent) : RoundEvent :=
  setDestinationMatches event (destinationMatches event)

/-- Transactions of the rounds confirmed so far. -/
def confirmedCoinjoinTxids : Reconcile (List String) := do
  let events ← get
  forM (List.range events.length) (touch persistDestinationMatches)
  return (events.filterMap confirmedDestinationTxid).foldl insertNew []

/-! ### What marking and reading leave of an event -/

theorem get_markRoundFailed {k : String}
    (hk : k ∉ ["status", "execution_status", "failure_reason", "stop_block"]) (reason : String)
    (stopBlock : Int) (event : RoundEvent) :
    (markRoundFailed reason stopBlock event).get k = event.get k := by
  simp only [List.mem_cons, List.not_mem_nil, or_false, not_or] at hk
  obtain ⟨hstatus, hexec, hreason, hstop⟩ := hk
  simp only [markRoundFailed, Dict.get_set, hreason, hstop, if_false]
  split <;> simp [hstatus, hexec]

@[simp] theorem destinationAddress_markRoundFailed (reason : String) (stopBlock : Int)
    (event : RoundEvent) :
    destinationAddress (markRoundFailed reason stopBlock event) = destinationAddress event :=
  destinationAddress_congr (get_markRoundFailed (by decide) reason stopBlock event)

@[simp] theorem destinationMatches_markRoundFailed (reason : String) (stopBlock : Int)
    (event : RoundEvent) :
    destinationMatches (markRoundFailed reason stopBlock event) = destinationMatches event :=
  destinationMatches_congr (get_markRoundFailed (by decide) reason stopBlock event)

@[simp] theorem status_markRoundFailed (reason : String) (stopBlock : Int) (event : RoundEvent) :
    status (markRoundFailed reason stopBlock event) = some EventStatus.failed.text := by
  have hget : (markRoundFailed reason stopBlock event).get "status" =
      some (.str EventStatus.failed.text) := by
    unfold markRoundFailed
    dsimp only
    split <;> simp
  simp [status, hget, Value.asStr]

theorem get_persistDestinationMatches {k : String} (hk : k ≠ "destination_matches")
    (event : RoundEvent) : (persistDestinationMatches event).get k = event.get k := by
  simp [persistDestinationMatches, setDestinationMatches, hk]

@[simp] theorem destinationAddress_persistDestinationMatches (event : RoundEvent) :
    destinationAddress (persistDestinationMatches event) = destinationAddress event :=
  destinationAddress_congr (get_persistDestinationMatches (by decide) event)

@[simp] theorem status_persistDestinationMatches (event : RoundEvent) :
    status (persistDestinationMatches event) = status event :=
  status_congr (get_persistDestinationMatches (by decide) event)

@[simp] theorem destinationMatches_persistDestinationMatches (event : RoundEvent) :
    destinationMatches (persistDestinationMatches event) = destinationMatches event :=
  destinationMatches_setDestinationMatches fun _ => txid_ne_of_mem_destinationMatches

/-! ### What a scan does -/

/-- One event after a scan that finds `paid`: only pending events are matched. -/
def scanEvent (events : List RoundEvent) (paid : List Payment) (event : RoundEvent) : RoundEvent :=
  if hasStatus .started event then
    reconcileEvent (sharesDestination (events.filter (hasStatus .started)) event) paid event
  else event

/-- A scan that gets no block count changes nothing. -/
theorem run_confirmRoundsInBlocks_error {node : BlockSource} {error : PyError}
    (hcount : node.getBlockCount = .error error) (scannedHeight : Int)
    (events : List RoundEvent) :
    (confirmRoundsInBlocks node scannedHeight).run events = .error error events := by
  simp only [confirmRoundsInBlocks, hcount, run_ofExcept, EStateM.run_bind]

/-- A scan changes each pending event on its own, also when an exception ends it early. -/
theorem run_confirmRoundsInBlocks_ok {node : BlockSource} {tip : Int}
    (hcount : node.getBlockCount = .ok tip) (scannedHeight : Int) (events : List RoundEvent) :
    (confirmRoundsInBlocks node scannedHeight).run events =
      match walkBlocks (blocksAbove node scannedHeight tip) with
      | (paid, none) => .ok tip (events.map (scanEvent events paid))
      | (paid, some error) => .error error (events.map (scanEvent events paid)) := by
  simp only [confirmRoundsInBlocks, hcount, run_ofExcept, EStateM.run_bind, EStateM.run_get,
    run_reconcileRoundEventDestinations]
  rcases walkBlocks (blocksAbove node scannedHeight tip) with ⟨paid, _ | error⟩ <;> rfl

theorem run_confirmedCoinjoinTxids (events : List RoundEvent) :
    confirmedCoinjoinTxids.run events =
      .ok ((events.filterMap confirmedDestinationTxid).foldl insertNew [])
        (events.map persistDestinationMatches) := by
  simp only [confirmedCoinjoinTxids, EStateM.run_bind, EStateM.run_get, run_forM_touch,
    EStateM.run_pure]
  congr 1
  apply List.ext_getElem?
  intro i
  rw [getElem?_touchAll _ List.nodup_range, List.getElem?_map]
  rcases hi : events[i]? with _ | event
  · rfl
  · simp [(List.getElem?_eq_some_iff.mp hi).1]

/-- Marking changes at most one event, a pending one of the taker. -/
theorem run_markLatestStartedRoundFailed (taker reason : String) (stopBlock : Int)
    (events : List RoundEvent) :
    ∃ marked events', (markLatestStartedRoundFailed taker reason stopBlock).run events =
        .ok marked events' ∧
      events.Forall₂ (fun event event' => event' = event ∨
        isPendingOf taker event = true ∧ event' = markRoundFailed reason stopBlock event)
        events' := by
  simp only [markLatestStartedRoundFailed, EStateM.run_bind, EStateM.run_get]
  cases hfind : (List.range events.length).reverse.find?
      fun ref => events[ref]?.any (isPendingOf taker) with
  | none => exact ⟨none, events, rfl, List.forall₂_same.mpr fun event _ => .inl rfl⟩
  | some ref =>
    refine ⟨_, events.modify ref (markRoundFailed reason stopBlock), rfl, ?_⟩
    have hpending := List.find?_some hfind
    refine forall₂_modify (fun event _ => .inl rfl) fun event hevent => .inr ⟨?_, rfl⟩
    simpa [hevent] using hpending

end CoinjoinEmulator
