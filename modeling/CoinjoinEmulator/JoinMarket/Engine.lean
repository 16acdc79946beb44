import CoinjoinEmulator.JoinMarket.Client
import CoinjoinEmulator.ProofKit.Effect
import CoinjoinEmulator.ProofKit.Runs
import CoinjoinEmulator.RoundEvents.Confirmation

/-! The part of the JoinMarket engine that owns the round counter.  The round events belong to the
clients; the engine reads and changes them in place through one flat list. -/

namespace CoinjoinEmulator

open ProofKit RoundEventRecord

structure JoinmarketEngine where
  clients : List JoinMarketClientServer
  roundScanHeight : Int := -1
  currentRound : Nat := 0

namespace JoinmarketEngine

def roundEventGroups (engine : JoinmarketEngine) : List (List RoundEvent) :=
  engine.clients.map JoinMarketClientServer.roundEvents

def liveRoundEvents (engine : JoinmarketEngine) : List RoundEvent :=
  engine.roundEventGroups.flatten

/-- The engine whose live events, in their order, are `events`. -/
def withRoundEvents (engine : JoinmarketEngine) (events : List RoundEvent) : JoinmarketEngine :=
  { engine with
    clients := List.zipWith (fun client roundEvents => { client with roundEvents := roundEvents })
      engine.clients ((engine.roundEventGroups.map List.length).splitLengths events) }

/-- Run a loop over the live events; it changes the events of the clients, also when it raises. -/
def onLiveEvents {α : Type} (loop : Reconcile α) : EStateM PyError JoinmarketEngine α := fun engine =>
  match loop.run engine.liveRoundEvents with
  | .ok a events => .ok a (engine.withRoundEvents events)
  | .error error events => .error error (engine.withRoundEvents events)

/-- Count a round only once its unique destination appears in a mined block. -/
def confirmStartedRounds (node : Option BlockSource) : EStateM PyError JoinmarketEngine Nat := do
  match node with
  | none => return 0
  | some node =>
    let tip ← onLiveEvents (confirmRoundsInBlocks node (← get).roundScanHeight)
    modify fun engine => { engine with roundScanHeight := tip }
    modify fun engine => { engine with currentRound := countConfirmedRounds engine.liveRoundEvents }
    return (← get).currentRound

def markTakerRoundFailed (takerName reason : String) (currentBlock : Int) :
    EStateM PyError JoinmarketEngine (Option RoundEvent) :=
  onLiveEvents (markLatestStartedRoundFailed takerName reason currentBlock)

/-- `self.clients[i]` changed by one of its methods. -/
def modifyClient (engine : JoinmarketEngine) (i : Nat)
    (f : JoinMarketClientServer → JoinMarketClientServer) : JoinmarketEngine :=
  { engine with clients := engine.clients.modify i f }

/-- The events of one client after another change of them: nothing else of the client changed. -/
def OnlyEvents (R : List RoundEvent → List RoundEvent → Prop)
    (client client' : JoinMarketClientServer) : Prop :=
  ∃ roundEvents', client' = { client with roundEvents := roundEvents' } ∧
    R client.roundEvents roundEvents'

theorem forall₂_withRoundEvents {R : RoundEvent → RoundEvent → Prop} {engine : JoinmarketEngine}
    {events : List RoundEvent} (h : engine.liveRoundEvents.Forall₂ R events) :
    engine.clients.Forall₂ (OnlyEvents (List.Forall₂ R))
      (engine.withRoundEvents events).clients := by
  have hgroups := forall₂_splitLengths h
  simp only [withRoundEvents]
  generalize (engine.roundEventGroups.map List.length).splitLengths events = parts at hgroups ⊢
  simp only [roundEventGroups] at hgroups
  generalize engine.clients = clients at hgroups ⊢
  induction clients generalizing parts with
  | nil => exact .nil
  | cons client rest ih =>
    cases hgroups with
    | cons hfirst hrest => exact .cons ⟨_, rfl, hfirst⟩ (ih _ hrest)

section OnLiveEvents

variable {α : Type} {loop : Reconcile α} {engine : JoinmarketEngine} {events : List RoundEvent}

theorem run_onLiveEvents_ok {a : α} (h : loop.run engine.liveRoundEvents = .ok a events) :
    (onLiveEvents loop).run engine = .ok a (engine.withRoundEvents events) := by
  simp only [EStateM.run, onLiveEvents] at h ⊢
  rw [h]

theorem run_onLiveEvents_error {error : PyError}
    (h : loop.run engine.liveRoundEvents = .error error events) :
    (onLiveEvents loop).run engine = .error error (engine.withRoundEvents events) := by
  simp only [EStateM.run, onLiveEvents] at h ⊢
  rw [h]

end OnLiveEvents

/-- What a scan of the engine can end with: no block count, an abort after the blocks that `paid`
comes from, or a completed scan up to `tip`. -/
inductive ScanOutcome (node : BlockSource) (engine : JoinmarketEngine) :
    EStateM.Result PyError JoinmarketEngine Nat → Prop
  | noCount (error : PyError) : node.getBlockCount = .error error →
      ScanOutcome node engine (.error error (engine.withRoundEvents engine.liveRoundEvents))
  | aborted (tip : Int) (paid : List Payment) (error : PyError) : node.getBlockCount = .ok tip →
      walkBlocks (blocksAbove node engine.roundScanHeight tip) = (paid, some error) →
      ScanOutcome node engine (.error error (engine.withRoundEvents
        (engine.liveRoundEvents.map (scanEvent engine.liveRoundEvents paid))))
  | completed (tip : Int) (paid : List Payment) (engine' : JoinmarketEngine) :
      node.getBlockCount = .ok tip →
      walkBlocks (blocksAbove node engine.roundScanHeight tip) = (paid, none) →
      engine'.clients = (engine.withRoundEvents
        (engine.liveRoundEvents.map (scanEvent engine.liveRoundEvents paid))).clients →
      engine'.roundScanHeight = tip →
      engine'.currentRound = countConfirmedRounds engine'.liveRoundEvents →
      ScanOutcome node engine (.ok engine'.currentRound engine')

theorem run_confirmStartedRounds (node : BlockSource) (engine : JoinmarketEngine) :
    ScanOutcome node engine ((confirmStartedRounds (some node)).run engine) := by
  simp only [confirmStartedRounds, EStateM.run_bind, EStateM.run_get]
  cases hcount : node.getBlockCount with
  | error error =>
    rw [run_onLiveEvents_error (run_confirmRoundsInBlocks_error hcount _ _)]
    exact .noCount error hcount
  | ok tip =>
    have hrun := run_confirmRoundsInBlocks_ok hcount engine.roundScanHeight engine.liveRoundEvents
    rcases hwalk : walkBlocks (blocksAbove node engine.roundScanHeight tip) with ⟨paid, _ | error⟩
    · rw [hwalk] at hrun
      rw [run_onLiveEvents_ok hrun]
      exact .completed tip paid _ hcount hwalk rfl rfl rfl
    · rw [hwalk] at hrun
      rw [run_onLiveEvents_error hrun]
      exact .aborted tip paid error hcount hwalk

/-! ### What the engine does to the events of its clients -/

section Changes

variable {R : RoundEvent → RoundEvent → Prop}

theorem forall₂_onlyEvents_refl (hrefl : ∀ event, R event event)
    (clients : List JoinMarketClientServer) :
    clients.Forall₂ (OnlyEvents (List.Forall₂ R)) clients :=
  List.forall₂_same.mpr fun client _ =>
    ⟨client.roundEvents, rfl, List.forall₂_same.mpr fun event _ => hrefl event⟩

/-- A scan leaves each event or reconciles it with the payments of the blocks that it walks. -/
theorem onlyEvents_scan (engine : JoinmarketEngine) (node : Option BlockSource)
    (hrefl : ∀ event, R event event)
    (hscan : ∀ source tip, node = some source → ∀ event,
      R event (scanEvent engine.liveRoundEvents
        (walkBlocks (blocksAbove source engine.roundScanHeight tip)).1 event)) :
    engine.clients.Forall₂ (OnlyEvents (List.Forall₂ R))
      (stateAfter (confirmStartedRounds node) engine).clients := by
  have hscanned : ∀ source tip, node = some source → engine.liveRoundEvents.Forall₂ R
      (engine.liveRoundEvents.map (scanEvent engine.liveRoundEvents
        (walkBlocks (blocksAbove source engine.roundScanHeight tip)).1)) := by
    intro source tip hnode
    rw [List.forall₂_map_right_iff, List.forall₂_same]
    exact fun event _ => hscan source tip hnode event
  cases node with
  | none => exact forall₂_onlyEvents_refl hrefl engine.clients
  | some source =>
    have houtcome := run_confirmStartedRounds source engine
    simp only [stateAfter]
    generalize (confirmStartedRounds (some source)).run engine = result at houtcome ⊢
    cases houtcome with
    | noCount error hcount =>
      exact forall₂_withRoundEvents (List.forall₂_same.mpr fun event _ => hrefl event)
    | aborted tip paid error hcount hwalk =>
      have hevents := hscanned source tip rfl
      rw [hwalk] at hevents
      exact forall₂_withRoundEvents hevents
    | completed tip paid engine' hcount hwalk hclients =>
      have hevents := hscanned source tip rfl
      rw [hwalk] at hevents
      show engine.clients.Forall₂ (OnlyEvents (List.Forall₂ R)) engine'.clients
      rw [hclients]
      exact forall₂_withRoundEvents hevents

/-- Marking leaves each event or marks a pending one of the taker. -/
theorem onlyEvents_mark (engine : JoinmarketEngine) (takerName reason : String)
    (currentBlock : Int) (hrefl : ∀ event, R event event)
    (hmark : ∀ event, isPendingOf takerName event = true →
      R event (markRoundFailed reason currentBlock event)) :
    engine.clients.Forall₂ (OnlyEvents (List.Forall₂ R))
      (stateAfter (markTakerRoundFailed takerName reason currentBlock) engine).clients := by
  obtain ⟨marked, events', hrun, hmarked⟩ :=
    run_markLatestStartedRoundFailed takerName reason currentBlock engine.liveRoundEvents
  simp only [stateAfter, markTakerRoundFailed, run_onLiveEvents_ok hrun]
  refine forall₂_withRoundEvents (hmarked.imp ?_)
  rintro event event' (rfl | ⟨hpending, rfl⟩)
  · exact hrefl _
  · exact hmark event hpending

/-- Reading the confirmed transactions keeps only the valid matches of each event. -/
theorem onlyEvents_read (engine : JoinmarketEngine)
    (hread : ∀ event, R event (persistDestinationMatches event)) :
    engine.clients.Forall₂ (OnlyEvents (List.Forall₂ R))
      (stateAfter (onLiveEvents confirmedCoinjoinTxids) engine).clients := by
  have hrun := run_confirmedCoinjoinTxids engine.liveRoundEvents
  simp only [stateAfter, run_onLiveEvents_ok hrun]
  apply forall₂_withRoundEvents
  rw [List.forall₂_map_right_iff, List.forall₂_same]
  exact fun event _ => hread event

end Changes

end JoinmarketEngine

end CoinjoinEmulator
