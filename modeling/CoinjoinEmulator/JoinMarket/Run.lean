import CoinjoinEmulator.JoinMarket.Windows

/-! The run of the JoinMarket engine as a sequence of windows, each with the updates of the clients
between two sleeps of the loop. -/

namespace CoinjoinEmulator.JoinmarketRun

open ProofKit Postmix JoinMarketClientServer JoinmarketEngine

variable {σ K : Type} {n : Nat}

/-- One round of the loop: the counts that the clients saw and the updates with what they sent. -/
structure Window where
  block : Int
  round : Nat
  made : List (Nat × List FleetRequest)

def Window.events (window : Window) : List Event :=
  window.made.map fun update => .update update.1 window.block window.round update.2

section Spec

variable (clients : List JoinMarketClientServer) (limits : Limits)

/-- No client is updated, or all of them in order while the round limit is not reached.  A client
starts to mix only inside its schedule. -/
structure Window.Fits (window : Window) : Prop where
  all : window.made = [] ∨ limits.roundLimitReached window.round = false ∧
    window.made.map Prod.fst = List.range clients.length
  onTime : ∀ update ∈ window.made, ∀ client, clients[update.1]? = some client →
    ∀ request ∈ update.2, request.starts = true →
      client.outsideSchedule window.block window.round = false

/-- The windows of the loop from a block and a round on, what the engine does to the chain after
them, and how the loop ends. -/
inductive LoopRun : Int → Nat → List Window → List Event → Except PyError Bool → Prop
  | mined {block : Int} {round : Nat} : limits.goesOn block round = false →
      LoopRun block round [] [.mine 3] (.ok true)
  | notMined {block : Int} {round : Nat} (error : PyError) : limits.goesOn block round = false →
      LoopRun block round [] [.mine 3] (.error error)
  | running {block : Int} {round : Nat} : limits.goesOn block round = true →
      LoopRun block round [] [] (.ok false)
  | window {block : Int} {round : Nat} (window : Window) {windows : List Window}
      {ending : List Event} {r : Except PyError Bool} : limits.goesOn block round = true →
      round ≤ window.round → window.Fits clients limits →
      LoopRun window.block window.round windows ending r →
      LoopRun block round (window :: windows) ending r

/-- A run of the engine: the warm-up, which may fail, and the loop. -/
inductive EngineRun (block : Int) (round : Nat) : List Event → Except PyError Bool → Prop
  | notWarm (blocks : Nat) (error : PyError) : 0 < blocks → blocks ≤ warmupBlocks →
      EngineRun block round (List.replicate blocks (.mine 1)) (.error error)
  | warm {windows : List Window} {ending : List Event} {r : Except PyError Bool} :
      LoopRun clients limits block round windows ending r →
      EngineRun block round (List.replicate warmupBlocks (.mine 1) ++
        (windows.flatMap Window.events ++ ending)) r

end Spec

/-! ### A window -/

/-- What a part of a round leaves: the log, and the counts but for the block. -/
def BetweenWorlds (simulation simulation' : Simulation σ K n) : Prop :=
  Between simulation.world simulation'.world

instance : Std.Refl (BetweenWorlds (σ := σ) (K := K) (n := n)) :=
  ⟨fun simulation => refl_of Between simulation.world⟩

instance : IsTrans (Simulation σ K n) BetweenWorlds := ⟨fun _ _ _ h h' => trans_of Between h h'⟩

/-- The block count stays, too. -/
structure SameWindow (simulation simulation' : Simulation σ K n) : Prop where
  worlds : BetweenWorlds simulation simulation'
  block_eq : simulation'.currentBlock = simulation.currentBlock

instance : Std.Refl (SameWindow (σ := σ) (K := K) (n := n)) :=
  ⟨fun simulation => ⟨refl_of BetweenWorlds simulation, rfl⟩⟩

instance : IsTrans (Simulation σ K n) SameWindow :=
  ⟨fun _ _ _ h h' => ⟨trans_of BetweenWorlds h.worlds h'.worlds, h'.block_eq.trans h.block_eq⟩⟩

theorem sameWindow_onWorld {α : Type} {program : EStateM PyError (SiteWorld σ K) α}
    (h : Keeps Between program) :
    Keeps (SameWindow (n := n)) (Simulation.onWorld program) :=
  h.zoom_of_keeps fun _ _ hworld => ⟨hworld, rfl⟩

section Updates

variable (clients : List JoinMarketClientServer) (limits : Limits)

/-- What the updates of a window leave. -/
structure Updates (window : Window) (w w' : SiteWorld σ K) : Prop where
  log_eq : w'.log = w.log ++ window.events
  progress : Progress w.inner.engine w'.inner.engine
  round_eq : w'.inner.engine.currentRound = window.round
  fits : window.Fits clients limits

/-- A round of the loop is a window. -/
structure Turned (window : Window)
    (simulation simulation' : Simulation σ K n) : Prop where
  updates : Updates clients limits window simulation.world simulation'.world
  block_eq : simulation'.currentBlock = window.block

variable {clients limits}

theorem Updates.after {window : Window} {w w' w'' : SiteWorld σ K} (h : Quietly w w')
    (h' : Updates clients limits window w' w'') : Updates clients limits window w w'' :=
  ⟨by rw [h'.log_eq, h.log_eq], trans_of Progress h.progress h'.progress, h'.round_eq, h'.fits⟩

theorem Updates.between {window : Window} {w w' w'' : SiteWorld σ K}
    (h : Updates clients limits window w w') (h' : Between w' w'') :
    Updates clients limits window w w'' :=
  ⟨by rw [h'.log_eq, h.log_eq], trans_of Progress h.progress h'.progress,
    h'.round_eq.trans h.round_eq, h.fits⟩

end Updates

section Turn

variable {clock : Clock σ} {parties : Parties σ K n} {limits : Limits}

theorem sameWindow_updateInvoicePayments :
    Keeps SameWindow (updateInvoicePayments (K := K) clock parties) := by
  have hsend : ∀ send ∈ distributor clock parties, ∀ batch, Keeps Between (send batch) := by
    intro send hsend batch
    obtain ⟨send', -, rfl⟩ := Option.mem_map.mp hsend
    exact between_call _
  refine Keeps.get.bind fun simulation => ?_
  exact (keeps_updateInvoicePayments hsend _ _).zoom_of_keeps fun _ _ hworld => ⟨hworld, rfl⟩

theorem sameWindow_updatePostmixSpends (node : Node σ) :
    Keeps SameWindow (updatePostmixSpends (K := K) clock parties node) := by
  refine Keeps.get.bind fun simulation => ?_
  split
  · exact .pure ()
  · exact .pure ()
  · refine (sameWindow_onWorld (keeps_update (fun i => (between_postmixWallet _).spendingClient
      (between_fundingNode node) timeKeeps_between) (between_fundingNode node) timeKeeps_between
      _ _ _)).bind fun spends' => ?_
    exact .modify fun simulation => ⟨refl_of Between simulation.world, rfl⟩

/-- The block count is refreshed without an exception. -/
theorem run_refreshBlock (clock : Clock σ) (node : Node σ) (initialBlock : Int) (tries : Nat)
    (simulation : Simulation σ K n) :
    ∃ simulation', (refreshBlock clock node initialBlock tries).run simulation =
      .ok () simulation' ∧ BetweenWorlds simulation simulation' := by
  induction tries generalizing simulation with
  | zero => exact ⟨simulation, rfl, refl_of BetweenWorlds simulation⟩
  | succ tries ih =>
    obtain ⟨r, hrun⟩ := exists_run_observing
      (Simulation.onWorld (n := n) (call (K := K) clock node.getBlockCount)) simulation
    have hcalled : BetweenWorlds simulation (stateAfter (Simulation.onWorld
        (call clock node.getBlockCount)) simulation) :=
      (sameWindow_onWorld (between_call node.getBlockCount) simulation).worlds
    simp only [refreshBlock, EStateM.run_bind, hrun]
    cases r with
    | ok count => exact ⟨_, rfl, hcalled⟩
    | error error =>
      obtain ⟨simulation', hrest, hbetween⟩ := ih _
      exact ⟨simulation', hrest, trans_of BetweenWorlds hcalled hbetween⟩

/-- What a round of the loop does before it updates the clients. -/
def beforeUpdates (clock : Clock σ) (parties : Parties σ K n) (node : Node σ) (initialBlock : Int) :
    EStateM PyError (Simulation σ K n) Unit := do
  refreshBlock clock node initialBlock 3
  let _ ← observing (updateInvoicePayments clock parties)
  let _ ← observing (updatePostmixSpends clock parties node)

theorem run_beforeUpdates (clock : Clock σ) (parties : Parties σ K n) (node : Node σ)
    (initialBlock : Int) (simulation : Simulation σ K n) :
    ∃ simulation', (beforeUpdates clock parties node initialBlock).run simulation =
      .ok () simulation' ∧ BetweenWorlds simulation simulation' := by
  obtain ⟨simulation1, hrefresh, hbefore⟩ := run_refreshBlock clock node initialBlock 3 simulation
  obtain ⟨_, hinvoices⟩ := exists_run_observing (updateInvoicePayments clock parties) simulation1
  have hinvoiced : SameWindow simulation1
      (stateAfter (updateInvoicePayments clock parties) simulation1) :=
    sameWindow_updateInvoicePayments simulation1
  generalize stateAfter (updateInvoicePayments clock parties) _ = simulation2 at hinvoices hinvoiced
  obtain ⟨_, hspends⟩ := exists_run_observing (updatePostmixSpends clock parties node) simulation2
  have hspent : SameWindow simulation2
      (stateAfter (updatePostmixSpends clock parties node) simulation2) :=
    sameWindow_updatePostmixSpends node simulation2
  refine ⟨_, ?_, trans_of BetweenWorlds hbefore (trans_of BetweenWorlds hinvoiced.worlds
    hspent.worlds)⟩
  simp only [beforeUpdates, EStateM.run_bind, hrefresh, hinvoices, hspends]
  rfl

variable [DecidableEq K] {path : UpdatePath} {clients : List JoinMarketClientServer}

theorem turn_eq (clock : Clock σ) (parties : Parties σ K n) (limits : Limits) (path : UpdatePath)
    (node : Node σ) (initialBlock : Int) :
    turn clock parties limits path node initialBlock = (do
      beforeUpdates clock parties node initialBlock
      let _ ← observing (updateCoinjoins clock parties limits path node)
      Simulation.onWorld (Postmix.World.sleep 30)) := by
  simp only [turn, beforeUpdates, bind_assoc, pure_bind]

theorem told_updateClients {w : SiteWorld σ K} (hw : Settled clients w) (block : Int) :
    ∃ made, made.map Prod.fst = List.range clients.length ∧
      Told clients block made w (stateAfter
        (updateClients clock parties path block (List.range clients.length)) w) := by
  cases path with
  | sync =>
    have hall : UpdatesInOrder clients block (List.range clients.length)
        (forM (List.range clients.length) (updateAndMark clock parties block)) :=
      updatesInOrder_forM fun i hi => updatesInOrder_updateAndMark (List.mem_range.mp hi)
    obtain ⟨_, w', made, hrun, hmade, htold⟩ := hall w hw
    exact ⟨made, hmade, by rwa [updateClients, stateAfter_of_ok hrun]⟩
  | async =>
    have hall : UpdatesInOrder clients block (List.range clients.length)
        ((List.range clients.length).mapM (updateClientAsync clock parties block)) :=
      updatesInOrder_mapM fun i hi => updatesInOrder_updateClientAsync (List.mem_range.mp hi)
    obtain ⟨deltas, w', made, hrun, hmade, htold⟩ := hall w hw
    -- the timeouts are marked after all updates
    have hmark : Between w' (stateAfter
        (updateClients clock parties .async block (List.range clients.length)) w) := by
      rw [← stateAfter_of_ok hrun]
      exact Keeps.stateAfter_bind
        (fun deltas => .forM (fun update : Nat × Int =>
          between_markTimeout block update.1 update.2) _) w
    exact ⟨made, hmade, htold.between hmark⟩

theorem updates_updateCoinjoinsJoinmarket (node : Node σ) {w : SiteWorld σ K}
    (hw : Settled clients w) (block : Int) :
    ∃ window, window.block = block ∧ Updates clients limits window w
      (stateAfter (updateCoinjoinsJoinmarket clock parties limits path node block) w) := by
  have hscan : Quietly w (stateAfter (confirmStartedRounds clock node) w) :=
    quietly_confirmStartedRounds node w
  have hsettled := hw.progress hscan.progress
  simp only [updateCoinjoinsJoinmarket, stateAfter, EStateM.run_bind] at hscan hsettled ⊢
  cases hrun : (confirmStartedRounds clock node).run w with
  | error error w' =>
    rw [hrun] at hscan
    refine ⟨⟨block, w'.inner.engine.currentRound, []⟩, rfl, ?_, hscan.progress, rfl,
      .inl rfl, by simp⟩
    simpa [Window.events] using hscan.log_eq
  | ok _ w' =>
    rw [hrun] at hscan hsettled
    simp only [EStateM.run_get]
    by_cases hlimit : limits.roundLimitReached w'.inner.engine.currentRound = true
    · rw [if_pos hlimit]
      refine ⟨⟨block, w'.inner.engine.currentRound, []⟩, rfl, ?_, hscan.progress, rfl,
        .inl rfl, by simp⟩
      simpa [Window.events] using hscan.log_eq
    · have hupdates : ∃ made, made.map Prod.fst = List.range clients.length ∧
          Told clients block made w' (stateAfter
            (updateClients clock parties path block (List.range clients.length)) w') :=
        told_updateClients hsettled block
      have hlength : clients.length = w'.inner.engine.clients.length := hsettled.length_eq
      rw [if_neg hlimit, ← hlength]
      obtain ⟨made, hmade, htold⟩ := hupdates
      refine ⟨⟨block, w'.inner.engine.currentRound, made⟩, rfl, ?_,
        trans_of Progress hscan.progress htold.progress, htold.round_eq,
        .inr ⟨Bool.eq_false_iff.mpr hlimit, hmade⟩, htold.onTime⟩
      exact htold.log_eq.trans (congrArg (· ++ _) hscan.log_eq)

theorem turned_updateCoinjoins (node : Node σ) {simulation : Simulation σ K n}
    (hclients : Settled clients simulation.world) :
    ∃ window, Turned clients limits window simulation
      (stateAfter (updateCoinjoins clock parties limits path node) simulation) := by
  have hwindow : ∃ window, window.block = simulation.currentBlock ∧
      Updates clients limits window simulation.world (stateAfter (updateCoinjoinsJoinmarket clock
        parties limits path node simulation.currentBlock) simulation.world) :=
    updates_updateCoinjoinsJoinmarket node hclients _
  obtain ⟨window, hblock, hupdates⟩ := hwindow
  have hrun : stateAfter (updateCoinjoins clock parties limits path node) simulation =
      simulation.setWorld (stateAfter (updateCoinjoinsJoinmarket clock parties limits path node
        simulation.currentBlock) simulation.world) := by
    simp only [stateAfter, updateCoinjoins, Simulation.onWorld, EStateM.run_bind, EStateM.run_get,
      run_zoom]
    cases (updateCoinjoinsJoinmarket clock parties limits path node
      simulation.currentBlock).run simulation.world <;> rfl
  rw [hrun]
  exact ⟨window, hupdates, hblock.symm⟩

/-- A round of the loop does not raise. -/
theorem turned_turn (node : Node σ) (initialBlock : Int) {simulation : Simulation σ K n}
    (hclients : Settled clients simulation.world) :
    ∃ window simulation', (turn clock parties limits path node initialBlock).run simulation =
      .ok () simulation' ∧ Turned clients limits window simulation simulation' := by
  obtain ⟨simulation3, hbefore, hquiet⟩ :=
    run_beforeUpdates clock parties node initialBlock simulation
  obtain ⟨_, hcoinjoins⟩ :=
    exists_run_observing (updateCoinjoins clock parties limits path node) simulation3
  have hturned : ∃ window, Turned clients limits window simulation3
      (stateAfter (updateCoinjoins clock parties limits path node) simulation3) :=
    turned_updateCoinjoins node (hclients.progress hquiet.progress)
  obtain ⟨window, hturned⟩ := hturned
  generalize stateAfter (updateCoinjoins clock parties limits path node) _ = simulation4
    at hcoinjoins hturned
  refine ⟨window, simulation4.setWorld { simulation4.world with now := simulation4.world.now + 30 },
    ?_, ⟨(hturned.updates.after hquiet.toQuietly).between (.of_engine rfl rfl), hturned.block_eq⟩⟩
  simp only [turn_eq, EStateM.run_bind, hbefore, hcoinjoins]
  rfl

end Turn

/-! ### The loop -/

/-- Only the chain is changed, by the events. -/
structure Mined (added : List Event) (simulation simulation' : Simulation σ K n) : Prop where
  log_eq : simulation'.world.log = simulation.world.log ++ added
  engine_eq : simulation'.world.inner.engine = simulation.world.inner.engine
  block_eq : simulation'.currentBlock = simulation.currentBlock

theorem Mined.trans {added added' : List Event} {simulation simulation' simulation'' :
    Simulation σ K n} (h : Mined added simulation simulation')
    (h' : Mined added' simulation' simulation'') :
    Mined (added ++ added') simulation simulation'' :=
  ⟨by rw [h'.log_eq, h.log_eq, List.append_assoc], h'.engine_eq.trans h.engine_eq,
    h'.block_eq.trans h.block_eq⟩

theorem Mined.progress {added : List Event} {simulation simulation' : Simulation σ K n}
    (h : Mined added simulation simulation') :
    Progress simulation.world.inner.engine simulation'.world.inner.engine := by
  rw [h.engine_eq]
  exact refl_of Progress _

theorem mined_call {α : Type} (clock : Clock σ) (program : EStateM PyError σ α) :
    Keeps (Mined (K := K) (n := n) []) (Simulation.onWorld (call clock program)) := by
  have hsite : Keeps (fun site site' : Site σ K => site'.engine = site.engine)
      (zoom Site.outside (fun site outside => { site with outside }) program) :=
    Keeps.zoom (fun site outside => (rfl : { site with outside }.engine = site.engine)) program
  have hworld : Keeps (fun w w' : SiteWorld σ K => w'.log = w.log ∧
      w'.inner.engine = w.inner.engine) (call clock program) :=
    hsite.zoom_of_keeps fun w site h => ⟨rfl, h⟩
  exact hworld.zoom_of_keeps fun simulation w h => ⟨by rw [List.append_nil]; exact h.1, h.2, rfl⟩

theorem mined_mine (clock : Clock σ) (node : Node σ) (blocks : Nat) :
    Keeps (Mined (K := K) (n := n) [.mine blocks]) (mine clock node blocks) := by
  intro simulation
  have hnoted : Mined [.mine blocks] simulation (simulation.setWorld
      { simulation.world with log := simulation.world.log ++ [.mine blocks] }) := ⟨rfl, rfl, rfl⟩
  have hcalled := mined_call (K := K) (n := n) clock (node.mineBlock blocks)
    (simulation.setWorld { simulation.world with log := simulation.world.log ++ [.mine blocks] })
  have hboth := hnoted.trans hcalled
  rw [List.append_nil, ← stateAfter_bind_pure _ fun _ => ()] at hboth
  exact hboth

section Loop

variable {clock : Clock σ} {limits : Limits} {clients : List JoinMarketClientServer}

/-- What a run of the loop from a simulation did, by its result. -/
structure Did (clients : List JoinMarketClientServer) (limits : Limits)
    (simulation : Simulation σ K n) (result : EStateM.Result PyError (Simulation σ K n) Bool)
    (windows : List Window) (ending : List Event) : Prop where
  log_eq : (resultState result).world.log =
    simulation.world.log ++ (windows.flatMap Window.events ++ ending)
  progress : Progress simulation.world.inner.engine (resultState result).world.inner.engine
  run : LoopRun clients limits simulation.currentBlock simulation.currentRound windows ending
    (outcome result)
  ended : outcome result = .ok true →
    limits.goesOn (resultState result).currentBlock (resultState result).currentRound = false

theorem did_finish (node : Node σ) {simulation : Simulation σ K n}
    (hlimit : limits.goesOn simulation.currentBlock simulation.currentRound = false) :
    Did clients limits simulation ((finish clock node).run simulation) [] [.mine 3] := by
  have hslept : Mined [] simulation (simulation.setWorld
      { simulation.world with now := simulation.world.now + 60 }) :=
    ⟨(List.append_nil _).symm, rfl, rfl⟩
  have hmined := hslept.trans (mined_mine clock node 3 _)
  have hafter : stateAfter (finish clock node) simulation = stateAfter (mine clock node 3)
      (simulation.setWorld { simulation.world with now := simulation.world.now + 60 }) :=
    stateAfter_bind_pure _ _ _
  rw [← hafter] at hmined
  have hround : (stateAfter (finish clock node) simulation).currentRound =
      simulation.currentRound := congrArg JoinmarketEngine.currentRound hmined.engine_eq
  refine ⟨hmined.log_eq, hmined.progress, ?_, fun _ => ?_⟩
  · show LoopRun clients limits _ _ _ _ (outcome (EStateM.run (mine clock node 3 >>= _) _))
    rw [EStateM.run_bind]
    cases (mine clock node 3).run (simulation.setWorld
        { simulation.world with now := simulation.world.now + 60 }) with
    | ok _ simulation' => exact .mined hlimit
    | error error simulation' => exact .notMined error hlimit
  · show limits.goesOn (stateAfter (finish clock node) simulation).currentBlock
      (stateAfter (finish clock node) simulation).currentRound = false
    rw [hround, hmined.block_eq]
    exact hlimit

/-- A window before the rest of the run. -/
theorem Did.after {window : Window} {windows : List Window} {ending : List Event}
    {simulation simulation' : Simulation σ K n}
    {result : EStateM.Result PyError (Simulation σ K n) Bool}
    (hlimit : limits.goesOn simulation.currentBlock simulation.currentRound = true)
    (hcounted : simulation.world.inner.engine.Counted)
    (hturned : Turned clients limits window simulation simulation')
    (h : Did clients limits simulation' result windows ending) :
    Did clients limits simulation result (window :: windows) ending where
  log_eq := by
    rw [h.log_eq, hturned.updates.log_eq, List.flatMap_cons]
    simp only [List.append_assoc]
  progress := trans_of Progress hturned.updates.progress h.progress
  run := by
    have hround : simulation'.currentRound = window.round := hturned.updates.round_eq
    have hlater : simulation.currentRound ≤ simulation'.currentRound :=
      (hturned.updates.progress.counted hcounted).1
    have hrun := h.run
    rw [hturned.block_eq, hround] at hrun
    exact .window window hlimit (by omega) hturned.updates.fits hrun
  ended := h.ended

variable [DecidableEq K] {parties : Parties σ K n} {path : UpdatePath}

/-- At a limit the loop ends, with any number of rounds left. -/
theorem run_runLoop_limit (node : Node σ) (initialBlock : Int) (fuel : Nat)
    {simulation : Simulation σ K n}
    (hlimit : limits.goesOn simulation.currentBlock simulation.currentRound = false) :
    (runLoop clock parties limits path node initialBlock fuel).run simulation =
      (finish clock node).run simulation := by
  have hnot : ¬limits.goesOn simulation.currentBlock simulation.currentRound = true :=
    Bool.eq_false_iff.mp hlimit
  cases fuel <;> simp only [runLoop, EStateM.run_bind, EStateM.run_get, if_neg hnot]

/-- Below its limits, a loop without rounds leaves the simulation. -/
theorem run_runLoop_zero (node : Node σ) (initialBlock : Int) {simulation : Simulation σ K n}
    (hlimit : limits.goesOn simulation.currentBlock simulation.currentRound = true) :
    (runLoop clock parties limits path node initialBlock 0).run simulation =
      .ok false simulation := by
  simp only [runLoop, EStateM.run_bind, EStateM.run_get, if_pos hlimit]
  rfl

/-- Below its limits, the loop takes a turn that does not raise. -/
theorem run_runLoop_succ (clock : Clock σ) (parties : Parties σ K n) (path : UpdatePath)
    (node : Node σ) (initialBlock : Int) {simulation : Simulation σ K n}
    (hclients : Settled clients simulation.world)
    (hlimit : limits.goesOn simulation.currentBlock simulation.currentRound = true) :
    ∃ window simulation', Turned clients limits window simulation simulation' ∧
      ∀ fuel, (runLoop clock parties limits path node initialBlock (fuel + 1)).run simulation =
        (runLoop clock parties limits path node initialBlock fuel).run simulation' := by
  have hturn : ∃ window simulation',
      (turn clock parties limits path node initialBlock).run simulation = .ok () simulation' ∧
        Turned clients limits window simulation simulation' :=
    turned_turn node initialBlock hclients
  obtain ⟨window, simulation', hrun, hturned⟩ := hturn
  refine ⟨window, simulation', hturned, fun fuel => ?_⟩
  simp only [runLoop, EStateM.run_bind, EStateM.run_get, if_pos hlimit, hrun]

theorem exists_did_runLoop (node : Node σ) (initialBlock : Int) (fuel : Nat)
    {simulation : Simulation σ K n} (hclients : Settled clients simulation.world)
    (hcounted : simulation.world.inner.engine.Counted) :
    ∃ windows ending, Did clients limits simulation
      ((runLoop clock parties limits path node initialBlock fuel).run simulation)
      windows ending := by
  induction fuel generalizing simulation with
  | zero =>
    cases hlimit : limits.goesOn simulation.currentBlock simulation.currentRound with
    | false =>
      rw [run_runLoop_limit node initialBlock 0 hlimit]
      exact ⟨[], [.mine 3], did_finish node hlimit⟩
    | true =>
      rw [run_runLoop_zero node initialBlock hlimit]
      exact ⟨[], [], (List.append_nil _).symm, refl_of Progress _, .running hlimit,
        fun hended => by cases hended⟩
  | succ fuel ih =>
    cases hlimit : limits.goesOn simulation.currentBlock simulation.currentRound with
    | false =>
      rw [run_runLoop_limit node initialBlock (fuel + 1) hlimit]
      exact ⟨[], [.mine 3], did_finish node hlimit⟩
    | true =>
      obtain ⟨window, simulation', hturned, hrun⟩ :=
        run_runLoop_succ clock parties path node initialBlock hclients hlimit
      have hprogress := hturned.updates.progress
      obtain ⟨windows, ending, hdid⟩ :=
        ih (hclients.progress hprogress) (hprogress.counted hcounted).2
      rw [hrun fuel]
      exact ⟨window :: windows, ending, hdid.after hlimit hcounted hturned⟩

/-- What the loop leaves after some rounds makes progress in the rounds that follow. -/
theorem progress_runLoop_more (node : Node σ) (initialBlock : Int) (fuel more : Nat)
    {simulation : Simulation σ K n} (hclients : Settled clients simulation.world)
    (hcounted : simulation.world.inner.engine.Counted) :
    Progress
      (resultState ((runLoop clock parties limits path node initialBlock fuel).run
        simulation)).world.inner.engine
      (resultState ((runLoop clock parties limits path node initialBlock (fuel + more)).run
        simulation)).world.inner.engine := by
  induction fuel generalizing simulation with
  | zero =>
    rw [Nat.zero_add]
    cases hlimit : limits.goesOn simulation.currentBlock simulation.currentRound with
    | false =>
      rw [run_runLoop_limit node initialBlock 0 hlimit, run_runLoop_limit node _ more hlimit]
      exact refl_of Progress _
    | true =>
      rw [run_runLoop_zero node initialBlock hlimit]
      have hdone : ∃ windows ending, Did clients limits simulation
          ((runLoop clock parties limits path node initialBlock more).run simulation)
          windows ending := exists_did_runLoop node initialBlock more hclients hcounted
      obtain ⟨_, _, hdid⟩ := hdone
      exact hdid.progress
  | succ fuel ih =>
    cases hlimit : limits.goesOn simulation.currentBlock simulation.currentRound with
    | false =>
      rw [run_runLoop_limit node initialBlock (fuel + 1) hlimit, run_runLoop_limit node _ _ hlimit]
      exact refl_of Progress _
    | true =>
      obtain ⟨window, simulation', hturned, hrun⟩ :=
        run_runLoop_succ clock parties path node initialBlock hclients hlimit
      have hprogress := hturned.updates.progress
      rw [Nat.add_right_comm, hrun fuel, hrun (fuel + more)]
      exact ih (hclients.progress hprogress) (hprogress.counted hcounted).2

end Loop

/-! ### The run -/

section Engine

/-- Some blocks are mined one by one, up to the first failure. -/
theorem mined_blocks {α : Type} (clock : Clock σ) (node : Node σ) (items : List α)
    (simulation : Simulation σ K n) :
    (∃ simulation', (forM items fun _ => mine clock node 1).run simulation = .ok () simulation' ∧
      Mined (List.replicate items.length (.mine 1)) simulation simulation') ∨
    ∃ error simulation' blocks, (forM items fun _ => mine clock node 1).run simulation =
      .error error simulation' ∧ 0 < blocks ∧ blocks ≤ items.length ∧
        Mined (List.replicate blocks (.mine 1)) simulation simulation' := by
  induction items generalizing simulation with
  | nil => exact .inl ⟨simulation, rfl, (List.append_nil _).symm, rfl, rfl⟩
  | cons item rest ih =>
    have hfirst := mined_mine clock node 1 simulation
    rw [stateAfter] at hfirst
    simp only [List.forM_cons, EStateM.run_bind]
    cases hrun : (mine clock node 1).run simulation with
    | error error simulation' =>
      rw [hrun] at hfirst
      exact .inr ⟨error, simulation', 1, rfl, by omega, by simp, hfirst⟩
    | ok _ simulation' =>
      rw [hrun] at hfirst
      obtain ⟨simulation'', hrest, hmined⟩ | ⟨error, simulation'', blocks, hrest, -, hle, hmined⟩ :=
        ih simulation'
      · exact .inl ⟨simulation'', hrest, hfirst.trans hmined⟩
      · refine .inr ⟨error, simulation'', blocks + 1, hrest, by omega, ?_, ?_⟩
        · rw [List.length_cons]
          omega
        · exact hfirst.trans hmined

theorem mined_startBlockClock (clock : Clock σ) (node : Node σ) (simulation : Simulation σ K n) :
    (∃ initialBlock simulation', (startBlockClock clock node).run simulation =
        .ok initialBlock simulation' ∧
      Mined (List.replicate warmupBlocks (.mine 1)) simulation simulation') ∨
    ∃ error simulation' blocks, (startBlockClock clock node).run simulation =
      .error error simulation' ∧ 0 < blocks ∧ blocks ≤ warmupBlocks ∧
        Mined (List.replicate blocks (.mine 1)) simulation simulation' := by
  simp only [startBlockClock, EStateM.run_bind]
  obtain ⟨simulation', hrun, hmined⟩ | ⟨error, simulation', blocks, hrun, hpos, hle, hmined⟩ :=
    mined_blocks clock node (List.range warmupBlocks) simulation
  · obtain ⟨r, hcount⟩ := exists_run_observing
      (Simulation.onWorld (n := n) (call (K := K) clock node.getBlockCount)) simulation'
    have hall := hmined.trans (mined_call clock node.getBlockCount simulation')
    rw [List.append_nil, List.length_range] at hall
    simp only [hrun, hcount]
    cases r with
    | ok count => exact .inl ⟨count, _, rfl, hall⟩
    | error error => exact .inl ⟨0, _, rfl, hall⟩
  · rw [List.length_range] at hle
    simp only [hrun]
    exact .inr ⟨error, simulation', blocks, rfl, hpos, hle, hmined⟩

/-- What a run of the engine from a simulation did.  `run` are the results of the run by the number
of its windows. -/
structure Ran (limits : Limits) (simulation : Simulation σ K n)
    (run : Nat → EStateM.Result PyError (Simulation σ K n) Bool) (fuel : Nat) : Prop where
  log : ∃ added, (resultState (run fuel)).world.log = simulation.world.log ++ added ∧
    EngineRun simulation.world.inner.engine.clients limits simulation.currentBlock
      simulation.currentRound added (outcome (run fuel))
  progress : Progress simulation.world.inner.engine (resultState (run fuel)).world.inner.engine
  later : ∀ more, Progress (resultState (run fuel)).world.inner.engine
    (resultState (run (fuel + more))).world.inner.engine
  ended : outcome (run fuel) = .ok true → limits.goesOn (resultState (run fuel)).currentBlock
    (resultState (run fuel)).currentRound = false

variable [DecidableEq K]

/-- For any answers and failures of the services, the node and the distributor, a run of the engine
asks for its warm-up blocks, updates all clients once in each window below its limits, asks for
three blocks and returns.  It raises only while it mines, no client starts to mix outside its
schedule or once the confirmed rounds reach their limit, and from each window to any later one a
confirmed event stays confirmed. -/
theorem runEngine_windows (clock : Clock σ) (parties : Parties σ K n) (limits : Limits)
    (path : UpdatePath) (fuel : Nat) {node : Node σ} (hnode : parties.node = some node)
    {simulation : Simulation σ K n} (hcounted : simulation.world.inner.engine.Counted) :
    Ran limits simulation (fun windows =>
      (runEngine clock parties limits path windows).run simulation) fuel := by
  simp only [runEngine, hnode, EStateM.run_bind]
  obtain ⟨initialBlock, simulation', hrun, hmined⟩ |
      ⟨error, simulation', blocks, hrun, hpos, hle, hmined⟩ :=
    mined_startBlockClock clock node simulation
  · simp only [hrun]
    have hclients : Settled simulation.world.inner.engine.clients simulation'.world := by
      unfold Settled
      rw [hmined.engine_eq]
      exact settled_self simulation.world
    have hcounted' : simulation'.world.inner.engine.Counted := by
      rw [hmined.engine_eq]
      exact hcounted
    have hdone : ∃ windows ending, Did simulation.world.inner.engine.clients limits simulation'
        ((runLoop clock parties limits path node initialBlock fuel).run simulation')
        windows ending := exists_did_runLoop node initialBlock fuel hclients hcounted'
    obtain ⟨windows, ending, hdid⟩ := hdone
    have hround : simulation'.currentRound = simulation.currentRound :=
      congrArg JoinmarketEngine.currentRound hmined.engine_eq
    have hloop := hdid.run
    rw [hmined.block_eq, hround] at hloop
    refine ⟨⟨_, ?_, .warm hloop⟩, trans_of Progress hmined.progress hdid.progress, fun more => ?_,
      hdid.ended⟩
    · exact hdid.log_eq.trans (by rw [hmined.log_eq, List.append_assoc])
    · exact progress_runLoop_more node initialBlock fuel more hclients hcounted'
  · simp only [hrun]
    exact ⟨⟨_, hmined.log_eq, .notWarm blocks error hpos hle⟩, hmined.progress,
      fun _ => refl_of Progress _, fun hended => by cases hended⟩

/-- A maker, a taker whose attempt hangs, and a taker whose attempt is mined at height 10.  The
chain grows by a block at each look; the state is its height. -/
def mixingParties : Parties Nat Nat 3 where
  classOf i := if i = 0 then .maker else .taker
  answers i height := ({
    utxos := .ok []
    session := .ok (.object { coinjoinInProcess := decide (i = 1 ∧ height < 10) })
    newAddress := .ok ("address" ++ toString height)
    startCoinjoin := .ok ()
    stop := .ok ()
    startMaker := .ok ()
    stopMaker := .ok ()
    destinationAddresses := .ok []
    runSchedule := .ok none
    getSchedule := .ok () }, height)
  wallets _ := {
    name := "jcs-000"
    type := .maker
    session := pure none
    stopMaker := pure ()
    listUtxos := pure []
    freezeUtxo := fun _ _ => pure ()
    sweepMixdepth := fun _ _ => throw (.rpcError "no coins") }
  node := some {
    getNewAddress := pure "address"
    isUnspent := fun _ _ => pure true
    getBlockCount := do
      modify (· + 1)
      return (← get)
    mineBlock := fun blocks => do
      modify (· + blocks)
      return true
    blocks := fun height => ({
      getBlockCount := .ok height
      getBlockHash := fun height => .ok (toString height)
      getBlockInfo := fun blockHash => .ok (if blockHash = "10"
        then minedBlock 10 [("coinjoin", "address8")] else Dict.empty) }, height) }
  distributor := none

theorem nonneg_instant (_ : Nat) : (0 : Rat) ≤ 0 := le_refl 0

def instantClock : Clock Nat where
  elapsed _ := 0
  elapsed_nonneg := nonneg_instant
  wait s := s

/-- A maker that mixes until block 3. -/
def stoppingMaker : JoinMarketClientServer where
  name := "jcs-000"
  type := .maker
  delay := (0, 0)
  stop := (3, 0)
  offers := [[("txfee", .int 0), ("cjfee_a", .int 0), ("cjfee_r", .int 0), ("ordertype", .int 0),
    ("minsize", .int 0), ("maxsize", .int 0)]]
  timeBetweenRounds := 1
  coinjoinTimeoutBlocks := 2
  coinjoinTimeoutBlocks_pos := by decide
  maxCoinjoins := 0

/-- A taker that mixes from a block on. -/
def mixingTaker (name : String) (startBlock : Int) : JoinMarketClientServer where
  name := name
  type := .taker
  delay := (startBlock, 0)
  stop := (0, 0)
  offers := [[("mixdepth", .int 0), ("amount_sats", .int 40000), ("counterparties", .int 4)]]
  timeBetweenRounds := 1
  coinjoinTimeoutBlocks := 2
  coinjoinTimeoutBlocks_pos := by decide
  maxCoinjoins := 0

/-- The first taker already runs an attempt. -/
def hangingTaker : JoinMarketClientServer :=
  { (mixingTaker "jcs-001" 0).recordRoundStart (.str "address0") (.int 40000) (.int 4) (.int 0) 0
    with coinjoinInProcess := true }

theorem nodup_noInvoices : (([] : Groups (Int × Int) Invoice).map Prod.fst).Nodup := .nil

def mixingSimulation : Simulation Nat Nat 3 where
  funding := ⟨⟨⟨0, ⟨[stoppingMaker, hangingTaker, mixingTaker "jcs-002" 2], -1, 0⟩, fun _ => {}⟩,
    0, []⟩, [], nodup_noInvoices⟩
  postmixSpends := none

def mixingRun (path : UpdatePath) (windows : Nat) :
    EStateM.Result PyError (Simulation Nat Nat 3) Bool :=
  (runEngine instantClock mixingParties ⟨1, 8⟩ path windows).run mixingSimulation

/-- The statuses of the attempts of each client. -/
def mixingStatuses (result : EStateM.Result PyError (Simulation Nat Nat 3) Bool) :
    List (List (Option String)) :=
  (resultState result).world.inner.engine.clients.map fun client =>
    client.roundEvents.map RoundEventRecord.status

theorem runEngine_windows_mixing :
    Ran ⟨1, 8⟩ mixingSimulation (mixingRun .sync) 3 ∧
      mixingStatuses (mixingRun .sync 3) = [[], [some "failed"], [some "started"]] ∧
      mixingStatuses (mixingRun .sync 4) = [[], [some "failed"], [some "confirmed"]] ∧
      outcome (mixingRun .sync 4) = .ok true :=
  ⟨runEngine_windows instantClock mixingParties ⟨1, 8⟩ .sync 3 rfl (Nat.zero_le _),
    by decide +kernel⟩

end Engine

end CoinjoinEmulator.JoinmarketRun
