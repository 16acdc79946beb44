import CoinjoinEmulator.WasabiEngine.Payments

/-! Whole runs of the Wasabi engine, for any answers and failures of the parties and any turns of
the threads: when the clients are started and stopped, and what holds when the run returns. -/

namespace CoinjoinEmulator.WasabiEngine

open ProofKit Postmix WasabiVersions

variable {σ : Type} {n : Nat}

instance : Preorder Counts where
  le counts counts' := counts.block ≤ counts'.block ∧ counts.round ≤ counts'.round
  le_refl _ := ⟨Int.le_refl _, Int.le_refl _⟩
  le_trans _ _ _ h h' := ⟨Int.le_trans h.1 h'.1, Int.le_trans h.2 h'.2⟩

/-- The rounds of the loop from some counts on, what the engine asks for after them, and how the
loop ends. -/
inductive LoopRun (parties : Parties σ n) (limits : Limits) :
    Counts → List (Turn n) → List (Request n) → Except PyError Bool → Prop
  | mined {counts : Counts} : limits.reached counts = true →
      LoopRun parties limits counts [] [.mine settlementBlocks] (.ok true)
  | notMined {counts : Counts} (error : PyError) : limits.reached counts = true →
      LoopRun parties limits counts [] [.mine settlementBlocks] (.error error)
  | running {counts : Counts} : limits.reached counts = false →
      LoopRun parties limits counts [] [] (.ok false)
  | notRefreshed {counts : Counts} (error : PyError) : limits.reached counts = false →
      LoopRun parties limits counts [] [] (.error error)
  | raised {counts : Counts} (turn : Turn n) (error : PyError) : limits.reached counts = false →
      turn.Fits parties limits → LoopRun parties limits counts [turn] [] (.error error)
  | turn {counts : Counts} (turn : Turn n) {turns : List (Turn n)} {ending : List (Request n)}
      {r : Except PyError Bool} : limits.reached counts = false → turn.Fits parties limits →
      turn.Complete parties limits → LoopRun parties limits turn.counts turns ending r →
      LoopRun parties limits counts (turn :: turns) ending r

/-- The counts of the last round. -/
def lastCounts (counts : Counts) (turns : List (Turn n)) : Counts :=
  (turns.getLast?.map Turn.counts).getD counts

/-! ### A steady chain and log -/

/-- The chain does not get shorter and the file with the rounds only grows. -/
def Grown (height : σ → Int) (text : σ → String) (s s' : σ) : Prop :=
  height s ≤ height s' ∧ (text s).toList <+: (text s').toList

instance (height : σ → Int) (text : σ → String) : Std.Refl (Grown height text) :=
  ⟨fun s => ⟨Int.le_refl _, List.prefix_refl (text s).toList⟩⟩

instance (height : σ → Int) (text : σ → String) : IsTrans σ (Grown height text) :=
  ⟨fun _ _ _ h h' => ⟨Int.le_trans h.1 h'.1, h.2.trans h'.2⟩⟩

/-- In every state there is a chain, whose height the node tells, and a file with the rounds, whose
text `peek` returns.  No call makes them shorter. -/
structure Steady (clock : Clock σ) (parties : Parties σ n) (height : σ → Int)
    (text : σ → String) : Prop where
  keep : parties.Keep clock (Grown height text)
  blockCount : ∀ node ∈ parties.node, ∀ s count s',
    node.getBlockCount.run s = .ok count s' → count = height s'
  peeked : ∀ s answer s',
    (parties.peek (roundsFile parties.architecture).1 (roundsFile parties.architecture).2).run s =
      .ok answer s' → answer = text s'

/-- The counts that the engine would read in a state. -/
def level (parties : Parties σ n) (height : σ → Int) (text : σ → String) (initialBlock : Int)
    (engine : Engine σ n) : Counts where
  block := height engine.world.inner - initialBlock
  round := countRounds parties.architecture (text engine.world.inner)

section Level

variable {clock : Clock σ} {parties : Parties σ n} {height : σ → Int} {text : σ → String}
  {initialBlock : Int} {engine engine' : Engine σ n}

theorem level_mono {allowed : Request n → Prop}
    (h : EngineAsks allowed (Grown height text) engine engine') :
    level parties height text initialBlock engine ≤
      level parties height text initialBlock engine' := by
  obtain ⟨hheight, htext⟩ := h.inner
  refine ⟨?_, ?_⟩
  · show height engine.world.inner - initialBlock ≤ height engine'.world.inner - initialBlock
    omega
  · have hcount := countRounds_mono parties.architecture htext
    show (countRounds _ _ : Int) ≤ countRounds _ _
    omega

/-- A count is read in the last of the tries. -/
theorem refresh_eq_ok {R : Engine σ n → Engine σ n → Prop} [Std.Refl R] [IsTrans (Engine σ n) R]
    {failure : String} {count : EStateM PyError (Engine σ n) Int} (hkeep : Keeps R count)
    {attempts : Nat} {value : Int}
    (h : (refresh failure count attempts).run engine = .ok value engine') :
    ∃ engine₁, R engine engine₁ ∧ count.run engine₁ = .ok value engine' := by
  induction attempts generalizing engine with
  | zero => cases h
  | succ attempts ih =>
    simp only [refresh, EStateM.run_bind, run_observing] at h
    cases hrun : count.run engine with
    | ok value' engine₁ =>
      rw [hrun] at h
      cases h
      exact ⟨engine, refl_of R engine, hrun⟩
    | error error engine₁ =>
      rw [hrun] at h
      have hfirst := hkeep engine
      rw [stateAfter_of_error hrun] at hfirst
      obtain ⟨engine₂, hlater, hread⟩ := ih h
      exact ⟨engine₂, trans_of R hfirst hlater, hread⟩

theorem run_onWorld_call {α : Type} {program : EStateM PyError σ α} {a : α}
    (h : (Engine.onWorld (Postmix.World.call clock program)).run engine = .ok a engine') :
    program.run engine.world.inner = .ok a engine'.world.inner := by
  simp only [Engine.onWorld, Postmix.World.call, run_zoom] at h
  cases hrun : program.run engine.world.inner with
  | error error s =>
    rw [hrun] at h
    cases h
  | ok value s =>
    rw [hrun] at h
    cases h
    rfl

/-- The refreshed counts are between what could be read before and after. -/
theorem level_refreshCounts (h : Steady clock parties height text) {node : MiningNode σ}
    (hnode : parties.node = some node) {counts : Counts}
    (hrun : (refreshCounts clock parties node initialBlock).run engine = .ok counts engine') :
    level parties height text initialBlock engine ≤ counts ∧
      counts ≤ level parties height text initialBlock engine' := by
  obtain ⟨round, engine₁, hround, hrest⟩ := of_run_bind_eq_ok hrun
  obtain ⟨count, engine₂, hblock, hreturn⟩ := of_run_bind_eq_ok hrest
  cases hreturn
  have hkeepRound : Keeps (EngineAsks (n := n) (fun _ => False) (Grown height text))
      (Engine.onWorld (Postmix.World.call clock (getCurrentRound parties))) :=
    asks_onWorld (asks_call (keeps_getCurrentRound h.keep))
  have hkeepBlock : Keeps (EngineAsks (n := n) (fun _ => False) (Grown height text))
      (Engine.onWorld (Postmix.World.call clock node.getBlockCount)) :=
    asks_onWorld (asks_call (h.keep.getBlockCount node hnode))
  obtain ⟨engineR, hbeforeR, hreadR⟩ := refresh_eq_ok hkeepRound hround
  obtain ⟨engineB, hbeforeB, hreadB⟩ := refresh_eq_ok hkeepBlock hblock
  have hafterR := hkeepRound engineR
  have hafterB := hkeepBlock engineB
  rw [stateAfter_of_ok hreadR] at hafterR
  rw [stateAfter_of_ok hreadB] at hafterB
  have hround' : round = countRounds parties.architecture (text engine₁.world.inner) := by
    obtain ⟨answer, s, hpeek, hcount⟩ := of_run_bind_eq_ok (run_onWorld_call hreadR)
    cases hcount
    rw [h.peeked _ _ _ hpeek]
  have hblock' := h.blockCount node hnode _ _ _ (run_onWorld_call hreadB)
  have hlevel : level parties height text initialBlock engine ≤
      level parties height text initialBlock engine₁ :=
    level_mono (trans_of (EngineAsks _ _) hbeforeR hafterR)
  have hlevel' : level parties height text initialBlock engine₁ ≤
      level parties height text initialBlock engine' :=
    level_mono (trans_of (EngineAsks _ _) hbeforeB hafterB)
  refine ⟨⟨?_, ?_⟩, ⟨?_, ?_⟩⟩
  · rw [hblock']
    exact (hlevel.trans hlevel').1
  · rw [hround']
    exact hlevel.2
  · rw [hblock']
    exact Int.le_refl _
  · rw [hround']
    exact hlevel'.2

end Level

/-! ### The loop -/

section Loop

variable {clock : Clock σ} {parties : Parties σ n} {threads : ThreadPool σ} {limits : Limits}

theorem emits_mineSettlementBlocks (node : MiningNode σ) :
    Emits (fun engine : Engine σ n => engine.world.log)
      (Engine.onWorld (mineSettlementBlocks clock node))
      fun _ _ added => added = [.mine settlementBlocks] := by
  have hmine : Emits Postmix.World.log (mineSettlementBlocks (n := n) clock node)
      fun _ _ added => added = [Request.mine settlementBlocks] := by
    refine Postmix.World.emits_note (T := fun _ added => added = [Request.mine settlementBlocks])
      (.silent (Postmix.World.sameLog_of_quiet ?_) fun _ _ => rfl)
    exact (Postmix.World.keeps_call _).bind fun mined => .ite _ (.pure ()) (.throw _)
  exact hmine.zoom fun _ _ => rfl

/-- What a loop that starts with these counts did: its rounds, and what holds of them. -/
structure LoopDid (clock : Clock σ) (parties : Parties σ n) (limits : Limits) (initialBlock : Int)
    (counts : Counts) (loop : EStateM PyError (Engine σ n) Bool) (engine : Engine σ n)
    (turns : List (Turn n)) (ending : List (Request n)) : Prop where
  log : (stateAfter loop engine).world.log =
    engine.world.log ++ (turns.flatMap Turn.requests ++ ending)
  run : LoopRun parties limits counts turns ending (outcome (loop.run engine))
  steady : ∀ height text, Steady clock parties height text →
    (∀ turn ∈ turns, level parties height text initialBlock engine ≤ turn.counts) ∧
      turns.Pairwise fun turn turn' => turn.counts ≤ turn'.counts
  nothing_due : (limits.reached counts = true → NothingDue counts engine) →
    outcome (loop.run engine) = .ok true →
      NothingDue (lastCounts counts turns) (stateAfter loop engine)

theorem loopDid_mine {node : MiningNode σ} {counts : Counts} (initialBlock : Int)
    (hreached : limits.reached counts = true) (engine : Engine σ n) :
    LoopDid clock parties limits initialBlock counts
      (do Engine.onWorld (mineSettlementBlocks clock node); return true) engine []
      [.mine settlementBlocks] where
  log := by
    obtain ⟨added, hlog, rfl⟩ := @emits_mineSettlementBlocks σ n clock node engine
    rw [stateAfter_bind_pure]
    exact hlog
  run := by
    rw [EStateM.run_bind]
    cases (Engine.onWorld (mineSettlementBlocks clock node)).run engine with
    | ok _ engine' => exact .mined hreached
    | error error engine' => exact .notMined error hreached
  steady _ _ _ := ⟨by simp, .nil⟩
  nothing_due h _ := by
    rw [stateAfter_bind_pure]
    exact nothingDue_of_same (sameInvoices_onWorld _ engine) (h hreached)

/-- A round of the loop before the others. -/
theorem loopDid_step {node : MiningNode σ} (hnode : parties.node = some node) {initialBlock : Int}
    {counts : Counts} (hreached : limits.reached counts = false)
    {rest : Counts → EStateM PyError (Engine σ n) Bool}
    (hrest : ∀ counts engine, ∃ turns ending,
      LoopDid clock parties limits initialBlock counts (rest counts) engine turns ending)
    (engine : Engine σ n) :
    ∃ turns ending, LoopDid clock parties limits initialBlock counts (do
      let counts' ← refreshCounts clock parties node initialBlock
      updateAll clock parties threads limits node counts'
      rest counts') engine turns ending := by
  have hquiet : EngineAsks (fun _ => False) AnyChange engine
      (stateAfter (refreshCounts clock parties node initialBlock) engine) :=
    asks_refreshCounts (parties.keep_anyChange clock) hnode initialBlock engine
  obtain ⟨added, hlog, hadded⟩ := hquiet.log
  obtain rfl := List.eq_nil_iff_forall_not_mem.mpr hadded
  rw [List.append_nil] at hlog
  cases hrefresh : (refreshCounts clock parties node initialBlock).run engine with
  | error error engine₁ =>
    rw [stateAfter_of_error hrefresh] at hlog
    refine ⟨[], [], ?_, ?_, fun _ _ _ => ⟨by simp, .nil⟩, ?_⟩
    · simp only [stateAfter, EStateM.run_bind, hrefresh, resultState]
      simpa using hlog
    · simp only [EStateM.run_bind, hrefresh]
      exact .notRefreshed error hreached
    · simp only [EStateM.run_bind, hrefresh]
      intro _ hr
      cases hr
  | ok counts' engine₁ =>
    rw [stateAfter_of_ok hrefresh] at hlog
    obtain ⟨added, hlog₁, turn, rfl, rfl, hfits, hcomplete⟩ :=
      @emits_updateAll σ n clock parties threads limits node hnode counts' engine₁
    have hlevels : ∀ height text, Steady clock parties height text →
        level parties height text initialBlock engine ≤ turn.counts ∧
          turn.counts ≤ level parties height text initialBlock engine₁ :=
      fun _ _ hsteady => level_refreshCounts hsteady hnode hrefresh
    cases hupdate : (updateAll clock parties threads limits node turn.counts).run engine₁ with
    | error error engine₂ =>
      rw [stateAfter_of_error hupdate] at hlog₁
      refine ⟨[turn], [], ?_, ?_, fun height text hsteady => ⟨?_, List.pairwise_singleton _ _⟩, ?_⟩
      · simp only [stateAfter, EStateM.run_bind, hrefresh, hupdate, resultState]
        simpa [hlog] using hlog₁
      · simp only [EStateM.run_bind, hrefresh, hupdate]
        exact .raised turn error hreached hfits
      · simpa using (hlevels height text hsteady).1
      · simp only [EStateM.run_bind, hrefresh, hupdate]
        intro _ hr
        cases hr
    | ok _ engine₂ =>
      rw [stateAfter_of_ok hupdate] at hlog₁
      rw [hupdate] at hcomplete
      obtain ⟨turns, ending, hdid⟩ := hrest turn.counts engine₂
      refine ⟨turn :: turns, ending, ?_, ?_, fun height text hsteady => ?_, ?_⟩
      · have hlog₂ := hdid.log
        simp only [stateAfter, EStateM.run_bind, hrefresh, hupdate] at hlog₂ ⊢
        have hround : engine₂.world.log = engine₁.world.log ++ turn.requests := hlog₁
        rw [hlog₂, hround, hlog]
        simp
      · simp only [EStateM.run_bind, hrefresh, hupdate]
        exact .turn turn hreached hfits (hcomplete rfl) hdid.run
      · obtain ⟨hbefore, hafter⟩ := hlevels height text hsteady
        have hkeep : EngineAsks (fun _ => True) (Grown height text) engine₁
            (stateAfter (updateAll clock parties threads limits node turn.counts) engine₁) :=
          asks_updateAll hsteady.keep hnode turn.counts engine₁
        rw [stateAfter_of_ok hupdate] at hkeep
        have hmono : level parties height text initialBlock engine₁ ≤
            level parties height text initialBlock engine₂ := level_mono hkeep
        obtain ⟨hlater, hpairwise⟩ := hdid.steady height text hsteady
        have hnext : ∀ turn' ∈ turns, turn.counts ≤ turn'.counts := fun turn' hturn' =>
          (hafter.trans hmono).trans (hlater turn' hturn')
        refine ⟨fun turn' hturn' => ?_, List.pairwise_cons.mpr ⟨hnext, hpairwise⟩⟩
        rcases List.mem_cons.mp hturn' with rfl | hturn'
        · exact hbefore
        · exact hbefore.trans (hnext turn' hturn')
      · intro _ hr
        have hnothing := hdid.nothing_due fun _ => nothingDue_updateAll hupdate
        simp only [stateAfter, EStateM.run_bind, hrefresh, hupdate] at hr hnothing ⊢
        have hlast : lastCounts counts (turn :: turns) = lastCounts turn.counts turns := by
          cases turns with
          | nil => rfl
          | cons first others => simp [lastCounts, List.getLast?_cons]
        rw [hlast]
        exact hnothing hr

/-- The loop as a run of its rounds. -/
theorem runLoop_did {node : MiningNode σ} (hnode : parties.node = some node) (initialBlock : Int)
    (fuel : Nat) (counts : Counts) (engine : Engine σ n) :
    ∃ turns ending, LoopDid clock parties limits initialBlock counts
      (runLoop clock parties threads limits node initialBlock fuel counts) engine turns ending := by
  induction fuel generalizing counts engine with
  | zero =>
    unfold runLoop
    split
    · rename_i hreached
      exact ⟨[], _, loopDid_mine initialBlock hreached engine⟩
    · rename_i hreached
      rw [Bool.not_eq_true] at hreached
      refine ⟨[], [], ?_, .running hreached, fun _ _ _ => ⟨by simp, .nil⟩, ?_⟩
      · show engine.world.log = engine.world.log ++ []
        rw [List.append_nil]
      · intro _ hr
        cases hr
  | succ fuel ih =>
    unfold runLoop
    split
    · rename_i hreached
      exact ⟨[], _, loopDid_mine initialBlock hreached engine⟩
    · rename_i hreached
      rw [Bool.not_eq_true] at hreached
      exact loopDid_step hnode hreached (fun counts engine => ih counts engine) engine

end Loop

/-! ### What a run asks for -/

section Requests

variable {parties : Parties σ n} {limits : Limits} {counts : Counts} {turns : List (Turn n)}
  {ending : List (Request n)} {r : Except PyError Bool}

theorem LoopRun.fits (h : LoopRun parties limits counts turns ending r) :
    ∀ turn ∈ turns, turn.Fits parties limits := by
  induction h with
  | raised turn error hreached hfits => simpa using hfits
  | turn turn hreached hfits hcomplete hrest ih =>
    intro turn' hturn'
    rcases List.mem_cons.mp hturn' with rfl | hlater
    · exact hfits
    · exact ih turn' hlater
  | _ => simp

/-- The settlement blocks are the last request. -/
theorem LoopRun.ending_cases (h : LoopRun parties limits counts turns ending r) :
    ending = [] ∨ ending = [.mine settlementBlocks] := by
  induction h with
  | mined _ => exact .inr rfl
  | notMined _ _ => exact .inr rfl
  | turn _ _ _ _ _ ih => exact ih
  | _ => exact .inl rfl

/-- A loop that ends was complete in its last round, at counts that reach a limit. -/
theorem LoopRun.returned (h : LoopRun parties limits counts turns ending r) (hr : r = .ok true) :
    ending = [.mine settlementBlocks] ∧
      (turns = [] ∧ limits.reached counts = true ∨
        ∃ earlier turn, turns = earlier ++ [turn] ∧ limits.reached turn.counts = true ∧
          turn.Complete parties limits) := by
  induction h with
  | mined hreached => exact ⟨rfl, .inl ⟨rfl, hreached⟩⟩
  | turn turn hreached hfits hcomplete hrest ih =>
    obtain ⟨hending, hlast⟩ := ih hr
    refine ⟨hending, .inr ?_⟩
    rcases hlast with ⟨rfl, hend⟩ | ⟨earlier, last, rfl, hend, hall⟩
    · exact ⟨[], turn, rfl, hend, hcomplete⟩
    · exact ⟨turn :: earlier, last, rfl, hend, hall⟩
  | _ => cases hr

theorem LoopRun.still_running (h : LoopRun parties limits counts turns ending r)
    (hr : r = .ok false) : ending = [] := by
  induction h with
  | running _ => rfl
  | turn _ _ _ _ _ ih => exact ih hr
  | _ => cases hr

theorem Turn.Fits.start_mem {turn : Turn n} (h : turn.Fits parties limits) {i : Fin n}
    {counts : Counts} (hmem : .start i counts ∈ turn.requests) :
    startCondition limits (parties.clients i) counts = true := by
  have hstarted : i ∈ turn.started ∧ turn.counts = counts := by
    simpa [Turn.requests, Turn.asked] using hmem
  obtain ⟨hi, rfl⟩ := hstarted
  exact (List.mem_filter.mp (h.started.subset hi)).2

theorem Turn.Fits.stop_mem {turn : Turn n} (h : turn.Fits parties limits) {i : Fin n}
    {counts : Counts} (hmem : .stop i counts ∈ turn.requests) :
    startCondition limits (parties.clients i) counts = false := by
  have hstopped : i ∈ turn.stopped ∧ turn.counts = counts := by
    simpa [Turn.requests, Turn.asked] using hmem
  obtain ⟨hi, rfl⟩ := hstopped
  simpa using (List.mem_filter.mp (h.stopped.subset hi)).2

theorem mine_not_mem (turns : List (Turn n)) (blocks : Nat) :
    .mine blocks ∉ turns.flatMap Turn.requests := by
  simp [Turn.requests, Turn.asked]

theorem mixing_of_reached (h : limits.reached counts = true) :
    mixing parties limits counts = [] := by
  rw [mixing, List.filter_eq_nil_iff]
  intro i _
  simp [startCondition, h]

theorem resting_of_reached (h : limits.reached counts = true) :
    resting parties limits counts = List.finRange n := by
  rw [resting, List.filter_eq_self]
  intro i _
  simp [startCondition, h]

theorem not_reached_zero (limits : Limits) : limits.reached ⟨0, 0⟩ = false := by
  simp only [Limits.reached, Bool.or_eq_false_iff, Bool.and_eq_false_iff, decide_eq_false_iff_not]
  omega

end Requests

/-! ### Runs of the engine -/

/-- When a client is to mix: no limit is reached, and the counts are in the client's own bounds. -/
structure MayMix (limits : Limits) (client : MixingClient σ) (counts : Counts) : Prop where
  below_rounds : 0 < limits.rounds → counts.round < limits.rounds
  below_blocks : 0 < limits.blocks → counts.block < limits.blocks
  before_stop_block : 0 < client.stop.1 → counts.block < client.stop.1
  before_stop_round : 0 < client.stop.2 → counts.round < client.stop.2
  after_delay_blocks : client.delay.1 ≤ counts.block
  after_delay_rounds : client.delay.2 ≤ counts.round
  not_skipped : counts.round ∉ client.skipRounds

theorem reached_eq_false_iff {limits : Limits} {counts : Counts} :
    limits.reached counts = false ↔ (0 < limits.rounds → counts.round < limits.rounds) ∧
      (0 < limits.blocks → counts.block < limits.blocks) := by
  simp only [Limits.reached, Bool.or_eq_false_iff, Bool.and_eq_false_iff, decide_eq_false_iff_not]
  omega

theorem startCondition_iff {limits : Limits} {client : MixingClient σ} {counts : Counts} :
    startCondition limits client counts = true ↔ MayMix limits client counts := by
  unfold startCondition
  constructor
  · intro h
    split_ifs at h with hreached hstopBlock hstopRound hdelayBlock hdelayRound hskip
    rw [Bool.not_eq_true, reached_eq_false_iff] at hreached
    exact ⟨hreached.1, hreached.2, by omega, by omega, by omega, by omega, hskip⟩
  · intro h
    have hreached := reached_eq_false_iff.mpr ⟨h.below_rounds, h.below_blocks⟩
    have hstopBlock := h.before_stop_block
    have hstopRound := h.before_stop_round
    have hdelayBlock := h.after_delay_blocks
    have hdelayRound := h.after_delay_rounds
    rw [if_neg (by simp [hreached]), if_neg (by omega), if_neg (by omega), if_neg (by omega),
      if_neg (by omega), if_neg h.not_skipped]

section Engine

variable (clock : Clock σ) (parties : Parties σ n) (threads : ThreadPool σ) (limits : Limits)

/-- What a run of the engine did: its rounds, and what holds of them. -/
structure RunDid (fuel : Nat) (engine : Engine σ n) (turns : List (Turn n))
    (ending : List (Request n)) : Prop where
  log : (stateAfter (runEngine clock parties threads limits fuel) engine).world.log =
    engine.world.log ++ (turns.flatMap Turn.requests ++ ending)
  run : LoopRun parties limits ⟨0, 0⟩ turns ending
    (outcome ((runEngine clock parties threads limits fuel).run engine))
  steady : ∀ height text, Steady clock parties height text →
    turns.Pairwise fun turn turn' => turn.counts ≤ turn'.counts
  nothing_due : outcome ((runEngine clock parties threads limits fuel).run engine) = .ok true →
    NothingDue (lastCounts ⟨0, 0⟩ turns)
      (stateAfter (runEngine clock parties threads limits fuel) engine)

theorem runEngine_did (fuel : Nat) (engine : Engine σ n) :
    ∃ turns ending, RunDid clock parties threads limits fuel engine turns ending := by
  have hzero := not_reached_zero limits
  -- The engine raises before its loop.
  have hraised : ∀ (error : PyError) (engine' : Engine σ n),
      (runEngine clock parties threads limits fuel).run engine = .error error engine' →
      engine'.world.log = engine.world.log →
      ∃ turns ending, RunDid clock parties threads limits fuel engine turns ending := by
    intro error engine' hrun hlog
    refine ⟨[], [], ?_, ?_, fun _ _ _ => .nil, ?_⟩
    · rw [stateAfter_of_error hrun]
      simpa using hlog
    · rw [hrun]
      exact .notRefreshed error hzero
    · rw [hrun]
      intro hr
      cases hr
  cases hnode : parties.node with
  | none =>
    refine hraised (.runtimeError "Bitcoin node is not initialized") engine ?_ rfl
    simp only [runEngine, hnode]
    rfl
  | some node =>
    have hquiet : EngineAsks (fun _ => False) AnyChange engine
        (stateAfter (Engine.onWorld (Postmix.World.call clock node.getBlockCount)) engine) :=
      asks_onWorld (asks_call (keeps_anyChange _)) engine
    obtain ⟨added, hlog, hadded⟩ := hquiet.log
    obtain rfl := List.eq_nil_iff_forall_not_mem.mpr hadded
    rw [List.append_nil] at hlog
    cases hcount : (Engine.onWorld (Postmix.World.call clock node.getBlockCount)).run engine with
    | error error engine₁ =>
      rw [stateAfter_of_error hcount] at hlog
      refine hraised error engine₁ ?_ hlog
      simp only [runEngine, hnode, EStateM.run_bind, hcount]
    | ok initialBlock engine₁ =>
      rw [stateAfter_of_ok hcount] at hlog
      have hrun : (runEngine clock parties threads limits fuel).run engine =
          (runLoop clock parties threads limits node initialBlock fuel ⟨0, 0⟩).run engine₁ := by
        simp only [runEngine, hnode, EStateM.run_bind, hcount]
      obtain ⟨turns, ending, hdid⟩ := @runLoop_did σ n clock parties threads limits node hnode
        initialBlock fuel ⟨0, 0⟩ engine₁
      refine ⟨turns, ending, ?_, ?_, fun height text hsteady => (hdid.steady _ _ hsteady).2, ?_⟩
      · rw [stateAfter, hrun, ← hlog]
        exact hdid.log
      · rw [hrun]
        exact hdid.run
      · rw [stateAfter, hrun]
        refine hdid.nothing_due fun hreached => ?_
        rw [hzero] at hreached
        cases hreached

/-- What a run did that returned.  The counts of its last round reach a limit, and every invoice that
is due at them was paid.  That round stopped every client once and started none, and then the
settlement blocks were mined, which had not been done before. -/
structure Settled (counts : Counts) (added : List (Request n))
    (taken : List ((Int × Int) × Invoice)) (engine : Engine σ n) : Prop where
  reached : limits.reached counts = true
  due_paid : (engine.funding.entries.filter fun entry =>
    isDue counts.block counts.round entry.1).Perm
      (taken.filter fun entry => isDue counts.block counts.round entry.1)
  last_round : ∃ before, ∃ batches : List (List Invoice), ∃ paused stopped : List (Fin n),
    added = before ++ (.refresh counts :: (batches.map (.pay · counts) ++ (paused.map .pause ++
      (stopped.map (.stop · counts) ++ [.mine settlementBlocks])))) ∧
    stopped.Perm (List.finRange n) ∧ ∀ blocks, .mine blocks ∉ before

/-- What holds of a run that returned, that is still going, or that raised. -/
def RunResult (added : List (Request n)) (taken : List ((Int × Int) × Invoice))
    (engine : Engine σ n) : Except PyError Bool → Prop
  | .ok true => ∃ counts, Settled limits counts added taken engine
  | .ok false => ∀ blocks, .mine blocks ∉ added
  | .error _ => True

/-- Each invoice is paid at most once in a run, after its delays.  A run that returns paid all that
are due and is settled, and one that is still going has not mined. -/
theorem runEngine_returns (fuel : Nat) (engine : Engine σ n) :
    ∃ added taken, Paid added taken engine
        (stateAfter (runEngine clock parties threads limits fuel) engine) ∧
      RunResult limits added taken engine
        (outcome ((runEngine clock parties threads limits fuel).run engine)) := by
  obtain ⟨added, taken, hpaid⟩ := @pays_runEngine σ n clock parties threads limits fuel engine
  obtain ⟨turns, ending, hdid⟩ := runEngine_did clock parties threads limits fuel engine
  refine ⟨added, taken, hpaid, ?_⟩
  have hadded : added = turns.flatMap Turn.requests ++ ending :=
    List.append_cancel_left (hpaid.log.symm.trans hdid.log)
  have hrun := hdid.run
  have hdue := hdid.nothing_due
  cases hr : outcome ((runEngine clock parties threads limits fuel).run engine) with
  | error _ => trivial
  | ok finished =>
    rw [hr] at hrun
    cases finished with
    | false =>
      obtain rfl := hrun.still_running rfl
      rw [List.append_nil] at hadded
      rw [hadded]
      exact mine_not_mem turns
    | true =>
      obtain ⟨rfl, ⟨rfl, hreached⟩ | ⟨earlier, last, rfl, hreached, hall⟩⟩ := hrun.returned rfl
      · rw [not_reached_zero] at hreached
        cases hreached
      · have hnothing : NothingDue last.counts
            (stateAfter (runEngine clock parties threads limits fuel) engine) := by
          simpa [lastCounts] using hdue hr
        have hstarted : last.started = [] := by
          have hperm := hall.started
          rw [mixing_of_reached hreached] at hperm
          exact hperm.eq_nil
        have hstopped := hall.stopped
        rw [resting_of_reached hreached] at hstopped
        refine ⟨last.counts, hreached, hpaid.due_paid hnothing, earlier.flatMap Turn.requests,
          last.paid, last.paused, last.stopped, ?_, hstopped, mine_not_mem earlier⟩
        have hrequests : last.requests = .refresh last.counts ::
            (last.paid.map (.pay · last.counts) ++
              (last.paused.map .pause ++ last.stopped.map (.stop · last.counts))) := by
          rw [Turn.requests, Turn.asked, hstarted]
          rfl
        rw [hadded, List.flatMap_append, List.flatMap_singleton, hrequests]
        simp only [List.append_assoc, List.cons_append]

end Engine

end CoinjoinEmulator.WasabiEngine
