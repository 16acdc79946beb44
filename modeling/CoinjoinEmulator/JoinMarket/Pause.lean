import CoinjoinEmulator.JoinMarket.TakerRun

/-! The pause after a timed-out attempt: for how long a returned -1 holds the next attempt of a
taker back. -/

namespace CoinjoinEmulator

open ProofKit RoundEventRecord JoinMarketClientServer JoinmarketEngine TakerClient

/-- The truth value of `coinjoin_in_process` that a body has. -/
def SessionBody.inProcess : SessionBody → Option Bool
  | .object inProcess => some inProcess
  | _ => none

/-- Whether jmwalletd runs a coinjoin, as the copy `path` of an update reads it. -/
def processStatus (path : UpdatePath) (answers : TakerAnswers) : Option Bool :=
  match path with
  | .sync => (session answers).inProcess
  | .async => (sessionAsync answers).inProcess

/-- An update at `currentBlock` would report the timeout of an attempt that jmwalletd no longer
runs, while `next_coinjoin_allowed` does not reach as far as the pause after a timeout. -/
def ForgetsPause (client : JoinMarketClientServer) (inProcess : Option Bool) (currentBlock : Int) :
    Prop :=
  inProcess = some false ∧ client.hasUnconfirmedRound = true ∧
    client.coinjoinTimedOut currentBlock = true ∧ 0 < client.timeBetweenRounds ∧
    client.nextCoinjoinAllowed < currentBlock + client.timeBetweenRounds

/-! ### What an update does to the pause -/

/-- The two clients are paused until the same block. -/
structure SamePause (client client' : JoinMarketClientServer) : Prop where
  next_eq : client'.nextCoinjoinAllowed = client.nextCoinjoinAllowed
  between_eq : client'.timeBetweenRounds = client.timeBetweenRounds

/-- The relation `SamePause` between the states of an update. -/
def KeepsPause (s s' : TakerState) : Prop := SamePause s.client s'.client

instance : Std.Refl KeepsPause := ⟨fun _ => ⟨rfl, rfl⟩⟩

instance : IsTrans TakerState KeepsPause :=
  ⟨fun _ _ _ h h' => ⟨h'.next_eq.trans h.next_eq, h'.between_eq.trans h.between_eq⟩⟩

theorem keepsPause_onClient {f : JoinMarketClientServer → JoinMarketClientServer}
    (h : ∀ client, SamePause client (f client)) : Keeps KeepsPause (onClient f) :=
  .modify fun s => h s.client

theorem keepsPause_startCoinjoin (answers : TakerAnswers) (offer : Offer) :
    Keeps KeepsPause (startCoinjoin answers offer) := by
  refine Keeps.bind (.ofExcept _) fun jsonData => Keeps.bind ?_ fun _ => .ofExcept _
  exact .modify fun s => ⟨rfl, rfl⟩

theorem keepsPause_prepareAttempt (answers : TakerAnswers) (currentRound : Int) :
    Keeps KeepsPause (prepareAttempt answers currentRound) := by
  refine Keeps.bind .get fun s => Keeps.bind (.ofExcept _) fun ref => Keeps.bind (.ofExcept _)
    fun address => Keeps.bind .get fun s' => ?_
  refine Keeps.bind (keepsPause_onClient fun client => ?_) fun _ => .pure _
  exact ⟨rfl, rfl⟩

theorem keepsPause_recordAttempt (offer : Offer) (currentBlock : Int) :
    Keeps KeepsPause (recordAttempt offer currentBlock) := fun _ => ⟨rfl, rfl⟩

theorem keepsPause_noteAttemptStarted (event : Nat) :
    Keeps KeepsPause (noteAttemptStarted event) := fun _ => ⟨rfl, rfl⟩

theorem keepsPause_startAttempt (answers : TakerAnswers) (currentBlock currentRound : Int) :
    Keeps KeepsPause (startAttempt (startCoinjoin answers) answers currentBlock currentRound) := by
  refine Keeps.bind (keepsPause_prepareAttempt answers currentRound) fun offer =>
    Keeps.bind (keepsPause_recordAttempt offer currentBlock) fun event =>
      Keeps.bind ?_ fun _ => keepsPause_noteAttemptStarted event
  refine .tryCatch (keepsPause_startCoinjoin answers offer) fun error => ?_
  refine Keeps.bind (keepsPause_onClient fun client => ?_) fun _ => .throw error
  exact ⟨rfl, rfl⟩

/-- What one update can do to the pause: it keeps it, and then reports only the timeout of an
attempt that jmwalletd no longer runs, or it stops an attempt and starts the pause after it. -/
inductive PauseEffect (client : JoinMarketClientServer) (inProcess : Option Bool)
    (currentBlock : Int) : EStateM.Result PyError TakerState Int → Prop
  | kept {result} : SamePause client (resultState result).client →
      (returnsNegative result = true → inProcess = some false ∧
        client.hasUnconfirmedRound = true ∧ client.coinjoinTimedOut currentBlock = true) →
      PauseEffect client inProcess currentBlock result
  | paused {result} :
      (resultState result).client.nextCoinjoinAllowed = currentBlock + client.timeBetweenRounds →
      (resultState result).client.timeBetweenRounds = client.timeBetweenRounds →
      PauseEffect client inProcess currentBlock result

section Branches

variable {answers : TakerAnswers} {inProcess : Bool} {currentBlock currentRound : Int}
  {client : JoinMarketClientServer} {requests : List TakerRequest}

theorem samePause_refreshed : SamePause client (refreshed answers inProcess client) := by
  obtain ⟨history, hrefreshed⟩ := refreshed_eq answers inProcess client
  rw [hrefreshed]
  exact ⟨rfl, rfl⟩

theorem PauseEffect.of_unconfirmed
    (hpending : (refreshed answers inProcess client).hasUnconfirmedFinishedAttempt = true) :
    PauseEffect client (some inProcess) currentBlock (.ok
      ((refreshed answers inProcess client).unconfirmedFinishedAttemptResult currentBlock)
      ⟨refreshed answers inProcess client, requests⟩) := by
  refine .kept samePause_refreshed fun hnegative => ?_
  obtain ⟨history, hrefreshed⟩ := refreshed_eq answers inProcess client
  rw [hrefreshed] at hpending hnegative
  simp only [hasUnconfirmedFinishedAttempt, Bool.and_eq_true, Bool.not_eq_true'] at hpending
  simp only [returnsNegative, unconfirmedFinishedAttemptResult] at hnegative
  refine ⟨congrArg some hpending.2, hpending.1, ?_⟩
  split at hnegative
  · assumption
  · simp at hnegative

theorem PauseEffect.of_startAttempt {status : Option Bool} :
    PauseEffect client status currentBlock
      ((startAttempt (startCoinjoin answers) answers currentBlock currentRound).run
        ⟨refreshed answers inProcess client, requests⟩) := by
  refine .kept ?_ fun hnegative => ?_
  · have hsame := keepsPause_startAttempt answers currentBlock currentRound
      ⟨refreshed answers inProcess client, requests⟩
    have hrefreshed := @samePause_refreshed answers inProcess client
    exact ⟨hsame.next_eq.trans hrefreshed.next_eq, hsame.between_eq.trans hrefreshed.between_eq⟩
  · rw [(startAttempt_effect rfl).1] at hnegative
    cases hnegative

theorem PauseEffect.of_stop {status : Option Bool} :
    PauseEffect client status currentBlock
      ((stopTimedOutAttempt answers currentBlock).run
        ⟨refreshed answers inProcess client, requests⟩) := by
  rw [run_stopTimedOutAttempt]
  have hrefreshed := @samePause_refreshed answers inProcess client
  exact .paused (congrArg (currentBlock + ·) hrefreshed.between_eq) hrefreshed.between_eq

theorem PauseEffect.of_idle {status : Option Bool} :
    PauseEffect client status currentBlock (.ok 0 ⟨refreshed answers inProcess client, requests⟩) :=
  .kept samePause_refreshed fun h => by simp [returnsNegative] at h

theorem PauseEffect.of_error {status : Option Bool} {error : PyError} :
    PauseEffect client status currentBlock
      (.error error ⟨updateCoinHistory answers.utxos client, requests⟩) := by
  refine .kept ?_ fun h => by cases h
  cases answers.utxos <;> exact ⟨rfl, rfl⟩

end Branches

theorem runUpdate_pause (path : UpdatePath) (answers : TakerAnswers)
    (currentBlock currentRound : Int) (s : TakerState) :
    PauseEffect s.client (processStatus path answers) currentBlock
      ((runUpdate path answers currentBlock currentRound).run s) := by
  cases path with
  | sync =>
    simp only [runUpdate, processStatus]
    rcases update_cases answers currentBlock currentRound s with
      ⟨inProcess, hsession⟩ | ⟨error, hrun⟩
    · rw [run_update hsession, hsession]
      dsimp only
      split
      · rename_i hpending
        exact .of_unconfirmed hpending
      · split
        · exact .of_startAttempt
        · split
          · exact .of_stop
          · exact .of_idle
    · rw [hrun]
      exact .of_error
  | async =>
    simp only [runUpdate, processStatus]
    rcases updateAsync_cases answers currentBlock currentRound s with
      ⟨inProcess, hsession⟩ | ⟨error, hrun⟩
    · rw [run_updateAsync hsession, hsession]
      dsimp only
      split
      · rename_i hpending
        exact .of_unconfirmed hpending
      · split
        · exact .of_idle
        · split
          · exact .of_startAttempt
          · split
            · exact .of_stop
            · exact .of_idle
    · rw [hrun]
      exact .of_error

/-! ### The attempts after a timeout -/

/-- The client starts no attempt before `deadline`, and it has recorded none from its event `first`
on. -/
structure PauseInv (first : Nat) (deadline : Int) (client : JoinMarketClientServer)
    (recordedAt : Nat → Int × Int) (block : Int) : Prop where
  paused : deadline ≤ max client.nextCoinjoinAllowed block
  later : deadline ≤ block + client.timeBetweenRounds
  heldBack : ∀ j, first ≤ j → j < client.roundEvents.length → deadline ≤ (recordedAt j).1

section PauseInv

variable {first : Nat} {deadline : Int} {client client' : JoinMarketClientServer}
  {recordedAt recordedAt' : Nat → Int × Int} {block block' : Int}

/-- Without a new attempt the pause only has to be kept. -/
theorem PauseInv.kept (hinv : PauseInv first deadline client recordedAt block)
    (hsame : SamePause client client')
    (hlength : client'.roundEvents.length = client.roundEvents.length) (hblock : block ≤ block')
    (hrecorded : ∀ j < client.roundEvents.length, recordedAt' j = recordedAt j) :
    PauseInv first deadline client' recordedAt' block' where
  paused := by
    rw [hsame.next_eq]
    exact hinv.paused.trans (max_le_max_left _ hblock)
  later := by
    rw [hsame.between_eq]
    exact hinv.later.trans (Int.add_le_add_right hblock _)
  heldBack j hfirst hj := by
    rw [hlength] at hj
    rw [hrecorded j hj]
    exact hinv.heldBack j hfirst hj

/-- The attempts of a client after an update at `block'`: the new one was not recorded during the
pause. -/
theorem PauseInv.heldBack_update (hinv : PauseInv first deadline client recordedAt block)
    {currentRound : Int} {result : EStateM.Result PyError TakerState Int}
    (heffect : UpdateEffect client block' currentRound result) (hblock : block ≤ block')
    (hrecorded : ∀ j < client.roundEvents.length, recordedAt' j = recordedAt j)
    (hnew : recordedAt' client.roundEvents.length = (block', currentRound)) :
    ∀ j, first ≤ j → j < (resultState result).client.roundEvents.length →
      deadline ≤ (recordedAt' j).1 := by
  intro j hfirst hj
  rcases Nat.lt_or_ge j client.roundEvents.length with hlt | hge
  · rw [hrecorded j hlt]
    exact hinv.heldBack j hfirst hlt
  · cases heffect with
    | kept hkept =>
      rw [hkept.roundEvents_eq] at hj
      omega
    | recorded hattempt hnegative hpending hpaused =>
      obtain ⟨event, hevents, -⟩ := hattempt.roundEvents_eq
      rw [hevents, List.length_append, List.length_singleton] at hj
      rw [show j = client.roundEvents.length by omega, hnew]
      simp only [isPausedAfterRefresh, Bool.or_eq_false_iff, decide_eq_false_iff_not] at hpaused
      have hallowed : client.nextCoinjoinAllowed ≤ block' := by omega
      exact hinv.paused.trans (max_le hallowed hblock)

theorem PauseInv.update (hinv : PauseInv first deadline client recordedAt block)
    {currentRound : Int} {inProcess : Option Bool}
    {result : EStateM.Result PyError TakerState Int}
    (hpause : PauseEffect client inProcess block' result)
    (heffect : UpdateEffect client block' currentRound result) (hblock : block ≤ block')
    (hrecorded : ∀ j < client.roundEvents.length, recordedAt' j = recordedAt j)
    (hnew : recordedAt' client.roundEvents.length = (block', currentRound)) :
    PauseInv first deadline (resultState result).client recordedAt' block' := by
  have hlater := hinv.later
  have hheld := hinv.heldBack_update heffect hblock hrecorded hnew
  cases hpause with
  | kept hsame =>
    refine ⟨?_, ?_, hheld⟩
    · rw [hsame.next_eq]
      exact hinv.paused.trans (max_le_max_left _ hblock)
    · rw [hsame.between_eq]
      omega
  | paused hnext hbetween =>
    -- a later timeout pauses the client for longer
    refine ⟨?_, ?_, hheld⟩
    · rw [hnext]
      exact le_max_of_le_left (by omega)
    · rw [hbetween]
      omega

/-- An update that returns -1 holds the next attempt back, unless it forgets the pause. -/
theorem PauseInv.of_timeout {inProcess : Option Bool}
    {result : EStateM.Result PyError TakerState Int}
    (hpause : PauseEffect client inProcess block result) (hnegative : returnsNegative result = true)
    (hremembers : ¬ForgetsPause client inProcess block)
    (hlength : (resultState result).client.roundEvents.length ≤ first) :
    PauseInv first (block + client.timeBetweenRounds) (resultState result).client recordedAt
      block := by
  refine ⟨?_, ?_, fun j hfirst hj => by omega⟩
  · cases hpause with
    | kept hsame htimeout =>
      obtain ⟨hidle, hpending, htimedOut⟩ := htimeout hnegative
      have hlong : 0 < client.timeBetweenRounds →
          block + client.timeBetweenRounds ≤ client.nextCoinjoinAllowed := fun hpos =>
        Int.not_lt.mp fun hlt => hremembers ⟨hidle, hpending, htimedOut, hpos, hlt⟩
      rw [hsame.next_eq]
      rcases Int.lt_or_le 0 client.timeBetweenRounds with hpos | hnonpos
      · exact le_max_of_le_left (hlong hpos)
      · exact le_max_of_le_right (by omega)
    | paused hnext => exact le_max_of_le_left hnext.ge
  · cases hpause with
    | kept hsame => rw [hsame.between_eq]
    | paused hnext hbetween => rw [hbetween]

end PauseInv

/-! ### Runs -/

/-- A mark or a scan changes the contents of recorded events only. -/
theorem TakerStep.cases {w w' : TakerWorld} (h : TakerStep w w') :
    (∃ (i : Nat) (client : JoinMarketClientServer) (path : UpdatePath) (answers : TakerAnswers)
      (currentBlock currentRound : Int), w.engine.clients[i]? = some client ∧
      w.block ≤ currentBlock ∧ w' = w.afterUpdate i client currentBlock currentRound
        ((runUpdate path answers currentBlock currentRound).run ⟨client, []⟩)) ∨
    w'.block = w.block ∧ w'.recordedAt = w.recordedAt ∧ w.engine.clients.Forall₂
      (OnlyEvents (List.Forall₂ fun _ _ => True)) w'.engine.clients := by
  cases h with
  | update i client path answers currentBlock currentRound result hi _ hblock _ hrun =>
    subst hrun
    exact .inl ⟨i, client, path, answers, currentBlock, currentRound, hi, hblock, rfl⟩
  | mark i client hi _ =>
    exact .inr ⟨rfl, rfl, onlyEvents_mark w.engine _ _ w.block (fun _ => trivial)
      fun _ _ => trivial⟩
  | scan node =>
    exact .inr ⟨rfl, rfl, onlyEvents_scan w.engine node (fun _ => trivial)
      fun _ _ _ _ => trivial⟩

/-- No attempt of the client `i` from its event `first` on was recorded before `deadline`. -/
def HeldBack (i first : Nat) (deadline : Int) (w : TakerWorld) : Prop :=
  ∀ client, w.engine.clients[i]? = some client → ∀ j, first ≤ j → j < client.roundEvents.length →
    deadline ≤ (w.recordedAt i j).1

theorem pauseInv_of_step {i first : Nat} {deadline : Int} {w w' : TakerWorld}
    (hinv : ∀ client, w.engine.clients[i]? = some client →
      PauseInv first deadline client (w.recordedAt i) w.block) (hstep : TakerStep w w') :
    ∀ client, w'.engine.clients[i]? = some client →
      PauseInv first deadline client (w'.recordedAt i) w'.block := by
  intro client' hclient'
  rcases hstep.cases with ⟨k, client, path, answers, currentBlock, currentRound, hk, hblock, rfl⟩ |
    ⟨hblock, hrecorded, hclients⟩
  · simp only [TakerWorld.afterUpdate, getElem?_modifyClient] at hclient' ⊢
    by_cases hki : k = i
    · subst hki
      rw [if_pos rfl, hk, Option.map_some, Option.some.injEq] at hclient'
      subst hclient'
      exact (hinv client hk).update
        (runUpdate_pause path answers currentBlock currentRound ⟨client, []⟩)
        (runUpdate_effect path answers currentBlock currentRound ⟨client, []⟩) hblock
        (fun j hj => if_neg (by omega)) (if_pos ⟨rfl, Nat.le_refl _⟩)
    · rw [if_neg hki] at hclient'
      exact (hinv client' hclient').kept ⟨rfl, rfl⟩ rfl hblock fun j _ => if_neg (by omega)
  · obtain ⟨client, hclient, events', rfl, hevents⟩ := forall₂_getElem?_right hclients hclient'
    exact (hinv client hclient).kept ⟨rfl, rfl⟩ hevents.length_eq.symm hblock.ge fun j _ => by
      rw [hrecorded]

/-- A timed-out attempt holds the next one back: from an update at `currentBlock` that returns -1
and does not forget the pause, no run records an attempt of its taker at a block below
`currentBlock + time_between_rounds`. -/
theorem timeout_holds_back {w w' : TakerWorld} {i : Nat} {client : JoinMarketClientServer}
    (hi : w.engine.clients[i]? = some client) (path : UpdatePath) (answers : TakerAnswers)
    (currentBlock currentRound : Int) {s : TakerState}
    (htimeout : (runUpdate path answers currentBlock currentRound).run ⟨client, []⟩ = .ok (-1) s)
    (hremembers : ¬ForgetsPause client (processStatus path answers) currentBlock)
    (hrun : takerSystem.Run
      (w.afterUpdate i client currentBlock currentRound (.ok (-1) s)) w') :
    HeldBack i client.roundEvents.length (currentBlock + client.timeBetweenRounds) w' := by
  have hpause := runUpdate_pause path answers currentBlock currentRound ⟨client, []⟩
  have heffect := runUpdate_effect path answers currentBlock currentRound ⟨client, []⟩
  rw [htimeout] at hpause heffect
  have hlength : s.client.roundEvents.length ≤ client.roundEvents.length := by
    cases heffect with
    | kept hkept => exact (congrArg List.length hkept.roundEvents_eq).le
    | recorded hattempt hnegative => cases hnegative
  have hlater : ∀ client', w'.engine.clients[i]? = some client' →
      PauseInv client.roundEvents.length (currentBlock + client.timeBetweenRounds) client'
        (w'.recordedAt i) w'.block := by
    induction hrun with
    | refl =>
      intro client' hclient'
      simp only [TakerWorld.afterUpdate, getElem?_modifyClient, if_true, hi, Option.map_some,
        Option.some.injEq] at hclient'
      subst hclient'
      exact .of_timeout hpause rfl hremembers hlength
    | tail _ hstep ih => exact pauseInv_of_step ih hstep
  exact fun client' hclient' => (hlater client' hclient').heldBack

/-- A taker that waits ten blocks after a timeout. -/
def pausingTaker : JoinMarketClientServer :=
  { limitedTaker with timeBetweenRounds := 10, maxCoinjoins := 0 }

def pausingWorld : TakerWorld := ⟨⟨[pausingTaker], -1, 0⟩, 0, 0, [], fun _ _ => (0, 0)⟩

/-- The taker and its world after it started an attempt at block 0. -/
def startedTaker : JoinMarketClientServer :=
  (resultState ((update idleAnswers 0 0).run ⟨pausingTaker, []⟩)).client

def startedWorld : TakerWorld :=
  pausingWorld.afterUpdate 0 pausingTaker 0 0 ((update idleAnswers 0 0).run ⟨pausingTaker, []⟩)

theorem startedWorld_reachable : takerSystem.Reachable startedWorld := by
  have h0 : takerSystem.Reachable pausingWorld :=
    .init ⟨by simp [pausingWorld, pausingTaker, limitedTaker], by simp [pausingWorld], rfl⟩
  exact h0.step (.update 0 pausingTaker .sync idleAnswers 0 0 _ rfl (by decide) (Int.le_refl 0)
    (Int.le_refl 0) rfl)

/-- The attempt was stopped at block 9; the taker waits at block 18 and starts again at block 19. -/
theorem timeout_holds_back_startedWorld :
    ∃ s w' client, (update inProcessAnswers 9 0).run ⟨startedTaker, []⟩ = .ok (-1) s ∧
      takerSystem.Run (startedWorld.afterUpdate 0 startedTaker 9 0 (.ok (-1) s)) w' ∧
      w'.engine.clients[0]? = some client ∧ client.roundEvents.length = 2 ∧
      (w'.recordedAt 0 1).1 = 19 ∧ HeldBack 0 1 19 w' := by
  have hstopped : (update inProcessAnswers 9 0).run ⟨startedTaker, []⟩ =
    .ok (-1) (resultState ((update inProcessAnswers 9 0).run ⟨startedTaker, []⟩)) := rfl
  have hrun : takerSystem.Run (startedWorld.afterUpdate 0 startedTaker 9 0
      (.ok (-1) (resultState ((update inProcessAnswers 9 0).run ⟨startedTaker, []⟩)))) _ :=
    ((Relation.ReflTransGen.single (.mark 0 _ rfl (by decide))).tail
      (.update 0 _ .async idleAnswers 18 0 _ rfl (by decide) (by decide) (Int.le_refl 0) rfl)).tail
      (.update 0 _ .sync idleAnswers 19 0 _ rfl (by decide) (by decide) (Int.le_refl 0) rfl)
  exact ⟨_, _, _, hstopped, hrun, rfl, rfl, rfl, timeout_holds_back rfl .sync
    inProcessAnswers 9 0 hstopped (fun h => Bool.noConfusion (Option.some.inj h.1)) hrun⟩

/-- An attempt went idle and timed out at block 9; the next one is recorded at block 9. -/
theorem attempt_right_after_timeout :
    ∃ w client s w', takerSystem.Reachable w ∧ w.engine.clients[0]? = some client ∧
      client.timeBetweenRounds = 10 ∧
      (runUpdate .sync idleAnswers 9 0).run ⟨client, []⟩ = .ok (-1) s ∧
      takerSystem.Run (w.afterUpdate 0 client 9 0 (.ok (-1) s)) w' ∧
      ¬HeldBack 0 client.roundEvents.length (9 + client.timeBetweenRounds) w' := by
  refine ⟨startedWorld, startedTaker, _, _, startedWorld_reachable, rfl, rfl, rfl,
    (Relation.ReflTransGen.single (.mark 0 _ rfl (by decide))).tail
      (.update 0 _ .sync idleAnswers 9 0 _ rfl (by decide) (Int.le_refl 9) (Int.le_refl 0) rfl), ?_⟩
  intro hheld
  exact absurd (hheld _ rfl 1 (by decide) (by decide)) (by decide)

end CoinjoinEmulator
