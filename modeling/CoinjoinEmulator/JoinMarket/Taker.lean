import CoinjoinEmulator.JoinMarket.Client
import CoinjoinEmulator.RoundEvents.Confirmation

/-! `TakerClient`: one update of a taker, in its synchronous and its asynchronous copy. -/

namespace CoinjoinEmulator

open ProofKit RoundEventRecord

/-- The body of a start request. -/
structure StartCoinjoin where
  mixdepth : Value
  amountSats : Value
  counterparties : Value
  destination : Value
  txfee : Option Value

/-- The requests of an update that change what jmwalletd does. -/
inductive TakerRequest where
  | startCoinjoin (jsonData : StartCoinjoin)
  | stopTaker
  | stopMaker

/-- The body of a session answer: a JSON object with the truth value of its `coinjoin_in_process`,
`null`, or another JSON value. -/
inductive SessionBody where
  | object (coinjoinInProcess : Bool)
  | null
  | other

/-- What jmwalletd answers to the requests of one update, or the exceptions that they raise. -/
structure TakerAnswers where
  utxos : Except PyError (List (Dict Value))
  session : Except PyError SessionBody
  newAddress : Except PyError String
  startCoinjoin : Except PyError Unit
  stop : Except PyError Unit

structure TakerState where
  client : JoinMarketClientServer
  requests : List TakerRequest

abbrev Taker := EStateM PyError TakerState

namespace JoinMarketClientServer

/-- True while an earlier attempt is still waiting for its destination to be mined. -/
def hasUnconfirmedRound (client : JoinMarketClientServer) : Bool :=
  client.roundEvents.any (hasStatus .started)

/-- Whether jmwalletd is idle while an earlier attempt still awaits mining. -/
def hasUnconfirmedFinishedAttempt (client : JoinMarketClientServer) : Bool :=
  client.hasUnconfirmedRound && !client.coinjoinInProcess

/-- Keep waiting for the pending attempt, or report its timeout. -/
def unconfirmedFinishedAttemptResult (client : JoinMarketClientServer) (currentBlock : Int) : Int :=
  if client.coinjoinTimedOut currentBlock then -1 else 0

/-- Attempts whose destination the engine found in a mined block. -/
def confirmedRounds (client : JoinMarketClientServer) : Nat :=
  client.roundEvents.countP (hasStatus .confirmed)

/-- Count towards `max_coinjoins` only the attempts that were actually mined. -/
def refreshCompletedCoinjoins (client : JoinMarketClientServer) : JoinMarketClientServer :=
  if client.completedCoinjoins < client.confirmedRounds then
    { client with completedCoinjoins := client.confirmedRounds }
  else client

/-- `coin_history.setdefault(key, coin)` for a coin with an outpoint. -/
def recordCoin (history coin : Dict Value) : Dict Value :=
  match (coin.get "utxo").bind Value.asStr with
  | some key => if key = "" then history else history.setDefault key (.dict coin)
  | none => history

/-- Poll the current unspent coins; a failed request leaves the history. -/
def updateCoinHistory (utxos : Except PyError (List (Dict Value)))
    (client : JoinMarketClientServer) :
    JoinMarketClientServer :=
  match utxos with
  | .ok coins => { client with coinHistory := coins.foldl recordCoin client.coinHistory }
  | .error _ => client

/-- The position in `offers` of the offer of a round. -/
def getOffer (client : JoinMarketClientServer) (round : Int) : Except PyError Nat :=
  if client.offers.length = 0 then .error (.exception "integer modulo by zero")
  else .ok (round % client.offers.length).toNat

end JoinMarketClientServer

open JoinMarketClientServer

namespace TakerClient

def onClient (f : JoinMarketClientServer → JoinMarketClientServer) : Taker Unit :=
  modify fun s => { s with client := f s.client }

def request (sent : TakerRequest) : Taker Unit :=
  modify fun s => { s with requests := s.requests ++ [sent] }

/-- `session()`: `None` for a request that fails. -/
def session (answers : TakerAnswers) : SessionBody :=
  match answers.session with
  | .ok body => body
  | .error _ => .null

/-- `session_async()`: `{}` for a request that fails or answers `null`. -/
def sessionAsync (answers : TakerAnswers) : SessionBody :=
  match answers.session with
  | .ok .null => .object false
  | .ok body => body
  | .error _ => .object false

/-- Store jmwalletd's process state. -/
def applyCoinjoinProcessStatus (response : SessionBody) : Taker Unit :=
  match response with
  | .object inProcess => onClient fun client => { client with coinjoinInProcess := inProcess }
  | .null => throw (.exception "'NoneType' object has no attribute 'get'")
  | .other => throw (.exception "object has no attribute 'get'")

def updateStatus (answers : TakerAnswers) : Taker Unit := do
  onClient (updateCoinHistory answers.utxos)
  applyCoinjoinProcessStatus (session answers)

def updateStatusAsync (answers : TakerAnswers) : Taker Unit := do
  onClient (updateCoinHistory answers.utxos)
  applyCoinjoinProcessStatus (sessionAsync answers)

/-- Choose an offer and generate its destination, which is stored in the offer. -/
def prepareAttempt (answers : TakerAnswers) (currentRound : Int) : Taker Offer := do
  let ref ← ofExcept ((← get).client.getOffer currentRound)
  let address ← ofExcept answers.newAddress
  let offer := ((← get).client.offers[ref]?.getD []).set "destination" (.str address)
  onClient fun client => { client with offers := client.offers.set ref offer }
  return offer

/-- Record a started attempt; the result refers to its event. -/
def recordAttempt (offer : Offer) (currentBlock : Int) : Taker Nat := do
  let event := (← get).client.roundEvents.length
  onClient fun client => client.recordRoundStart (offer.get "destination")
    (offer.get "amount_sats") (offer.get "counterparties") (offer.get "mixdepth") currentBlock
  onClient fun client => { client with coinjoinStart := currentBlock }
  return event

/-- Report one more running round after its start was acknowledged. -/
def noteAttemptStarted (event : Nat) : Taker Int := do
  onClient fun client => client.recordRoundStartOutcome event true
  onClient fun client => { client with coinjoinInProcess := true }
  return 1

/-- The call `start_coinjoin(**offer)`: its parameters, or a `TypeError`. -/
def startCoinjoinArguments (offer : Offer) : Except PyError StartCoinjoin :=
  let parameters := ["mixdepth", "amount_sats", "counterparties", "destination", "txfee"]
  match offer.find? (fun argument => argument.1 ∉ parameters) with
  | some _ => .error (.typeError "start_coinjoin() got an unexpected keyword argument")
  | none =>
    match offer.lookup "mixdepth", offer.lookup "amount_sats", offer.lookup "counterparties",
      offer.lookup "destination" with
    | some mixdepth, some amountSats, some counterparties, some destination =>
      let txfee := match offer.lookup "txfee" with
        | some .none => none
        | txfee => txfee
      .ok { mixdepth, amountSats, counterparties, destination, txfee }
    | _, _, _, _ => .error (.typeError "start_coinjoin() missing required positional arguments")

/-- Initiate a coinjoin as taker. -/
def startCoinjoin (answers : TakerAnswers) (offer : Offer) : Taker Unit := do
  let jsonData ← ofExcept (startCoinjoinArguments offer)
  request (.startCoinjoin jsonData)
  ofExcept answers.startCoinjoin

def startCoinjoinAsync (answers : TakerAnswers) (offer : Offer) : Taker Unit :=
  startCoinjoin answers offer

/-- Stop a running coinjoin attempt; a failed request is reported by the result. -/
def stopCoinjoin (answers : TakerAnswers) : Taker Bool := do
  let client := (← get).client
  if client.type = .taker ∧ client.coinjoinInProcess then
    request .stopTaker
    return match answers.stop with
      | .ok () => true
      | .error _ => false
  else if client.type = .maker ∧ client.makerRunning then
    request .stopMaker
    return match answers.stop with
      | .ok () => true
      | .error _ => false
  else
    return true

/-- The start branch of an update: an attempt is recorded before its start request. -/
def startAttempt (start : Offer → Taker Unit) (answers : TakerAnswers)
    (currentBlock currentRound : Int) : Taker Int := do
  let offer ← prepareAttempt answers currentRound
  let event ← recordAttempt offer currentBlock
  tryCatch (start offer) fun error => do
    onClient fun client => client.recordRoundStartOutcome event false
    throw error
  noteAttemptStarted event

/-- The timeout branch of an update. -/
def stopTimedOutAttempt (answers : TakerAnswers) (currentBlock : Int) : Taker Int := do
  let _ ← stopCoinjoin answers
  onClient fun client => { client with
    coinjoinInProcess := false
    nextCoinjoinAllowed := currentBlock + client.timeBetweenRounds }
  return -1

/-- Start a coinjoin if none is running and the client is not paused; stop one that timed out. -/
def update (answers : TakerAnswers) (currentBlock currentRound : Int) : Taker Int := do
  updateStatus answers
  onClient refreshCompletedCoinjoins
  let client := (← get).client
  if client.hasUnconfirmedFinishedAttempt then
    return client.unconfirmedFinishedAttemptResult currentBlock
  else if !client.coinjoinInProcess && !client.isPaused currentBlock currentRound
      && !client.hasUnconfirmedRound then
    startAttempt (startCoinjoin answers) answers currentBlock currentRound
  else if client.coinjoinInProcess && client.coinjoinTimedOut currentBlock then
    stopTimedOutAttempt answers currentBlock
  else
    return 0

/-- Asynchronous copy of `update`, which returns early for a paused client. -/
def updateAsync (answers : TakerAnswers) (currentBlock currentRound : Int) : Taker Int := do
  updateStatusAsync answers
  onClient refreshCompletedCoinjoins
  let client := (← get).client
  if client.hasUnconfirmedFinishedAttempt then
    return client.unconfirmedFinishedAttemptResult currentBlock
  else if client.isPaused currentBlock currentRound then
    return 0
  else if !client.coinjoinInProcess && !client.hasUnconfirmedRound then
    startAttempt (startCoinjoinAsync answers) answers currentBlock currentRound
  else if client.coinjoinInProcess && client.coinjoinTimedOut currentBlock then
    stopTimedOutAttempt answers currentBlock
  else
    return 0

/-! ### The branches of an update -/

/-- The client once its coins, its process flag and its completed count are up to date. -/
def refreshed (answers : TakerAnswers) (inProcess : Bool) (client : JoinMarketClientServer) :
    JoinMarketClientServer :=
  refreshCompletedCoinjoins
    { updateCoinHistory answers.utxos client with coinjoinInProcess := inProcess }

/-- An update after a status object: the branch that the refreshed client selects. -/
theorem run_update {answers : TakerAnswers} {inProcess : Bool}
    (hsession : session answers = .object inProcess) (currentBlock currentRound : Int)
    (s : TakerState) :
    (update answers currentBlock currentRound).run s =
      let client := refreshed answers inProcess s.client
      let s' := { s with client := client }
      if client.hasUnconfirmedFinishedAttempt then
        .ok (client.unconfirmedFinishedAttemptResult currentBlock) s'
      else if !client.coinjoinInProcess && !client.isPaused currentBlock currentRound
          && !client.hasUnconfirmedRound then
        (startAttempt (startCoinjoin answers) answers currentBlock currentRound).run s'
      else if client.coinjoinInProcess && client.coinjoinTimedOut currentBlock then
        (stopTimedOutAttempt answers currentBlock).run s'
      else .ok 0 s' := by
  simp only [update, updateStatus, applyCoinjoinProcessStatus, onClient, hsession,
    EStateM.run_bind, EStateM.run_modify, EStateM.run_get, run_ite, EStateM.run_pure]
  rfl

theorem run_updateAsync {answers : TakerAnswers} {inProcess : Bool}
    (hsession : sessionAsync answers = .object inProcess) (currentBlock currentRound : Int)
    (s : TakerState) :
    (updateAsync answers currentBlock currentRound).run s =
      let client := refreshed answers inProcess s.client
      let s' := { s with client := client }
      if client.hasUnconfirmedFinishedAttempt then
        .ok (client.unconfirmedFinishedAttemptResult currentBlock) s'
      else if client.isPaused currentBlock currentRound then .ok 0 s'
      else if !client.coinjoinInProcess && !client.hasUnconfirmedRound then
        (startAttempt (startCoinjoinAsync answers) answers currentBlock currentRound).run s'
      else if client.coinjoinInProcess && client.coinjoinTimedOut currentBlock then
        (stopTimedOutAttempt answers currentBlock).run s'
      else .ok 0 s' := by
  simp only [updateAsync, updateStatusAsync, applyCoinjoinProcessStatus, onClient, hsession,
    EStateM.run_bind, EStateM.run_modify, EStateM.run_get, run_ite, EStateM.run_pure]
  rfl

/-- An update raises after the coin history unless the session answer is an object. -/
theorem update_cases (answers : TakerAnswers) (currentBlock currentRound : Int) (s : TakerState) :
    (∃ inProcess, session answers = .object inProcess) ∨
      ∃ error, (update answers currentBlock currentRound).run s =
        .error error { s with client := updateCoinHistory answers.utxos s.client } := by
  cases hsession : session answers with
  | object inProcess => exact .inl ⟨inProcess, rfl⟩
  | null | other =>
    right
    simp only [update, updateStatus, applyCoinjoinProcessStatus, onClient, hsession,
      EStateM.run_bind, EStateM.run_modify]
    exact ⟨_, rfl⟩

theorem updateAsync_cases (answers : TakerAnswers) (currentBlock currentRound : Int)
    (s : TakerState) :
    (∃ inProcess, sessionAsync answers = .object inProcess) ∨
      ∃ error, (updateAsync answers currentBlock currentRound).run s =
        .error error { s with client := updateCoinHistory answers.utxos s.client } := by
  cases hsession : sessionAsync answers with
  | object inProcess => exact .inl ⟨inProcess, rfl⟩
  | null | other =>
    right
    simp only [updateAsync, updateStatusAsync, applyCoinjoinProcessStatus, onClient, hsession,
      EStateM.run_bind, EStateM.run_modify]
    exact ⟨_, rfl⟩

/-- The requests that stopping sends. -/
def stopRequests (client : JoinMarketClientServer) : List TakerRequest :=
  if client.type = .taker ∧ client.coinjoinInProcess then [.stopTaker]
  else if client.type = .maker ∧ client.makerRunning then [.stopMaker]
  else []

/-- The timeout branch never raises. -/
theorem run_stopTimedOutAttempt (answers : TakerAnswers) (currentBlock : Int) (s : TakerState) :
    (stopTimedOutAttempt answers currentBlock).run s = .ok (-1) {
      client := { s.client with
        coinjoinInProcess := false
        nextCoinjoinAllowed := currentBlock + s.client.timeBetweenRounds }
      requests := s.requests ++ stopRequests s.client } := by
  simp only [stopTimedOutAttempt, stopCoinjoin, onClient, request, stopRequests,
    EStateM.run_bind, EStateM.run_modify, EStateM.run_get, run_ite, EStateM.run_pure]
  by_cases htaker : s.client.type = .taker ∧ s.client.coinjoinInProcess
  · simp only [htaker, and_self, if_true]
  · by_cases hmaker : s.client.type = .maker ∧ s.client.makerRunning
    · rw [if_neg htaker, if_pos hmaker, if_neg htaker, if_pos hmaker]
    · rw [if_neg htaker, if_neg hmaker, if_neg htaker, if_neg hmaker, List.append_nil]

theorem run_recordAttempt (offer : Offer) (currentBlock : Int) (s : TakerState) :
    (recordAttempt offer currentBlock).run s = .ok s.client.roundEvents.length { s with
      client := { s.client.recordRoundStart (offer.get "destination") (offer.get "amount_sats")
          (offer.get "counterparties") (offer.get "mixdepth") currentBlock with
        coinjoinStart := currentBlock } } := rfl

theorem run_noteAttemptStarted (event : Nat) (s : TakerState) :
    (noteAttemptStarted event).run s = .ok 1 { s with
      client := { s.client.recordRoundStartOutcome event true with coinjoinInProcess := true } } :=
  rfl

/-- Starting sends at most one request and leaves the client. -/
theorem run_startCoinjoin (answers : TakerAnswers) (offer : Offer) (s : TakerState) :
    ∃ requests, (startCoinjoin answers offer).run s = .ok () { s with requests := requests } ∨
      ∃ error, (startCoinjoin answers offer).run s = .error error { s with requests := requests } := by
  simp only [startCoinjoin, EStateM.run_bind, run_ofExcept, request, EStateM.run_modify]
  cases startCoinjoinArguments offer with
  | error error => exact ⟨s.requests, .inr ⟨error, rfl⟩⟩
  | ok jsonData =>
    cases answers.startCoinjoin with
    | error error => exact ⟨s.requests ++ [.startCoinjoin jsonData], .inr ⟨error, rfl⟩⟩
    | ok _ => exact ⟨s.requests ++ [.startCoinjoin jsonData], .inl rfl⟩

/-- Preparing an attempt raises, or changes the offers only. -/
theorem run_prepareAttempt (answers : TakerAnswers) (currentRound : Int) (s : TakerState) :
    (∃ error, (prepareAttempt answers currentRound).run s = .error error s) ∨
    ∃ offer offers, (prepareAttempt answers currentRound).run s =
      .ok offer { s with client := { s.client with offers := offers } } := by
  simp only [prepareAttempt, EStateM.run_bind, EStateM.run_get, run_ofExcept, onClient,
    EStateM.run_modify, EStateM.run_pure]
  cases s.client.getOffer currentRound with
  | error error => exact .inl ⟨error, rfl⟩
  | ok ref =>
    cases answers.newAddress with
    | error error => exact .inl ⟨error, rfl⟩
    | ok address => exact .inr ⟨_, _, rfl⟩

/-- Refreshing changes the coins, the process flag and the completed count, and nothing else. -/
theorem refreshed_eq (answers : TakerAnswers) (inProcess : Bool) (client : JoinMarketClientServer) :
    ∃ history, refreshed answers inProcess client = { client with
      coinHistory := history
      coinjoinInProcess := inProcess
      completedCoinjoins := max client.completedCoinjoins client.confirmedRounds } := by
  refine ⟨(updateCoinHistory answers.utxos client).coinHistory, ?_⟩
  unfold refreshed refreshCompletedCoinjoins
  have hcompleted : (updateCoinHistory answers.utxos client).completedCoinjoins =
      client.completedCoinjoins := by cases h : answers.utxos <;> rfl
  have hevents : (updateCoinHistory answers.utxos client).roundEvents = client.roundEvents := by
    cases h : answers.utxos <;> rfl
  simp only [confirmedRounds, hcompleted, hevents]
  split
  · rename_i hlt
    rw [max_eq_right hlt.le]
    cases h : answers.utxos <;> rfl
  · rename_i hge
    rw [max_eq_left (not_lt.mp hge)]
    cases h : answers.utxos <;> rfl

/-- Whether a refreshed client is paused, from the client before the update. -/
def isPausedAfterRefresh (client : JoinMarketClientServer) (currentBlock currentRound : Int) :
    Bool :=
  client.outsideSchedule currentBlock currentRound
    || decide (currentBlock < client.nextCoinjoinAllowed)
    || decide (0 < client.maxCoinjoins ∧
      client.maxCoinjoins ≤ max client.completedCoinjoins client.confirmedRounds)

/-! ### Agreement of the two copies -/

/-- With an answered session the two copies send the same requests, leave the same client and return
or raise the same, unless the client is paused while jmwalletd still runs an attempt that timed out:
there only the synchronous copy stops it. -/
theorem updateAsync_eq_update_iff {answers : TakerAnswers} {inProcess : Bool}
    (hsession : answers.session = .ok (.object inProcess)) (currentBlock currentRound : Int)
    (s : TakerState) :
    (updateAsync answers currentBlock currentRound).run s =
        (update answers currentBlock currentRound).run s ↔
      ¬(inProcess = true ∧ s.client.coinjoinTimedOut currentBlock = true ∧
        isPausedAfterRefresh s.client currentBlock currentRound = true) := by
  have hsync : session answers = .object inProcess := by rw [session, hsession]
  have hasync : sessionAsync answers = .object inProcess := by rw [sessionAsync, hsession]
  rw [run_update hsync, run_updateAsync hasync]
  obtain ⟨history, hrefreshed⟩ := refreshed_eq answers inProcess s.client
  have hinProcess : (refreshed answers inProcess s.client).coinjoinInProcess = inProcess := by
    rw [hrefreshed]
  have htimedOut : (refreshed answers inProcess s.client).coinjoinTimedOut currentBlock =
      s.client.coinjoinTimedOut currentBlock := by
    rw [hrefreshed]
    rfl
  have hpaused : (refreshed answers inProcess s.client).isPaused currentBlock currentRound =
      isPausedAfterRefresh s.client currentBlock currentRound := by
    rw [hrefreshed]
    rfl
  have hstart : startCoinjoinAsync answers = startCoinjoin answers := rfl
  simp only [hasUnconfirmedFinishedAttempt, hinProcess, htimedOut, hpaused, hstart,
    run_stopTimedOutAttempt]
  cases isPausedAfterRefresh s.client currentBlock currentRound with
  | false => simp
  | true =>
    -- a paused client reaches the timeout check only in the order of the synchronous branches
    cases inProcess with
    | false => simp
    | true => cases s.client.coinjoinTimedOut currentBlock <;> simp

/-- A taker whose schedule closed at block 10 while jmwalletd runs the attempt that it started at
block 0. -/
def closedTaker : JoinMarketClientServer :=
  let client : JoinMarketClientServer := {
    name := "jcs-000"
    type := .taker
    delay := (0, 0)
    stop := (10, 0)
    offers := []
    timeBetweenRounds := 0
    coinjoinTimeoutBlocks := defaultCoinjoinTimeoutBlocks
    coinjoinTimeoutBlocks_pos := defaultCoinjoinTimeoutBlocks_pos
    maxCoinjoins := 0
    coinjoinInProcess := true }
  client.recordRoundStart (.str "destination") .none .none .none 0

/-- jmwalletd answers that a coinjoin is in process. -/
def inProcessAnswers : TakerAnswers where
  utxos := .ok []
  session := .ok (.object true)
  newAddress := .ok "destination"
  startCoinjoin := .ok ()
  stop := .ok ()

theorem updateAsync_eq_update_iff_closedTaker :
    (updateAsync inProcessAnswers 8 0).run ⟨closedTaker, []⟩ =
        (update inProcessAnswers 8 0).run ⟨closedTaker, []⟩ ↔
      ¬(true = true ∧ closedTaker.coinjoinTimedOut 8 = true ∧
        isPausedAfterRefresh closedTaker 8 0 = true) :=
  updateAsync_eq_update_iff rfl 8 0 ⟨closedTaker, []⟩

/-- The synchronous copy stops the attempt and reports its timeout; the asynchronous one does
neither. -/
theorem updateAsync_leaves_timed_out_attempt :
    (∃ client, (update inProcessAnswers 10 0).run ⟨closedTaker, []⟩ =
      .ok (-1) ⟨client, [.stopTaker]⟩ ∧ client.coinjoinInProcess = false) ∧
    ∃ client, (updateAsync inProcessAnswers 10 0).run ⟨closedTaker, []⟩ = .ok 0 ⟨client, []⟩ ∧
      client.coinjoinInProcess = true :=
  ⟨⟨_, rfl, rfl⟩, ⟨_, rfl, rfl⟩⟩

end TakerClient

end CoinjoinEmulator
