import CoinjoinEmulator.JoinMarket.TakerRun

/-! The clients of a JoinMarket run: makers and tumblers beside the takers, and the update of a
client of any class, in its synchronous and its asynchronous copy. -/

namespace CoinjoinEmulator

open ProofKit JoinMarketClientServer

/-- The session object of jmwalletd.  `K` are the schedules of a tumbler. -/
structure ServiceStatus (K : Type) where
  coinjoinInProcess : Bool := false
  makerRunning : Bool := false
  schedule : Option K := none

/-- The body of a session answer: a JSON object, `null`, or another JSON value. -/
inductive StatusBody (K : Type) where
  | object (status : ServiceStatus K)
  | null
  | other

/-- The body of a maker's start request, before its numbers are written as texts. -/
structure StartMaker where
  txfee : Value
  cjfeeA : Value
  cjfeeR : Value
  ordertype : Value
  minsize : Value
  maxsize : Value

/-- The requests of an update that change what jmwalletd does, and the one for a schedule. -/
inductive FleetRequest where
  | taker (sent : TakerRequest)
  | startMaker (jsonData : StartMaker)
  | stopMaker
  | runSchedule (destinationAddresses : List String)
  | getSchedule

/-- The request starts to mix. -/
def FleetRequest.starts : FleetRequest → Bool
  | .taker (.startCoinjoin _) | .startMaker _ | .runSchedule _ => true
  | .taker .stopTaker | .taker .stopMaker | .stopMaker | .getSchedule => false

/-- What jmwalletd answers to the requests of one update, or the exceptions that they raise.
`startMaker` is answered also when it conflicts with the balance of the wallet, and `runSchedule`
stands for all its tries. -/
structure ClientAnswers (K : Type) where
  utxos : Except PyError (List (Dict Value))
  session : Except PyError (StatusBody K)
  newAddress : Except PyError String
  startCoinjoin : Except PyError Unit
  stop : Except PyError Unit
  startMaker : Except PyError Unit
  stopMaker : Except PyError Unit
  destinationAddresses : Except PyError (List String)
  runSchedule : Except PyError (Option K)
  getSchedule : Except PyError Unit

section Answers

variable {K : Type}

/-- What a taker reads of a session answer. -/
def StatusBody.process : StatusBody K → SessionBody
  | .object status => .object status.coinjoinInProcess
  | .null => .null
  | .other => .other

/-- The answers as a plain taker reads them. -/
def ClientAnswers.taker (answers : ClientAnswers K) : TakerAnswers where
  utxos := answers.utxos
  session := answers.session.map StatusBody.process
  newAddress := answers.newAddress
  startCoinjoin := answers.startCoinjoin
  stop := answers.stop

/-- The answer of `session()` or `session_async()`: `None` and `{}` for a request that fails. -/
def ClientAnswers.status (answers : ClientAnswers K) : UpdatePath → StatusBody K
  | .sync =>
    match answers.session with
    | .ok body => body
    | .error _ => .null
  | .async =>
    match answers.session with
    | .ok .null | .error _ => .object {}
    | .ok body => body

end Answers

/-- What a `TumblerTakerClient` adds to a client. -/
structure Tumbler (K : Type) where
  lastSchedule : Option K := none
  coinjoinCompleted : Bool := true

/-- A client with what it sent. -/
structure FleetState (K : Type) where
  client : JoinMarketClientServer
  tumbler : Tumbler K
  requests : List FleetRequest

abbrev Fleet (K : Type) := EStateM PyError (FleetState K)

namespace Fleet

variable {K : Type}

def onClient (f : JoinMarketClientServer → JoinMarketClientServer) : Fleet K Unit :=
  modify fun s => { s with client := f s.client }

def onTumbler (f : Tumbler K → Tumbler K) : Fleet K Unit :=
  modify fun s => { s with tumbler := f s.tumbler }

def request (sent : FleetRequest) : Fleet K Unit :=
  modify fun s => { s with requests := s.requests ++ [sent] }

/-- `update_status` and `update_status_async`, with the object that the callers need. -/
def updateStatus (path : UpdatePath) (answers : ClientAnswers K) : Fleet K (ServiceStatus K) := do
  onClient (updateCoinHistory answers.utxos)
  match answers.status path with
  | .object status => return status
  | .null => throw (.exception "'NoneType' object has no attribute 'get'")
  | .other => throw (.exception "object has no attribute 'get'")

/-- The update of a plain taker. -/
def ofTaker {α : Type} (program : Taker α) : Fleet K α :=
  zoom (fun s => ⟨s.client, []⟩)
    (fun s t => { s with client := t.client, requests := s.requests ++ t.requests.map .taker })
    program

end Fleet

open Fleet

namespace MakerClient

variable {K : Type}

/-- The call `start_maker(**offer)`: its parameters, or a `TypeError`. -/
def startMakerArguments (offer : Offer) : Except PyError StartMaker :=
  let parameters := ["txfee", "cjfee_a", "cjfee_r", "ordertype", "minsize", "maxsize"]
  match offer.find? (fun argument => argument.1 ∉ parameters) with
  | some _ => .error (.typeError "start_maker() got an unexpected keyword argument")
  | none =>
    match offer.lookup "txfee", offer.lookup "cjfee_a", offer.lookup "cjfee_r",
      offer.lookup "ordertype", offer.lookup "minsize", offer.lookup "maxsize" with
    | some txfee, some cjfeeA, some cjfeeR, some ordertype, some minsize, some maxsize =>
      .ok { txfee, cjfeeA, cjfeeR, ordertype, minsize, maxsize }
    | _, _, _, _, _, _ => .error (.typeError "start_maker() missing required positional arguments")

/-- Start the yield generator with an offer. -/
def startMaker (answers : ClientAnswers K) (offer : Offer) : Fleet K Unit := do
  let jsonData ← ofExcept (startMakerArguments offer)
  request (.startMaker jsonData)
  ofExcept answers.startMaker

/-- Stop the yield generator; a service that is not started counts as stopped. -/
def stopMaker (answers : ClientAnswers K) : Fleet K Unit := do
  request .stopMaker
  match answers.stopMaker with
  | .ok () | .error (.serviceStateError _) => pure ()
  | .error error => throw error

/-- Start the maker if it is not running; stop it once its schedule closes. -/
def updateOn (path : UpdatePath) (answers : ClientAnswers K) (currentBlock currentRound : Int) :
    Fleet K Int := do
  let status ← updateStatus path answers
  onClient fun client => { client with makerRunning := status.makerRunning }
  let client := (← get).client
  if client.isPaused currentBlock currentRound then
    if client.makerRunning && client.outsideSchedule currentBlock currentRound then
      stopMaker answers
      onClient fun client => { client with makerRunning := false }
      return 0
    else
      return 0
  else if client.makerRunning then
    return 0
  else
    let ref ← ofExcept (client.getOffer currentRound)
    startMaker answers (client.offers[ref]?.getD [])
    onClient fun client => { client with makerRunning := true }
    return 0

def update (answers : ClientAnswers K) (currentBlock currentRound : Int) : Fleet K Int :=
  updateOn .sync answers currentBlock currentRound

def updateAsync (answers : ClientAnswers K) (currentBlock currentRound : Int) : Fleet K Int :=
  updateOn .async answers currentBlock currentRound

end MakerClient

namespace TumblerTakerClient

variable {K : Type} [DecidableEq K]

/-- A changed schedule tells that a coinjoin has completed. -/
def noteSchedule (schedule : Option K) (tumbler : Tumbler K) : Tumbler K :=
  if schedule = tumbler.lastSchedule then tumbler
  else { lastSchedule := schedule, coinjoinCompleted := true }

/-- Start the schedule if none is running and the client is not paused; report a completed
coinjoin. -/
def updateOn (path : UpdatePath) (answers : ClientAnswers K) (currentBlock currentRound : Int) :
    Fleet K Int := do
  let status ← updateStatus path answers
  onClient fun client => { client with coinjoinInProcess := status.coinjoinInProcess }
  onTumbler (noteSchedule status.schedule)
  let s ← get
  if !s.client.coinjoinInProcess && !s.client.isPaused currentBlock currentRound then
    let addresses ← ofExcept answers.destinationAddresses
    request (.runSchedule addresses)
    let schedule ← ofExcept answers.runSchedule
    onTumbler fun tumbler => { tumbler with lastSchedule := schedule }
    onClient fun client =>
      { client with coinjoinInProcess := true, coinjoinStart := currentBlock }
    return 0
  else if s.tumbler.coinjoinCompleted then
    onTumbler fun tumbler => { tumbler with coinjoinCompleted := false }
    request .getSchedule
    ofExcept answers.getSchedule
    return 1
  else
    return 0

def update (answers : ClientAnswers K) (currentBlock currentRound : Int) : Fleet K Int :=
  updateOn .sync answers currentBlock currentRound

def updateAsync (answers : ClientAnswers K) (currentBlock currentRound : Int) : Fleet K Int :=
  updateOn .async answers currentBlock currentRound

end TumblerTakerClient

/-- The class that `from_wallet` selects for a wallet. -/
inductive ClientClass where
  | maker
  | taker
  | tumbler
deriving DecidableEq

/-- `client.update` and `client.update_async`. -/
def updateClient {K : Type} [DecidableEq K] (path : UpdatePath) (clientClass : ClientClass)
    (answers : ClientAnswers K) (currentBlock currentRound : Int) : Fleet K Int :=
  match clientClass, path with
  | .maker, .sync => MakerClient.update answers currentBlock currentRound
  | .maker, .async => MakerClient.updateAsync answers currentBlock currentRound
  | .taker, .sync => ofTaker (TakerClient.update answers.taker currentBlock currentRound)
  | .taker, .async => ofTaker (TakerClient.updateAsync answers.taker currentBlock currentRound)
  | .tumbler, .sync => TumblerTakerClient.update answers currentBlock currentRound
  | .tumbler, .async => TumblerTakerClient.updateAsync answers currentBlock currentRound

/-! ### What an update leaves and sends -/

theorem not_outsideSchedule {client : JoinMarketClientServer} {block round : Int}
    (h : client.isPaused block round = false) : client.outsideSchedule block round = false := by
  simp only [isPaused, Bool.or_eq_false_iff] at h
  exact h.1.1

/-- The settings and the recorded attempts stay. -/
structure SameRecord (client client' : JoinMarketClientServer) : Prop where
  settings : SameSettings client client'
  roundEvents_eq : client'.roundEvents = client.roundEvents

section Sends

variable {σ : Type} (client : σ → JoinMarketClientServer) (sent : σ → List FleetRequest)
  (kept : JoinMarketClientServer → JoinMarketClientServer → Prop)

/-- The client is kept, and a request that starts to mix is sent only if that is allowed. -/
structure Sends (allowed : Prop) (s s' : σ) : Prop where
  client : kept (client s) (client s')
  requests : ∃ added, sent s' = sent s ++ added ∧
    ∀ request ∈ added, request.starts = true → allowed

/-- A request that starts to mix is sent only inside the schedule of the client. -/
def OnTime (block round : Int) (s s' : σ) : Prop :=
  Sends client sent kept ((client s).outsideSchedule block round = false) s s'

variable {client sent kept} {allowed : Prop} {s s' s'' : σ} {block round : Int}

theorem Sends.nothing (hclient : kept (client s) (client s')) (hsent : sent s' = sent s) :
    Sends client sent kept allowed s s' :=
  ⟨hclient, [], by rw [hsent, List.append_nil], by simp⟩

theorem Sends.one {request : FleetRequest} (hclient : kept (client s) (client s'))
    (hsent : sent s' = sent s ++ [request]) (h : request.starts = true → allowed) :
    Sends client sent kept allowed s s' :=
  ⟨hclient, [request], hsent, by simpa using h⟩

theorem OnTime.of_open (hopen : (client s).outsideSchedule block round = false)
    (h : Sends client sent kept True s s') : OnTime client sent kept block round s s' := by
  obtain ⟨added, hadded, -⟩ := h.requests
  exact ⟨h.client, added, hadded, fun _ _ _ => hopen⟩

instance [Std.Refl kept] : Std.Refl (Sends client sent kept allowed) :=
  ⟨fun s => .nothing (refl_of kept (client s)) rfl⟩

instance [Std.Refl kept] : Std.Refl (OnTime client sent kept block round) :=
  ⟨fun s => refl_of (Sends client sent kept _) s⟩

variable [IsTrans JoinMarketClientServer kept]

theorem Sends.trans (h : Sends client sent kept allowed s s')
    (h' : Sends client sent kept allowed s' s'') : Sends client sent kept allowed s s'' := by
  obtain ⟨added, hadded, hfirst⟩ := h.requests
  obtain ⟨added', hadded', hsecond⟩ := h'.requests
  refine ⟨trans_of kept h.client h'.client, added ++ added', ?_, ?_⟩
  · rw [hadded', hadded, List.append_assoc]
  · intro request hrequest
    obtain hrequest | hrequest := List.mem_append.mp hrequest
    · exact hfirst request hrequest
    · exact hsecond request hrequest

instance : IsTrans σ (Sends client sent kept allowed) := ⟨fun _ _ _ => .trans⟩

end Sends

instance : Std.Refl SameSettings := ⟨SameSettings.refl⟩

instance : IsTrans JoinMarketClientServer SameSettings := ⟨fun _ _ _ => .trans⟩

instance : Std.Refl SameRecord := ⟨fun client => ⟨.refl client, rfl⟩⟩

instance : IsTrans JoinMarketClientServer SameRecord :=
  ⟨fun _ _ _ h h' => ⟨h.settings.trans h'.settings, h'.roundEvents_eq.trans h.roundEvents_eq⟩⟩

/-- The requests of a taker among those of the fleet. -/
def TakerState.sent (s : TakerState) : List FleetRequest := s.requests.map .taker

abbrev TakerSends := Sends TakerState.client TakerState.sent SameSettings

abbrev TakerOnTime := OnTime TakerState.client TakerState.sent SameSettings

abbrev FleetSends (K : Type) :=
  Sends (FleetState.client (K := K)) FleetState.requests SameRecord

abbrev FleetOnTime (K : Type) :=
  OnTime (FleetState.client (K := K)) FleetState.requests SameRecord

section OnTime

variable {σ : Type} {client : σ → JoinMarketClientServer} {sent : σ → List FleetRequest}
  {kept : JoinMarketClientServer → JoinMarketClientServer → Prop}
  [IsTrans JoinMarketClientServer kept]

theorem OnTime.trans (hkept : ∀ {c c'}, kept c c' → SameSettings c c') {block round : Int}
    {s s' s'' : σ} (h : OnTime client sent kept block round s s')
    (h' : OnTime client sent kept block round s' s'') :
    OnTime client sent kept block round s s'' := by
  refine Sends.trans h ?_
  rw [← outsideSchedule_congr (hkept h.client) block round]
  exact h'

end OnTime

instance (block round : Int) : IsTrans TakerState (TakerOnTime block round) :=
  ⟨fun _ _ _ => OnTime.trans fun h => h⟩

instance (K : Type) (block round : Int) : IsTrans (FleetState K) (FleetOnTime K block round) :=
  ⟨fun _ _ _ => OnTime.trans SameRecord.settings⟩

section Taker

variable {allowed : Prop} {answers : TakerAnswers} {block round : Int}

theorem takerSends_onClient {f : JoinMarketClientServer → JoinMarketClientServer}
    (h : ∀ client, SameSettings client (f client)) :
    Keeps (TakerSends allowed) (TakerClient.onClient f) := fun s => .nothing (h s.client) rfl

theorem takerSends_updateStatus (response : SessionBody) :
    Keeps (TakerSends allowed) (do
      TakerClient.onClient (updateCoinHistory answers.utxos)
      TakerClient.applyCoinjoinProcessStatus response) := by
  refine .bind (takerSends_onClient fun client =>
    (keptAttempts_updateCoinHistory answers.utxos client).settings) fun _ => ?_
  cases response with
  | object inProcess =>
    exact takerSends_onClient (f := fun client => { client with coinjoinInProcess := inProcess })
      fun _ => ⟨rfl, rfl, rfl, rfl, rfl⟩
  | null => exact .throw _
  | other => exact .throw _

theorem takerSends_refresh :
    Keeps (TakerSends allowed) (TakerClient.onClient refreshCompletedCoinjoins) := by
  apply takerSends_onClient
  intro client
  unfold refreshCompletedCoinjoins
  split <;> exact ⟨rfl, rfl, rfl, rfl, rfl⟩

theorem takerSends_startAttempt :
    Keeps (TakerSends True)
      (TakerClient.startAttempt (TakerClient.startCoinjoin answers) answers block round) := by
  have hclient : ∀ f, (∀ client, SameSettings client (f client)) →
      Keeps (TakerSends True) (TakerClient.onClient f) := fun _ => takerSends_onClient
  have hrequest : ∀ sent, Keeps (TakerSends True) (TakerClient.request sent) := fun sent s =>
    ⟨.refl _, [.taker sent], List.map_append, fun _ _ _ => trivial⟩
  unfold TakerClient.startAttempt
  -- The settings stay while the offer and the attempt are recorded, whatever is sent.
  refine .bind (.bind .get fun s => .bind (.ofExcept _) fun ref => .bind (.ofExcept _)
    fun address => .bind .get fun s' => .bind (hclient _ fun _ => ⟨rfl, rfl, rfl, rfl, rfl⟩)
    fun _ => .pure _) fun offer => ?_
  refine .bind (.bind .get fun s => .bind (hclient _ fun _ => ⟨rfl, rfl, rfl, rfl, rfl⟩) fun _ =>
    .bind (hclient _ fun _ => ⟨rfl, rfl, rfl, rfl, rfl⟩) fun _ => .pure _) fun event => ?_
  refine .bind (.tryCatch ?_ fun error => ?_) fun _ => ?_
  · exact .bind (.ofExcept _) fun jsonData => .bind (hrequest _) fun _ => .ofExcept _
  · exact .bind (hclient _ fun _ => ⟨rfl, rfl, rfl, rfl, rfl⟩) fun _ => .throw _
  · exact .bind (hclient _ fun _ => ⟨rfl, rfl, rfl, rfl, rfl⟩) fun _ =>
      .bind (hclient _ fun _ => ⟨rfl, rfl, rfl, rfl, rfl⟩) fun _ => .pure _

theorem takerSends_stopTimedOutAttempt (s : TakerState) :
    TakerSends allowed s (stateAfter (TakerClient.stopTimedOutAttempt answers block) s) := by
  rw [stateAfter, TakerClient.run_stopTimedOutAttempt]
  refine ⟨⟨rfl, rfl, rfl, rfl, rfl⟩, _, List.map_append, fun request hrequest hstarts => ?_⟩
  obtain ⟨sent, hsent, rfl⟩ := List.mem_map.mp hrequest
  unfold TakerClient.stopRequests at hsent
  split at hsent
  · rw [List.mem_singleton.mp hsent] at hstarts
    cases hstarts
  · split at hsent
    · rw [List.mem_singleton.mp hsent] at hstarts
      cases hstarts
    · cases hsent

theorem takerOnTime_update :
    Keeps (TakerOnTime block round) (TakerClient.update answers block round) := by
  unfold TakerClient.update
  refine .bind (fun s => takerSends_updateStatus _ s) fun _ =>
    .bind (fun s => takerSends_refresh s) fun _ => .get_bind fun s => ?_
  dsimp only
  split
  · exact refl_of (TakerOnTime block round) s
  · split
    · rename_i hstart
      simp only [Bool.and_eq_true, Bool.not_eq_true'] at hstart
      exact .of_open (not_outsideSchedule hstart.1.2) (takerSends_startAttempt s)
    · split
      · exact takerSends_stopTimedOutAttempt s
      · exact refl_of (TakerOnTime block round) s

theorem takerOnTime_updateAsync :
    Keeps (TakerOnTime block round) (TakerClient.updateAsync answers block round) := by
  unfold TakerClient.updateAsync
  refine .bind (fun s => takerSends_updateStatus _ s) fun _ =>
    .bind (fun s => takerSends_refresh s) fun _ => .get_bind fun s => ?_
  dsimp only
  split
  · exact refl_of (TakerOnTime block round) s
  · split
    · exact refl_of (TakerOnTime block round) s
    · rename_i hpaused
      split
      · exact .of_open (not_outsideSchedule (Bool.eq_false_iff.mpr hpaused))
          (takerSends_startAttempt s)
      · split
        · exact takerSends_stopTimedOutAttempt s
        · exact refl_of (TakerOnTime block round) s

end Taker

section Fleet

variable {K : Type} {allowed : Prop} {answers : ClientAnswers K} {block round : Int}

theorem fleetSends_onClient {f : JoinMarketClientServer → JoinMarketClientServer}
    (h : ∀ client, SameRecord client (f client)) :
    Keeps (FleetSends K allowed) (onClient f) := fun s => .nothing (h s.client) rfl

theorem fleetSends_onTumbler (f : Tumbler K → Tumbler K) :
    Keeps (FleetSends K allowed) (onTumbler f) := fun s =>
  .nothing (refl_of SameRecord s.client) rfl

theorem fleetSends_request {sent : FleetRequest} (h : sent.starts = true → allowed) :
    Keeps (FleetSends K allowed) (request sent) := fun s => .one (refl_of SameRecord s.client) rfl h

theorem fleetSends_updateStatus (path : UpdatePath) :
    Keeps (FleetSends K allowed) (updateStatus path answers) := by
  refine .bind (fleetSends_onClient fun client => ?_) fun _ => ?_
  · have hkept := keptAttempts_updateCoinHistory answers.utxos client
    exact ⟨hkept.settings, hkept.roundEvents_eq⟩
  · cases answers.status path with
    | object status => exact .pure status
    | null => exact .throw _
    | other => exact .throw _

theorem fleetSends_startMaker (offer : Offer) :
    Keeps (FleetSends K True) (MakerClient.startMaker answers offer) :=
  .bind (.ofExcept _) fun _ => .bind (fleetSends_request fun _ => trivial) fun _ => .ofExcept _

theorem fleetSends_stopMaker : Keeps (FleetSends K allowed) (MakerClient.stopMaker answers) := by
  refine .bind (fleetSends_request fun h => by cases h) fun _ => ?_
  split
  · exact .pure ()
  · exact .pure ()
  · exact .throw _

theorem fleetOnTime_maker (path : UpdatePath) :
    Keeps (FleetOnTime K block round) (MakerClient.updateOn path answers block round) := by
  refine .bind (fun s => fleetSends_updateStatus path s) fun status => ?_
  refine .bind (fun s => fleetSends_onClient (f := fun client =>
    { client with makerRunning := status.makerRunning })
    (fun _ => ⟨⟨rfl, rfl, rfl, rfl, rfl⟩, rfl⟩) s) fun _ => .get_bind fun s => ?_
  have hrunning : ∀ (allowed : Prop) running, Keeps (FleetSends K allowed)
      (onClient fun client => { client with makerRunning := running }) := fun _ _ =>
    fleetSends_onClient fun _ => ⟨⟨rfl, rfl, rfl, rfl, rfl⟩, rfl⟩
  dsimp only
  split
  · split
    · exact Keeps.bind fleetSends_stopMaker (fun _ => .bind (hrunning _ _) fun _ => .pure _) s
    · exact refl_of (FleetOnTime K block round) s
  · rename_i hpaused
    split
    · exact refl_of (FleetOnTime K block round) s
    · refine .of_open (not_outsideSchedule (Bool.eq_false_iff.mpr hpaused)) ?_
      exact Keeps.bind (.ofExcept _) (fun ref => .bind (fleetSends_startMaker _) fun _ =>
        .bind (hrunning _ _) fun _ => .pure _) s

theorem fleetOnTime_tumbler [DecidableEq K] (path : UpdatePath) :
    Keeps (FleetOnTime K block round) (TumblerTakerClient.updateOn path answers block round) := by
  have hclient : ∀ allowed f, (∀ client, SameRecord client (f client)) →
      Keeps (FleetSends K allowed) (onClient f) := fun _ _ => fleetSends_onClient
  refine .bind (fun s => fleetSends_updateStatus path s) fun status => ?_
  refine .bind (fun s => hclient _ (fun client =>
    { client with coinjoinInProcess := status.coinjoinInProcess })
    (fun _ => ⟨⟨rfl, rfl, rfl, rfl, rfl⟩, rfl⟩) s) fun _ => ?_
  refine .bind (fun s => fleetSends_onTumbler _ s) fun _ => .get_bind fun s => ?_
  split
  · rename_i hstart
    simp only [Bool.and_eq_true, Bool.not_eq_true'] at hstart
    refine .of_open (not_outsideSchedule hstart.2) ?_
    refine Keeps.bind (.ofExcept _) (fun addresses => ?_) s
    refine .bind (fleetSends_request fun _ => trivial) fun _ => .bind (.ofExcept _) fun schedule =>
      .bind (fleetSends_onTumbler _) fun _ => .bind (hclient _ (fun client =>
        { client with coinjoinInProcess := true, coinjoinStart := block }) ?_) fun _ => .pure _
    exact fun _ => ⟨⟨rfl, rfl, rfl, rfl, rfl⟩, rfl⟩
  · split
    · exact Keeps.bind (fleetSends_onTumbler _) (fun _ => .bind
        (fleetSends_request fun h => by cases h) fun _ => .bind (.ofExcept _) fun _ => .pure _) s
    · exact refl_of (FleetOnTime K block round) s

end Fleet

/-! ### The update of a client of any class -/

section UpdateClient

variable {K : Type} {answers : ClientAnswers K} {block round : Int}

/-- The attempts of a client stay, or one more is recorded under its name. -/
def Records (client client' : JoinMarketClientServer) : Prop :=
  client'.roundEvents = client.roundEvents ∨
    ∃ event, client'.roundEvents = client.roundEvents ++ [event] ∧
      RoundEventRecord.status event = some EventStatus.started.text ∧
      event.get "taker" = some (.str client.name)

/-- What one update does: it mixes only inside the schedule, and records at most one attempt. -/
structure Updated (block round : Int) (s s' : FleetState K) : Prop where
  onTime : OnTime FleetState.client FleetState.requests SameSettings block round s s'
  records : Records s.client s'.client

theorem Updated.of_record {s s' : FleetState K} (h : FleetOnTime K block round s s') :
    Updated block round s s' :=
  ⟨⟨h.client.settings, h.requests⟩, .inl h.client.roundEvents_eq⟩

theorem records_of_effect {client : JoinMarketClientServer}
    {result : EStateM.Result PyError TakerState Int} (h : UpdateEffect client block round result) :
    Records client (resultState result).client := by
  cases h with
  | kept hkept _ => exact .inl hkept.roundEvents_eq
  | recorded hrecorded _ _ _ =>
    obtain ⟨event, hevents, hstatus, htaker, -⟩ := hrecorded.roundEvents_eq
    exact .inr ⟨event, hevents, hstatus, htaker⟩

theorem updated_taker (path : UpdatePath) :
    Keeps (Updated (K := K) block round) (ofTaker (runUpdate path answers.taker block round)) := by
  have htaker : Keeps (fun s s' => TakerOnTime block round s s' ∧ Records s.client s'.client)
      (runUpdate path answers.taker block round) := by
    intro s
    refine ⟨?_, records_of_effect (runUpdate_effect path answers.taker block round s)⟩
    cases path with
    | sync => exact takerOnTime_update s
    | async => exact takerOnTime_updateAsync s
  refine htaker.zoom_of_keeps fun s t h => ⟨⟨h.1.client, ?_⟩, h.2⟩
  obtain ⟨added, hadded, hallowed⟩ := h.1.requests
  exact ⟨added, congrArg (s.requests ++ ·) hadded, hallowed⟩

theorem updated_updateClient [DecidableEq K] (path : UpdatePath) (clientClass : ClientClass) :
    Keeps (Updated block round) (updateClient path clientClass answers block round) := by
  cases clientClass with
  | maker => cases path <;> exact fun s => .of_record (fleetOnTime_maker _ s)
  | taker =>
    cases path with
    | sync => exact updated_taker .sync
    | async => exact updated_taker .async
  | tumbler => cases path <;> exact fun s => .of_record (fleetOnTime_tumbler _ s)

/-! ### The two copies of an update -/

/-- A paused taker whose running attempt timed out: the synchronous copy stops the attempt, the
asynchronous one leaves it. -/
def PausedInTimeout (status : ServiceStatus K) (client : JoinMarketClientServer)
    (block round : Int) : Prop :=
  TakerClient.isPausedAfterRefresh client block round = true ∧ status.coinjoinInProcess = true ∧
    client.coinjoinTimedOut block = true

instance (status : ServiceStatus K) (client : JoinMarketClientServer) (block round : Int) :
    Decidable (PausedInTimeout status client block round) :=
  inferInstanceAs (Decidable (_ ∧ _ ∧ _))

/-- The session object of an answer that is one. -/
def ClientAnswers.sessionObject (answers : ClientAnswers K) : Option (ServiceStatus K) :=
  match answers.session with
  | .ok (.object status) => some status
  | .ok .null | .ok .other | .error _ => none

theorem ClientAnswers.session_of_mem {answers : ClientAnswers K} {status : ServiceStatus K}
    (h : status ∈ answers.sessionObject) : answers.session = .ok (.object status) := by
  unfold sessionObject at h
  split at h
  · rename_i hsession
    rw [hsession, Option.mem_some.mp h]
  · cases h
  · cases h
  · cases h

theorem run_taker_async {status : ServiceStatus K}
    (hsession : answers.session = .ok (.object status)) {s : TakerState}
    (h : ¬PausedInTimeout status s.client block round) :
    (TakerClient.updateAsync answers.taker block round).run s =
      (TakerClient.update answers.taker block round).run s := by
  have hbody : answers.taker.session = .ok (.object status.coinjoinInProcess) := by
    show answers.session.map StatusBody.process = _
    rw [hsession]
    rfl
  have hsync : TakerClient.session answers.taker = .object status.coinjoinInProcess := by
    rw [TakerClient.session, hbody]
  have hasync : TakerClient.sessionAsync answers.taker = .object status.coinjoinInProcess := by
    rw [TakerClient.sessionAsync, hbody]
  have hwaits : (TakerClient.refreshed answers.taker status.coinjoinInProcess s.client).isPaused
      block round = true → ¬((TakerClient.refreshed answers.taker status.coinjoinInProcess
        s.client).coinjoinInProcess && (TakerClient.refreshed answers.taker
          status.coinjoinInProcess s.client).coinjoinTimedOut block) = true := by
    obtain ⟨history, hrefreshed⟩ :=
      TakerClient.refreshed_eq answers.taker status.coinjoinInProcess s.client
    rw [hrefreshed, Bool.and_eq_true]
    exact fun hpaused hstop => h ⟨hpaused, hstop⟩
  rw [TakerClient.run_update hsync, TakerClient.run_updateAsync hasync]
  generalize TakerClient.refreshed answers.taker status.coinjoinInProcess s.client = client
    at hwaits ⊢
  dsimp only
  split
  · rfl
  · split
    · -- a paused client: the synchronous copy neither starts an attempt nor stops one
      rename_i hpaused
      rw [if_neg (by simp [hpaused]), if_neg (hwaits hpaused)]
    · rename_i hpaused
      rw [Bool.not_eq_true] at hpaused
      simp only [hpaused, Bool.not_false, Bool.and_true]
      rfl

theorem status_async {status : ServiceStatus K} (hsession : answers.session = .ok (.object status))
    (path : UpdatePath) : answers.status path = .object status := by
  cases path <;> simp [ClientAnswers.status, hsession]

/-- With a session object the two copies of an update do the same, but for a paused taker whose
running attempt timed out. -/
theorem updateClient_async [DecidableEq K] {status : ServiceStatus K}
    (hsession : answers.session = .ok (.object status)) (clientClass : ClientClass)
    {s : FleetState K}
    (h : clientClass = .taker → ¬PausedInTimeout status s.client block round) :
    (updateClient .async clientClass answers block round).run s =
      (updateClient .sync clientClass answers block round).run s := by
  have hstatus : updateStatus .async answers = updateStatus .sync answers := by
    simp only [updateStatus, status_async hsession]
  cases clientClass with
  | maker =>
    simp only [updateClient, MakerClient.updateAsync, MakerClient.update, MakerClient.updateOn,
      hstatus]
  | taker =>
    have hsame := run_taker_async (s := ⟨s.client, []⟩) hsession (h rfl)
    simp only [updateClient, ofTaker, run_zoom, hsame]
  | tumbler =>
    simp only [updateClient, TumblerTakerClient.updateAsync, TumblerTakerClient.update,
      TumblerTakerClient.updateOn, hstatus]

end UpdateClient

end CoinjoinEmulator
