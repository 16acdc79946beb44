import CoinjoinEmulator.Invoices
import CoinjoinEmulator.JoinMarket.Engine
import CoinjoinEmulator.JoinMarket.Fleet
import CoinjoinEmulator.Postmix.JoinMarket

/-! The simulation of the JoinMarket engine: the loop that refreshes the block count, pays what is
due, counts the confirmed rounds and updates the clients until a limit is reached. -/

namespace CoinjoinEmulator.JoinmarketRun

open ProofKit Postmix

/-- `scenario.rounds` and `scenario.blocks`; 0 is no limit. -/
structure Limits where
  rounds : Int
  blocks : Int

/-- The condition of the loop of `run_engine`. -/
def Limits.goesOn (limits : Limits) (currentBlock currentRound : Int) : Bool :=
  (decide (limits.rounds = 0) || decide (currentRound < limits.rounds)) &&
    (decide (limits.blocks = 0) || decide (currentBlock < limits.blocks))

/-- `_round_limit_reached`. -/
def Limits.roundLimitReached (limits : Limits) (currentRound : Int) : Bool :=
  decide (0 < limits.rounds) && decide (limits.rounds ≤ currentRound)

structure Node (σ : Type) extends FundingNode σ where
  getBlockCount : EStateM PyError σ Int
  /-- Whether the node mined as many blocks as it was asked for. -/
  mineBlock : Nat → EStateM PyError σ Bool
  /-- What the node answers to the requests of one scan. -/
  blocks : σ → BlockSource × σ

/-- Whom the engine calls.  `answers` are the answers of a client's service to its next update. -/
structure Parties (σ K : Type) (n : Nat) where
  classOf : Nat → ClientClass
  answers : Nat → σ → ClientAnswers K × σ
  wallets : Fin n → JoinMarketWallet σ
  node : Option (Node σ)
  distributor : Option (Distributor σ)

/-- The engine with its tumblers, and `outside`, whatever decides the answers of the others. -/
structure Site (σ K : Type) where
  outside : σ
  engine : JoinmarketEngine
  tumblers : Nat → Tumbler K

/-- What the engine asks of the chain and of its clients: to mine some blocks, and an update with
the requests that it sent; those of other clients may be sent in between. -/
inductive Event where
  | mine (blocks : Nat)
  | update (client : Nat) (block : Int) (round : Nat) (sent : List FleetRequest)

abbrev SiteWorld (σ K : Type) := Postmix.World (Site σ K) Event

/-- The invoices and the postmix spends, with the world behind all calls. -/
structure Simulation (σ K : Type) (n : Nat) where
  funding : Funding (SiteWorld σ K)
  postmixSpends : Option (List (PostmixSpend n SentSweeps))
  currentBlock : Int := 0

namespace Simulation

variable {σ K : Type} {n : Nat}

def world (simulation : Simulation σ K n) : SiteWorld σ K := simulation.funding.world

def currentRound (simulation : Simulation σ K n) : Nat :=
  simulation.world.inner.engine.currentRound

def setWorld (simulation : Simulation σ K n) (world : SiteWorld σ K) : Simulation σ K n :=
  { simulation with funding := simulation.funding.setWorld world }

def onWorld {α : Type} (program : EStateM PyError (SiteWorld σ K) α) :
    EStateM PyError (Simulation σ K n) α := zoom world setWorld program

def onFunding {α : Type} (program : EStateM PyError (Funding (SiteWorld σ K)) α) :
    EStateM PyError (Simulation σ K n) α :=
  zoom funding (fun simulation funding => { simulation with funding }) program

end Simulation

section Calls

variable {σ K : Type} (clock : Clock σ)

/-- The clock of the outside. -/
def siteClock : Clock (Site σ K) where
  elapsed site := clock.elapsed site.outside
  elapsed_nonneg site := clock.elapsed_nonneg site.outside
  wait site := { site with outside := clock.wait site.outside }

/-- A call to a service, to the node or to the distributor. -/
def call {α : Type} (program : EStateM PyError σ α) : EStateM PyError (SiteWorld σ K) α :=
  Postmix.World.call (siteClock clock)
    (zoom Site.outside (fun site outside => { site with outside }) program)

/-- A call whose result tells its exceptions. -/
def ask {α : Type} (program : σ → α × σ) : EStateM PyError (SiteWorld σ K) α :=
  call clock fun s => .ok (program s).1 (program s).2

def World.setEngine (w : SiteWorld σ K) (engine : JoinmarketEngine) : SiteWorld σ K :=
  { w with inner := { w.inner with engine } }

def onEngine {α : Type} (program : EStateM PyError JoinmarketEngine α) :
    EStateM PyError (SiteWorld σ K) α := zoom (fun w => w.inner.engine) World.setEngine program

/-- The wallet of a client as a postmix spend calls it. -/
def siteWallet (wallet : JoinMarketWallet σ) : JoinMarketWallet (SiteWorld σ K) where
  name := wallet.name
  type := wallet.type
  session := call clock wallet.session
  stopMaker := call clock wallet.stopMaker
  listUtxos := call clock wallet.listUtxos
  freezeUtxo utxo freeze := call clock (wallet.freezeUtxo utxo freeze)
  sweepMixdepth destination mixdepth := call clock (wallet.sweepMixdepth destination mixdepth)

/-- `JoinMarketPostmixWallet(client, self.confirmed_coinjoin_txids)`. -/
def postmixWallet (wallet : JoinMarketWallet σ) : JoinMarketPostmixWallet (SiteWorld σ K) where
  client := siteWallet clock wallet
  coinjoinTxids := onEngine (JoinmarketEngine.onLiveEvents confirmedCoinjoinTxids)

def fundingNode (node : Node σ) : FundingNode (SiteWorld σ K) where
  getNewAddress := call clock node.getNewAddress
  isUnspent txid index := call clock (node.isUnspent txid index)

end Calls

section Updates

variable {σ K : Type} [DecidableEq K] {n : Nat} (clock : Clock σ) (parties : Parties σ K n)
  (limits : Limits)

/-- The world after an update of the client `i`. -/
def World.afterUpdate (w : SiteWorld σ K) (i : Nat) (block : Int) (s : FleetState K) :
    SiteWorld σ K where
  inner := { w.inner with
    engine := w.inner.engine.modifyClient i fun _ => s.client
    tumblers := Function.update w.inner.tumblers i s.tumbler }
  now := w.now
  log := w.log ++ [.update i block w.inner.engine.currentRound s.requests]

/-- `client.update` or `client.update_async` for the client `i`. -/
def updateAt (path : UpdatePath) (block : Int) (i : Nat) : EStateM PyError (SiteWorld σ K) Int := do
  match (← get).inner.engine.clients[i]? with
  | none => return 0
  | some client =>
    let answers ← ask clock (parties.answers i)
    let w ← get
    let result := (updateClient path (parties.classOf i) answers block
      w.inner.engine.currentRound).run ⟨client, w.inner.tumblers i, []⟩
    set (World.afterUpdate w i block (resultState result))
    match result with
    | .ok delta _ => return delta
    | .error error _ => throw error

/-- A negative result is a timed-out attempt. -/
def markTimeout (block : Int) (i : Nat) (delta : Int) : EStateM PyError (SiteWorld σ K) Unit := do
  if delta < 0 then
    match (← get).inner.engine.clients[i]? with
    | none => pure ()
    | some client =>
      let _ ← onEngine (JoinmarketEngine.markTakerRoundFailed client.name
        "coinjoin attempt timed out" block)

/-- `confirm_started_rounds`. -/
def confirmStartedRounds (node : Node σ) : EStateM PyError (SiteWorld σ K) Unit := do
  let source ← ask clock node.blocks
  let _ ← onEngine (JoinmarketEngine.confirmStartedRounds (some source))

/-- One client of the loop of `update_coinjoins_joinmarket`. -/
def updateAndMark (block : Int) (i : Nat) : EStateM PyError (SiteWorld σ K) Unit := do
  let _ ← observing do
    let delta ← updateAt clock parties .sync block i
    markTimeout block i delta

/-- `_update_client_async`. -/
def updateClientAsync (block : Int) (i : Nat) : EStateM PyError (SiteWorld σ K) Int := do
  match ← observing (updateAt clock parties .async block i) with
  | .ok delta => return delta
  | .error _ => return 0

/-- What follows the scan in `update_coinjoins_joinmarket` or `update_coinjoins_joinmarket_async`,
for the clients of a list.  The asynchronous copy marks the timeouts after all updates. -/
def updateClients (path : UpdatePath) (block : Int) (clients : List Nat) :
    EStateM PyError (SiteWorld σ K) Unit :=
  match path with
  | .sync => forM clients (updateAndMark clock parties block)
  | .async => do
    let deltas ← clients.mapM (updateClientAsync clock parties block)
    forM (clients.zip deltas) fun (i, delta) => markTimeout block i delta

/-- `update_coinjoins_joinmarket` and `update_coinjoins_joinmarket_async`. -/
def updateCoinjoinsJoinmarket (path : UpdatePath) (node : Node σ) (block : Int) :
    EStateM PyError (SiteWorld σ K) Unit := do
  confirmStartedRounds clock node
  let engine := (← get).inner.engine
  if limits.roundLimitReached engine.currentRound then pure ()
  else updateClients clock parties path block (List.range engine.clients.length)

end Updates

section Loop

variable {σ K : Type} [DecidableEq K] {n : Nat} (clock : Clock σ) (parties : Parties σ K n)
  (limits : Limits) (path : UpdatePath)

/-- The tries that are left to refresh the block count, which stays when all of them fail. -/
def refreshBlock (node : Node σ) (initialBlock : Int) :
    Nat → EStateM PyError (Simulation σ K n) Unit
  | 0 => pure ()
  | tries + 1 => do
    match ← observing (Simulation.onWorld (call clock node.getBlockCount)) with
    | .ok count => modify fun simulation => { simulation with currentBlock := count - initialBlock }
    | .error _ => refreshBlock node initialBlock tries

def distributor : Option (Distributor (SiteWorld σ K)) :=
  parties.distributor.map fun send batch => call clock (send batch)

def updateInvoicePayments : EStateM PyError (Simulation σ K n) Unit := do
  let simulation ← get
  Simulation.onFunding (CoinjoinEmulator.updateInvoicePayments (distributor clock parties)
    simulation.currentBlock simulation.currentRound)

def updatePostmixSpends (node : Node σ) : EStateM PyError (Simulation σ K n) Unit := do
  let simulation ← get
  match simulation.postmixSpends with
  | none | some [] => pure ()
  | some spends => do
    let spends' ← Simulation.onWorld (Postmix.update (siteClock clock)
      (fun i => (postmixWallet clock (parties.wallets i)).spendingClient (siteClock clock))
      (fundingNode clock node) simulation.currentBlock simulation.currentRound spends)
    modify fun simulation => { simulation with postmixSpends := some spends' }

def updateCoinjoins (node : Node σ) : EStateM PyError (Simulation σ K n) Unit := do
  let simulation ← get
  Simulation.onWorld (updateCoinjoinsJoinmarket clock parties limits path node
    simulation.currentBlock)

/-- One round of the loop of `run_engine`. -/
def turn (node : Node σ) (initialBlock : Int) : EStateM PyError (Simulation σ K n) Unit := do
  refreshBlock clock node initialBlock 3
  let _ ← observing (updateInvoicePayments clock parties)
  let _ ← observing (updatePostmixSpends clock parties node)
  let _ ← observing (updateCoinjoins clock parties limits path node)
  Simulation.onWorld (Postmix.World.sleep 30)

/-- `self.node.mine_block`, whose answer the engine ignores. -/
def mine (node : Node σ) (blocks : Nat) : EStateM PyError (Simulation σ K n) Unit := do
  Simulation.onWorld (Postmix.World.note (.mine blocks))
  let _ ← Simulation.onWorld (call clock (node.mineBlock blocks))

/-- What follows the loop: confirmations for the last broadcast. -/
def finish (node : Node σ) : EStateM PyError (Simulation σ K n) Bool := do
  Simulation.onWorld (Postmix.World.sleep 60)
  mine clock node 3
  return true

/-- The loop of `run_engine`, for a number of rounds: whether it ended. -/
def runLoop (node : Node σ) (initialBlock : Int) : Nat → EStateM PyError (Simulation σ K n) Bool
  | 0 => do
    let simulation ← get
    if limits.goesOn simulation.currentBlock simulation.currentRound then return false
    else finish clock node
  | fuel + 1 => do
    let simulation ← get
    if limits.goesOn simulation.currentBlock simulation.currentRound then
      turn clock parties limits path node initialBlock
      runLoop node initialBlock fuel
    else finish clock node

/-- `WARMUP_BLOCKS`. -/
def warmupBlocks : Nat := 5

def startBlockClock (node : Node σ) : EStateM PyError (Simulation σ K n) Int := do
  forM (List.range warmupBlocks) fun _ => mine clock node 1
  match ← observing (Simulation.onWorld (call clock node.getBlockCount)) with
  | .ok count => return count
  | .error _ => return 0

/-- `run_engine`, for a number of rounds of its loop: whether it returned. -/
def runEngine (fuel : Nat) : EStateM PyError (Simulation σ K n) Bool :=
  match parties.node with
  | none => throw (.runtimeError "Bitcoin node is not initialized")
  | some node => do
    let initialBlock ← startBlockClock clock node
    runLoop clock parties limits path node initialBlock fuel

end Loop

end CoinjoinEmulator.JoinmarketRun
