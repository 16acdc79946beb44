import CoinjoinEmulator.ClientStartup
import CoinjoinEmulator.Invoices
import CoinjoinEmulator.Postmix.Wasabi
import CoinjoinEmulator.ProofKit.Pool
import CoinjoinEmulator.WasabiEngine.Rounds

/-! The simulation of the Wasabi engine: the loop that refreshes the counts, pays what is due, and
starts and stops the coinjoins of the clients until a limit is reached. -/

namespace CoinjoinEmulator.WasabiEngine

open ProofKit Postmix WasabiVersions
open ClientStartup (batches chunkSize)

/-- `scenario.rounds` and `scenario.blocks`; 0 is no limit. -/
structure Limits where
  rounds : Int
  blocks : Int

/-- `current_block` and `current_round`. -/
structure Counts where
  block : Int
  round : Int
deriving DecidableEq

/-- `_run_limit_reached`. -/
def Limits.reached (limits : Limits) (counts : Counts) : Bool :=
  (decide (0 < limits.rounds) && decide (limits.rounds ≤ counts.round)) ||
    (decide (0 < limits.blocks) && decide (limits.blocks ≤ counts.block))

/-- A Wasabi client as the engine uses it.  When `start_coinjoin` raises a `ConnectionError`,
`startCoinjoin` is its text. -/
structure MixingClient (σ : Type) where
  wallet : WasabiClient σ
  host : String
  port : Nat
  /-- Blocks and rounds before the wallet starts to mix. -/
  delay : Int × Int
  /-- Blocks and rounds at which the wallet stops to mix; 0 means that it does not. -/
  stop : Int × Int
  skipRounds : List Int
  startCoinjoin : EStateM PyError σ (Option String)

structure MiningNode (σ : Type) extends FundingNode σ where
  getBlockCount : EStateM PyError σ Int
  mineBlock : Nat → EStateM PyError σ Bool

/-- The container and the path of the file that tells the rounds. -/
def roundsFile : BackendArchitecture → String × String
  | .split => ("wasabi-coordinator", "/home/wasabi/.walletwasabi/coordinator/Logs.txt")
  | .legacy =>
    ("wasabi-backend", "/home/wasabi/.walletwasabi/backend/WabiSabi/CoinJoinIdStore.txt")

/-- Whom the engine calls. -/
structure Parties (σ : Type) (n : Nat) where
  clients : Fin n → MixingClient σ
  node : Option (MiningNode σ)
  distributor : Option (Distributor σ)
  architecture : BackendArchitecture
  /-- `driver.peek`, for a container and a path. -/
  peek : String → String → EStateM PyError σ String
  /-- `driver.container_state`. -/
  containerState : String → EStateM PyError σ (Option String)

/-- A thread pool.  `order` says whose turn it is, for each pool anew. -/
structure ThreadPool (σ : Type) where
  processes : Nat
  order : σ → List Nat

/-- What the engine asks of the distributor, of the clients and of the node, and the counts of each
round of its loop.  A batch of invoices was paid; a wallet is paused before it spends. -/
inductive Request (n : Nat) where
  | refresh (counts : Counts)
  | pay (invoices : List Invoice) (counts : Counts)
  | start (client : Fin n) (counts : Counts)
  | stop (client : Fin n) (counts : Counts)
  | pause (client : Fin n)
  | mine (blocks : Nat)
deriving DecidableEq

/-- The world behind all calls, with the requests. -/
abbrev EngineWorld (σ : Type) (n : Nat) := Postmix.World σ (Request n)

/-- The invoices and the postmix spends, with the world behind all calls. -/
structure Engine (σ : Type) (n : Nat) where
  funding : Funding (EngineWorld σ n)
  postmixSpends : Option (List (PostmixSpend n SentCoins))

namespace Engine

variable {σ : Type} {n : Nat}

def world (engine : Engine σ n) : EngineWorld σ n := engine.funding.world

def setWorld (engine : Engine σ n) (world : EngineWorld σ n) : Engine σ n :=
  { engine with funding := engine.funding.setWorld world }

def onWorld {α : Type} (program : EStateM PyError (EngineWorld σ n) α) :
    EStateM PyError (Engine σ n) α := zoom world setWorld program

def onFunding {α : Type} (program : EStateM PyError (Funding (EngineWorld σ n)) α) :
    EStateM PyError (Engine σ n) α :=
  zoom funding (fun engine funding => { engine with funding }) program

end Engine

section Coinjoins

variable {σ : Type} {n : Nat} (clock : Clock σ) (parties : Parties σ n) (threads : ThreadPool σ)
  (limits : Limits)

/-- `client_gone_message` with the state of the container, if it is known. -/
def clientGoneMessage (client : MixingClient σ) (state : Option String) (error : String) :
    String :=
  let place := match state with
    | none | some "" => "container state unknown"
    | some state => "container state: " ++ state
  "client " ++ client.wallet.name ++ " is unreachable at " ++ client.host ++ ":" ++
    toString client.port ++ " (" ++ place ++ "). A Wasabi client that hits a fatal error exits " ++
    "0 and looks \"Completed\", so check that client's own log for the last exception before it " ++
    "stopped. Underlying error: " ++ error

def startCoinjoin (counts : Counts) (i : Fin n) : EStateM PyError (EngineWorld σ n) Unit := do
  Postmix.World.note (.start i counts)
  match ← Postmix.World.call clock (parties.clients i).startCoinjoin with
  | none => pure ()
  | some error => do
    let state ← observing (Postmix.World.call clock
      (parties.containerState (parties.clients i).wallet.name))
    throw (.runtimeError (clientGoneMessage (parties.clients i) (state.toOption.getD none) error))

def stopCoinjoin (counts : Counts) (i : Fin n) : EStateM PyError (EngineWorld σ n) Unit := do
  Postmix.World.note (.stop i counts)
  Postmix.World.call clock (parties.clients i).wallet.stopCoinjoin

/-- `start_condition` of `update_coinjoins`. -/
def startCondition (client : MixingClient σ) (counts : Counts) : Bool :=
  if limits.reached counts then false
  else if 0 < client.stop.1 ∧ client.stop.1 ≤ counts.block then false
  else if 0 < client.stop.2 ∧ client.stop.2 ≤ counts.round then false
  else if counts.block < client.delay.1 then false
  else if counts.round < client.delay.2 then false
  else if counts.round ∈ client.skipRounds then false
  else true

/-- `pool.starmap` over the clients, on a new pool. -/
def starmap (request : Fin n → EStateM PyError (EngineWorld σ n) Unit)
    (clients : List (Fin n)) : EStateM PyError (EngineWorld σ n) Unit := do
  let w ← get
  runPool request (threads.order w.inner)
    (batches (chunkSize threads.processes clients.length) clients)

def updateCoinjoins (counts : Counts) : EStateM PyError (EngineWorld σ n) Unit := do
  let start := (List.finRange n).filter fun i => startCondition limits (parties.clients i) counts
  let stop := (List.finRange n).filter fun i => !startCondition limits (parties.clients i) counts
  starmap threads (startCoinjoin clock parties counts) start
  starmap threads (stopCoinjoin clock parties counts) stop

/-- The wallet of a client as a postmix spend calls it. -/
def payingWallet (i : Fin n) : WasabiClient (EngineWorld σ n) where
  name := (parties.clients i).wallet.name
  version := (parties.clients i).wallet.version
  listUnspentCoins := Postmix.World.call clock (parties.clients i).wallet.listUnspentCoins
  coinjoinStatus := Postmix.World.call clock (parties.clients i).wallet.coinjoinStatus
  stopCoinjoin := do
    Postmix.World.note (.pause i)
    Postmix.World.call clock (parties.clients i).wallet.stopCoinjoin
  rpcSend request := Postmix.World.call clock ((parties.clients i).wallet.rpcSend request)

def fundingNode (node : MiningNode σ) : FundingNode (EngineWorld σ n) where
  getNewAddress := Postmix.World.call clock node.getNewAddress
  isUnspent txid index := Postmix.World.call clock (node.isUnspent txid index)

def updatePostmixSpends (node : MiningNode σ) (counts : Counts) :
    EStateM PyError (Engine σ n) Unit := do
  match (← get).postmixSpends with
  | none => pure ()
  | some spends => do
    let spends' ← Engine.onWorld (Postmix.update clock
      (fun i => WasabiClient.spendingClient clock (payingWallet clock parties i))
      (fundingNode clock node) counts.block counts.round spends)
    modify fun engine => { engine with postmixSpends := some spends' }

/-- The distributor on the world with the log.  It pays the whole batch unless it raises or returns
`'timeout'`. -/
def distributor (counts : Counts) : Option (Distributor (EngineWorld σ n)) :=
  parties.distributor.map fun send batch => do
    let result ← Postmix.World.call clock (send batch)
    if result = "timeout" then return result
    else do
      Postmix.World.note (.pay batch counts)
      return result

/-- `_get_current_round`. -/
def getCurrentRound : EStateM PyError σ Int := do
  let (container, path) := roundsFile parties.architecture
  let text ← parties.peek container path
  return countRounds parties.architecture text

/-- The tries that are left to read a count. -/
def refresh (failure : String) (count : EStateM PyError (Engine σ n) Int) :
    Nat → EStateM PyError (Engine σ n) Int
  | 0 => throw (.runtimeError failure)
  | attempts + 1 => do
    match ← observing count with
    | .ok value => return value
    | .error _ => refresh failure count attempts

/-- Refresh the round count and the block count. -/
def refreshCounts (node : MiningNode σ) (initialBlock : Int) :
    EStateM PyError (Engine σ n) Counts := do
  let round ← refresh "Could not refresh Wasabi round count after 3 attempts"
    (Engine.onWorld (Postmix.World.call clock (getCurrentRound parties))) 3
  let height ← refresh "Could not refresh Wasabi block count after 3 attempts"
    (Engine.onWorld (Postmix.World.call clock node.getBlockCount)) 3
  return { block := height - initialBlock, round }

/-- One round of the loop of `run_engine` with refreshed counts. -/
def updateAll (node : MiningNode σ) (counts : Counts) : EStateM PyError (Engine σ n) Unit := do
  Engine.onWorld (Postmix.World.note (.refresh counts))
  Engine.onFunding
    (updateInvoicePayments (distributor clock parties counts) counts.block counts.round)
  updatePostmixSpends clock parties node counts
  Engine.onWorld (updateCoinjoins clock parties threads limits counts)
  Engine.onWorld (Postmix.World.sleep 1)

/-- `WASABI_SETTLEMENT_BLOCKS_AFTER_LIMIT`. -/
def settlementBlocks : Nat := 3

def mineSettlementBlocks (node : MiningNode σ) : EStateM PyError (EngineWorld σ n) Unit := do
  Postmix.World.note (.mine settlementBlocks)
  let mined ← Postmix.World.call clock (node.mineBlock settlementBlocks)
  if mined then pure ()
  else throw (.runtimeError ("Bitcoin node did not mine " ++ toString settlementBlocks
    ++ " settlement blocks"))

/-- The loop of `run_engine`, for a number of rounds: whether it ended. -/
def runLoop (node : MiningNode σ) (initialBlock : Int) :
    Nat → Counts → EStateM PyError (Engine σ n) Bool
  | fuel, counts =>
    if limits.reached counts then do
      Engine.onWorld (mineSettlementBlocks clock node)
      return true
    else
      match fuel with
      | 0 => return false
      | fuel + 1 => do
        let counts' ← refreshCounts clock parties node initialBlock
        updateAll clock parties threads limits node counts'
        runLoop node initialBlock fuel counts'

/-- `run_engine`, for a number of rounds of its loop: whether it returned. -/
def runEngine (fuel : Nat) : EStateM PyError (Engine σ n) Bool :=
  match parties.node with
  | none => throw (.runtimeError "Bitcoin node is not initialized")
  | some node => do
    let initialBlock ← Engine.onWorld (Postmix.World.call clock node.getBlockCount)
    runLoop clock parties threads limits node initialBlock fuel ⟨0, 0⟩

end Coinjoins

end CoinjoinEmulator.WasabiEngine
