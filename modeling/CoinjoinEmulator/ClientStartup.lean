import CoinjoinEmulator.ProofKit.Effect
import CoinjoinEmulator.Scenario.Configuration

/-! The start of the clients, one for each wallet of the scenario, with retries. -/

namespace CoinjoinEmulator.ClientStartup

open ProofKit Scenario

/-- True when the wallet asks for a fidelity bond. -/
def hasFidelityBond (wallet : WalletConfig) : Except PyError Bool := do
  let bond ← dictOrEmpty ((wallet.joinmarket.map JoinMarketConfig.fidelityBond).getD .none)
  return (bond.getD "enabled" (.bool false)).truthy

/-- What the engines implement.  A client that could not be started is `none`. -/
structure ClientEngine (σ C : Type) where
  startClient : Nat → WalletConfig → EStateM PyError σ (Option C)
  stopClient : Nat → EStateM PyError σ Unit
  getBalance : C → EStateM PyError σ Unit

/-- What is done for a client. -/
inductive Event (C : Type) where
  | started (idx : Nat) (wallet : WalletConfig) (result : Except PyError (Option C))
  | probed (idx : Nat) (client : C) (healthy : Bool)
  | stopped (idx : Nat)

def Event.idx {C : Type} : Event C → Nat
  | .started idx _ _ | .probed idx _ _ | .stopped idx => idx

/-- Whatever decides how the calls end, and the calls that were made. -/
structure Startup (σ C : Type) where
  world : σ
  log : List (Event C)

structure EngineBase (σ C : Type) where
  clients : List C
  startup : Startup σ C

/-- The slices `items[start:start + size]` for `start` in `range(0, len(items), size)`. -/
def batches {α : Type} (size : Nat) (items : List α) : List (List α) :=
  (List.range ((items.length + size - 1) / size)).map fun i => (items.drop (i * size)).take size

/-- The chunk size of `ThreadPool.starmap`. -/
def chunkSize (processes tasks : Nat) : Nat :=
  tasks / (processes * 4) + if tasks % (processes * 4) = 0 then 0 else 1

/-- An index and its wallet. -/
abbrev Task := Nat × WalletConfig

variable {σ C : Type} (engine : ClientEngine σ C)

def onWorld {α : Type} (program : EStateM PyError σ α) : EStateM PyError (Startup σ C) α :=
  zoom Startup.world (fun s world => { s with world }) program

def note (event : Event C) : EStateM PyError (Startup σ C) Unit :=
  modify fun s => { s with log := s.log ++ [event] }

def startClient (task : Task) : EStateM PyError (Startup σ C) (Option C) := do
  let result ← observing (onWorld (engine.startClient task.1 task.2))
  note (.started task.1 task.2 result)
  ofExcept result

/-- The chunks run on the threads of the pool; each ends at its first exception.  The calls are
arbitrary functions of the world, so nothing is lost by running the chunks in order. -/
def runChunks : List (List Task) → EStateM PyError (Startup σ C) (Except PyError (List (Option C)))
  | [] => return .ok []
  | chunk :: chunks => do
    let result ← observing (chunk.mapM (startClient engine))
    let others ← runChunks chunks
    return do
      let clients ← result
      let others ← others
      return clients ++ others

/-- `pool.starmap(self.start_client, tasks)`: an exception is raised when all chunks have ended. -/
def starmap (processes : Nat) (tasks : List Task) :
    EStateM PyError (Startup σ C) (List (Option C)) := do
  let result ← runChunks engine (batches (chunkSize processes tasks.length) tasks)
  ofExcept result

/-- Start tasks together: the index of each with its client. -/
def startBatch (processes : Nat) (tasks : List Task) :
    EStateM PyError (Startup σ C) (List (Nat × Option C)) := do
  let clients ← starmap engine processes tasks
  return (tasks.map Prod.fst).zip clients

def startBatches (processes : Nat) :
    List (List Task) → EStateM PyError (Startup σ C) (List (Nat × Option C))
  | [] => return []
  | batch :: rest => do
    let results ← startBatch engine processes batch
    let others ← startBatches processes rest
    return results ++ others

/-- `_has_fidelity_bond` of a wallet for which it does not raise. -/
def isBonded (task : Task) : Bool :=
  match hasFidelityBond task.2 with
  | .ok bonded => bonded
  | .error _ => false

/-- Wallets per batch of those with a fidelity bond. -/
def fbBatchSize : Nat := 5

/-- Regular wallets are started together, wallets with a fidelity bond in batches.  The result is
the dict's items. -/
def startClassifiedWallets (processes : Nat) (walletList : List Task) :
    EStateM PyError (Startup σ C) (List (Nat × Option C)) := do
  let regularWallets := walletList.filter fun task => !isBonded task
  let fbWallets := walletList.filter isBonded
  let results ← if regularWallets = [] then pure [] else startBatch engine processes regularWallets
  let others ← startBatches engine processes (batches fbBatchSize fbWallets)
  return results ++ others

/-- `for idx, client in results.items(): new_clients[idx - start] = client`. -/
def assign (start : Nat) (newClients : List (Option C)) (results : List (Nat × Option C)) :
    List (Option C) :=
  results.foldl (fun newClients result => newClients.set (result.1 - start) result.2) newClients

/-- Whether a client is missing or its probe fails. -/
def isFailed (client : Option C × Nat) : EStateM PyError (Startup σ C) Bool :=
  match client with
  | (none, _) => return true
  | (some client, idx) => do
    let balance ← observing (onWorld (engine.getBalance client))
    let healthy := balance.isOk
    note (.probed idx client healthy)
    return !healthy

def failedIndices (start : Nat) (newClients : List (Option C)) :
    EStateM PyError (Startup σ C) (List Nat) := do
  let failed ← selectM (isFailed engine) (newClients.zipIdx start)
  return failed.map Prod.snd

def stopClient (idx : Nat) : EStateM PyError (Startup σ C) Unit := do
  note (.stopped idx)
  onWorld (engine.stopClient idx)

/-- The task of an index.  Every index that fails is one of the wallets'. -/
def taskOf (start : Nat) (wallets : List WalletConfig) (idx : Nat) : Option Task :=
  wallets[idx - start]?.map fun wallet => (idx, wallet)

/-- The retry rounds that are left. -/
def retry (processes start : Nat) (wallets : List WalletConfig) :
    Nat → List (Option C) → EStateM PyError (Startup σ C) (List (Option C))
  | 0, newClients => return newClients
  | rounds + 1, newClients => do
    let failed ← failedIndices engine start newClients
    if failed = [] then return newClients
    else do
      failed.forM (stopClient engine)
      let results ← startClassifiedWallets engine processes
        (failed.filterMap (taskOf start wallets))
      retry processes start wallets rounds (assign start newClients results)

def startFailure (failedCount : Nat) : PyError :=
  .runtimeError ("Failed to start " ++ toString failedCount
    ++ " clients after retries; aborting experiment")

/-- `start_clients` up to its last statement: the new clients, none of them missing. -/
def startNewClients (processes start : Nat) (wallets : List WalletConfig) :
    EStateM PyError (Startup σ C) (List (Option C)) := do
  -- the wallets with a bond are counted first
  let _ ← ofExcept (wallets.mapM hasFidelityBond)
  let walletList := wallets.zipIdx.map fun wallet => (start + wallet.2, wallet.1)
  let results ← startClassifiedWallets engine processes walletList
  let newClients ← retry engine processes start wallets 3
    (assign start (List.replicate wallets.length none) results)
  let failedCount := newClients.countP Option.isNone
  if failedCount ≠ 0 then throw (startFailure failedCount)
  else return newClients

/-- Start a client for every wallet and extend the engine's clients. -/
def startClients (processes : Nat) (wallets : List WalletConfig) :
    EStateM PyError (EngineBase σ C) Unit := do
  let s ← get
  let newClients ← zoom EngineBase.startup (fun s startup => { s with startup })
    (startNewClients engine processes s.clients.length wallets)
  modify fun s => { s with clients := s.clients ++ newClients.reduceOption }

end CoinjoinEmulator.ClientStartup
