import CoinjoinEmulator.RoundEvents.Record

/-! The state of a `JoinMarketClientServer`: its schedule, the flags of its coinjoin attempts, and
the round events that it records. -/

namespace CoinjoinEmulator

open ProofKit

inductive ClientType where
  | maker
  | taker
  | orderbook
deriving DecidableEq, Repr

/-- An offer as the scenario configures it: the keyword arguments of a start request. -/
abbrev Offer := List (String × Value)

/-- `offer[key] = value`. -/
def Offer.set : Offer → String → Value → Offer
  | [], key, value => [(key, value)]
  | (k, old) :: rest, key, value =>
    if k = key then (k, value) :: rest else (k, old) :: Offer.set rest key value

/-- `offer.get(key)`: a missing key is `None`. -/
def Offer.get (offer : Offer) (key : String) : Value :=
  (offer.lookup key).getD .none

def defaultCoinjoinTimeoutBlocks : Int := 8

theorem defaultCoinjoinTimeoutBlocks_pos : 0 < defaultCoinjoinTimeoutBlocks := by decide

structure JoinMarketClientServer where
  name : String
  type : ClientType
  /-- Blocks and rounds before the wallet starts to mix. -/
  delay : Int × Int
  /-- Blocks and rounds at which the wallet stops to mix; 0 means that it does not. -/
  stop : Int × Int
  offers : List Offer
  timeBetweenRounds : Int
  coinjoinTimeoutBlocks : Int
  coinjoinTimeoutBlocks_pos : 0 < coinjoinTimeoutBlocks
  maxCoinjoins : Int
  makerRunning : Bool := false
  nextCoinjoinAllowed : Int := delay.1
  coinjoinInProcess : Bool := false
  coinjoinStart : Int := 0
  completedCoinjoins : Int := 0
  /-- Producer-owned ground truth: one record for each coinjoin that this client starts. -/
  roundEvents : List RoundEvent := []
  coinHistory : Dict Value := Dict.empty

namespace JoinMarketClientServer

/-- Whether the wallet's start and stop keep it from mixing now. -/
def outsideSchedule (client : JoinMarketClientServer) (currentBlock currentRound : Int) : Bool :=
  let (startBlock, startRound) := client.delay
  let (stopBlock, stopRound) := client.stop
  decide (currentBlock < startBlock) || decide (currentRound < startRound)
    || decide (0 < stopBlock ∧ stopBlock ≤ currentBlock)
    || decide (0 < stopRound ∧ stopRound ≤ currentRound)

def isPaused (client : JoinMarketClientServer) (currentBlock currentRound : Int) : Bool :=
  client.outsideSchedule currentBlock currentRound
    || decide (currentBlock < client.nextCoinjoinAllowed)
    || decide (0 < client.maxCoinjoins ∧ client.maxCoinjoins ≤ client.completedCoinjoins)

/-- Whether the active coinjoin attempt exceeded its configured block limit. -/
def coinjoinTimedOut (client : JoinMarketClientServer) (currentBlock : Int) : Bool :=
  decide (client.coinjoinStart + client.coinjoinTimeoutBlocks < currentBlock)

/-- The dictionary of a started attempt. -/
def roundStartEvent (client : JoinMarketClientServer) (destination : Value)
    (amountSats counterparties mixdepth : Value) (currentBlock : Int) (chainHeight : Value) :
    RoundEvent :=
  Dict.ofList [
    ("round_id", .int (client.roundEvents.length + 1)),
    ("engine", .str "joinmarket"),
    ("status", .str EventStatus.started.text),
    ("execution_status", .str ExecutionStatus.requested.text),
    ("taker", .str client.name),
    ("destination_address", destination),
    ("amount_sats", amountSats),
    ("counterparties", counterparties),
    ("mixdepth", mixdepth),
    ("start_block", .int currentBlock),
    ("start_chain_height", chainHeight)]

/-- Record an attempt before its start RPC so that its destination can be reconciled with blocks. -/
def recordRoundStart (client : JoinMarketClientServer) (destination : Value)
    (amountSats counterparties mixdepth : Value) (currentBlock : Int)
    (chainHeight : Value := .none) : JoinMarketClientServer :=
  { client with
    roundEvents := client.roundEvents ++
      [client.roundStartEvent destination amountSats counterparties mixdepth currentBlock
        chainHeight] }

/-- What an attempt's event says after its start was or was not acknowledged. -/
def roundStartOutcome (acknowledged : Bool) (event : RoundEvent) : RoundEvent :=
  event.set "execution_status"
    (.str (if acknowledged then ExecutionStatus.started.text else ExecutionStatus.unknown.text))

/-- Record whether jmwalletd acknowledged the start of the event `ref`; otherwise the chain decides
the outcome. -/
def recordRoundStartOutcome (client : JoinMarketClientServer) (ref : Nat) (acknowledged : Bool) :
    JoinMarketClientServer :=
  { client with roundEvents := client.roundEvents.modify ref (roundStartOutcome acknowledged) }

/-! ### The event of an attempt -/

section Started

variable (client : JoinMarketClientServer) (destination amountSats counterparties mixdepth : Value)
  (currentBlock : Int) (chainHeight : Value)

open RoundEventRecord

@[simp] theorem status_roundStartEvent :
    status (client.roundStartEvent destination amountSats counterparties mixdepth currentBlock
      chainHeight) = some EventStatus.started.text := rfl

@[simp] theorem destinationMatches_roundStartEvent :
    destinationMatches (client.roundStartEvent destination amountSats counterparties mixdepth
      currentBlock chainHeight) = [] := rfl

@[simp] theorem get_taker_roundStartEvent :
    (client.roundStartEvent destination amountSats counterparties mixdepth currentBlock
      chainHeight).get "taker" = some (.str client.name) := rfl

@[simp] theorem get_start_block_roundStartEvent :
    (client.roundStartEvent destination amountSats counterparties mixdepth currentBlock
      chainHeight).get "start_block" = some (.int currentBlock) := rfl

end Started

theorem get_roundStartOutcome (acknowledged : Bool) {k : String} (hk : k ≠ "execution_status")
    (event : RoundEvent) : (roundStartOutcome acknowledged event).get k = event.get k := by
  simp [roundStartOutcome, hk]

end JoinMarketClientServer

end CoinjoinEmulator
