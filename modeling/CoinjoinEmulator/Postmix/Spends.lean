import CoinjoinEmulator.Postmix.World
import Mathlib.Data.List.FinRange

/-! Scheduled postmix spends: wallets move mixed coins out of the pool once due. -/

namespace CoinjoinEmulator.Postmix

open ProofKit

/-- `POSTMIX_RETRY_SECONDS`. -/
def postmixRetrySeconds : Rat := 30

/-- The outpoint `txid:index` of an output. -/
structure Outpoint where
  txid : String
  index : Nat
deriving DecidableEq, Repr

/-- Whether an output is unspent, by transaction and index. -/
abbrev Unspent (W : Type) := String → Nat → EStateM PyError W Bool

/-- The node RPC that provides a destination outside every mixing wallet. -/
structure FundingNode (W : Type) where
  getNewAddress : EStateM PyError W String
  isUnspent : Unspent W

/-- The wallet calls a postmix spend needs. -/
structure SpendingClient (W R : Type) where
  name : String
  stopCoinjoin : EStateM PyError W Unit
  checkMixedCoins : Option Int → Option Rat → Option (Unspent W) → EStateM PyError W Unit
  sendMixedCoins : String → Option Int → Option Rat → Option (Unspent W) → String →
    EStateM PyError W R

structure PostmixSpendConfig where
  value : Option Int := none
  all : Bool := false
  delayBlocks : Option Int := none
  delayRounds : Option Int := none
  minAnonScore : Option Rat := none
  coinSelection : String := "anon_score"

inductive SpendStatus where
  | notDue
  | failed
  | sent
deriving DecidableEq, Repr

def SpendStatus.text : SpendStatus → String
  | .notDue => "not_due"
  | .failed => "failed"
  | .sent => "sent"

/-- What is stored about the transaction of a spend: the description that the wallet returned and
where it was made. -/
structure Sent (R : Type) where
  result : R
  destination : String
  round : Int
  block : Int

/-- One scheduled spend of one of `n` wallets, with the outcome of its attempts. -/
structure PostmixSpend (n : Nat) (R : Type) where
  wallet : String
  walletIndex : Fin n
  value : Option Int
  all : Bool
  delayBlocks : Int
  delayRounds : Int
  minAnonScore : Option Rat
  coinSelection : String := "anon_score"
  status : SpendStatus := .notDue
  attempts : Nat := 0
  lastError : Option String := none
  nextAttemptAt : Rat := 0
  sent : Option (Sent R) := none

/-- The stored form: schedule and outcome in one flat object. -/
structure SpendRecord (R : Type) where
  wallet : String
  walletIndex : Nat
  value : Option Int
  all : Bool
  delayBlocks : Int
  delayRounds : Int
  minAnonScore : Option Rat
  coinSelection : String
  status : String
  attempts : Nat
  lastError : Option String
  sent : Option (Sent R)

namespace PostmixSpend

variable {σ E R : Type} {n : Nat}

def fromConfig (wallet : String) (walletIndex : Fin n) (config : PostmixSpendConfig) :
    PostmixSpend n R where
  wallet
  walletIndex
  value := config.value
  all := config.all
  delayBlocks := config.delayBlocks.getD 0
  delayRounds := config.delayRounds.getD 0
  minAnonScore := config.minAnonScore
  coinSelection := config.coinSelection

def due (clock : Clock σ) (spend : PostmixSpend n R) (currentBlock currentRound : Int) :
    EStateM PyError (World σ E) Bool :=
  if spend.status ≠ .sent ∧ spend.delayBlocks ≤ currentBlock ∧ spend.delayRounds ≤ currentRound then do
    let now ← World.time clock
    return decide (spend.nextAttemptAt ≤ now)
  else pure false

def markFailed (clock : Clock σ) (spend : PostmixSpend n R) (error : PyError) :
    EStateM PyError (World σ E) (PostmixSpend n R) := do
  let now ← World.time clock
  return { spend with
    status := .failed
    lastError := some error.message
    nextAttemptAt := now + postmixRetrySeconds }

def markSent (spend : PostmixSpend n R) (sent : Sent R) : PostmixSpend n R :=
  { spend with status := .sent, lastError := none, sent := some sent }

def record (spend : PostmixSpend n R) : SpendRecord R where
  wallet := spend.wallet
  walletIndex := spend.walletIndex
  value := spend.value
  all := spend.all
  delayBlocks := spend.delayBlocks
  delayRounds := spend.delayRounds
  minAnonScore := spend.minAnonScore
  coinSelection := spend.coinSelection
  status := spend.status.text
  attempts := spend.attempts
  lastError := spend.lastError
  sent := spend.sent

end PostmixSpend

section Schedule

variable {σ E R : Type} {n : Nat}

/-- The spends of every wallet, in the order of the wallets. -/
def initialSpends (clients : Fin n → SpendingClient (World σ E) R)
    (walletPostmixSpends : Fin n → List PostmixSpendConfig) : List (PostmixSpend n R) :=
  (List.finRange n).flatMap fun index =>
    (walletPostmixSpends index).map (PostmixSpend.fromConfig (clients index).name index)

/-- Pay the spend's mixed coins to a fresh funding-wallet address. -/
def payOut (client : SpendingClient (World σ E) R) (spend : PostmixSpend n R)
    (node : FundingNode (World σ E)) : EStateM PyError (World σ E) (R × String) := do
  let value := if spend.all then none else spend.value
  -- Stopping cancels the wallet's round, so the coins are checked before it.
  client.checkMixedCoins value spend.minAnonScore (some node.isUnspent)
  client.stopCoinjoin
  let destination ← node.getNewAddress
  let result ← client.sendMixedCoins destination value spend.minAnonScore (some node.isUnspent)
    spend.coinSelection
  return (result, destination)

variable (clock : Clock σ) (clients : Fin n → SpendingClient (World σ E) R)
  (node : FundingNode (World σ E)) (currentBlock currentRound : Int)

/-- `_send`: attempt one spend and record its outcome. -/
def attemptSpend (spend : PostmixSpend n R) : EStateM PyError (World σ E) (PostmixSpend n R) := do
  let attempted := { spend with attempts := spend.attempts + 1 }
  match ← observing (payOut (clients spend.walletIndex) attempted node) with
  | .error error => attempted.markFailed clock error
  | .ok (result, destination) =>
    return attempted.markSent { result, destination, round := currentRound, block := currentBlock }

/-- One turn of the loop of `update`. -/
def updateSpend (spend : PostmixSpend n R) : EStateM PyError (World σ E) (PostmixSpend n R) := do
  let isDue ← spend.due clock currentBlock currentRound
  if isDue then attemptSpend clock clients node currentBlock currentRound spend
  else pure spend

/-- Send every due postmix spend; a failed one is retried after a pause. -/
def update (spends : List (PostmixSpend n R)) :
    EStateM PyError (World σ E) (List (PostmixSpend n R)) :=
  spends.mapM (updateSpend clock clients node currentBlock currentRound)

end Schedule

end CoinjoinEmulator.Postmix
