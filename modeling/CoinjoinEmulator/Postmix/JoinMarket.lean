import CoinjoinEmulator.JoinMarket.Client
import CoinjoinEmulator.Postmix.Spends
import CoinjoinEmulator.ProofKit.Collect
import CoinjoinEmulator.ProofKit.Cover
import Mathlib.Data.List.MinMax
import Mathlib.Data.Prod.Lex

/-! Postmix spends of a JoinMarket wallet: coinjoin outputs leave the pool one mixdepth at
a time. -/

namespace CoinjoinEmulator.Postmix

open ProofKit

/-- One coin of jmwalletd's listing, as far as a postmix spend reads it. -/
structure JoinMarketCoin where
  utxo : Outpoint
  value : Nat
  mixdepth : Int
  confirmations : Int := 0
  frozen : Bool := false
deriving DecidableEq, Repr

/-- The `txinfo` that jmwalletd's direct-send answers with. -/
structure TransactionInfo where
  txid : Option String
  inputs : List Outpoint := []
deriving DecidableEq, Repr

structure SweptCoin where
  txid : String
  index : Nat
  amount : Nat
  mixdepth : Int
deriving DecidableEq, Repr

structure Sweep where
  txid : Option String
  amountSats : Nat
  coins : List SweptCoin
deriving DecidableEq, Repr

/-- What `send_mixed_coins` returns: one transaction for each mixdepth, `txid` is the first
of them. -/
structure SentSweeps where
  txid : Option String
  txids : List (Option String)
  amountSats : Nat
  coins : List SweptCoin
deriving DecidableEq, Repr

/-- jmwalletd's service state, as far as it is read. -/
structure ServiceState where
  makerRunning : Bool
  coinjoinInProcess : Bool

/-- The jmwalletd calls a postmix spend needs. -/
structure JoinMarketWallet (W : Type) where
  name : String
  type : ClientType
  /-- `none` when jmwalletd did not answer. -/
  session : EStateM PyError W (Option ServiceState)
  stopMaker : EStateM PyError W Unit
  listUtxos : EStateM PyError W (List JoinMarketCoin)
  freezeUtxo : Outpoint → Bool → EStateM PyError W Unit
  sweepMixdepth : String → Int → EStateM PyError W TransactionInfo

/-- Adapts a JoinMarket client to the schedule.  `coinjoinTxids` asks the engine for the confirmed
coinjoins of the run. -/
structure JoinMarketPostmixWallet (W : Type) where
  client : JoinMarketWallet W
  coinjoinTxids : EStateM PyError W (List String)

namespace JoinMarketPostmixWallet

/-! ### Selection and sweep -/

section Select

variable {W : Type} (wallet : JoinMarketPostmixWallet W)

/-- Whether a coin is a confirmed, unfrozen output of a coinjoin. -/
def isMixed (coinjoins : List String) (unspent : Option (Unspent W)) (coin : JoinMarketCoin) :
    EStateM PyError W Bool :=
  if 0 < coin.confirmations ∧ coin.frozen = false ∧ coin.utxo.txid ∈ coinjoins then
    match unspent with
    | none => pure true
    | some unspent => unspent coin.utxo.txid coin.utxo.index
  else pure false

/-- The mixdepths whose coins cover `value`: the selected amount, the mixdepth and the selection. -/
def covering (byMixdepth : Groups Int JoinMarketCoin) (value : Int) :
    List (Nat × Int × List JoinMarketCoin) :=
  byMixdepth.filterMap fun (mixdepth, candidates) =>
    let (selected, total) := cover JoinMarketCoin.value candidates value
    if value ≤ total then some (total, mixdepth, selected) else none

/-- The largest amount of a single mixdepth. -/
def bestMixdepth (byMixdepth : Groups Int JoinMarketCoin) : Nat :=
  byMixdepth.foldl (fun best group => max best (totalWeight JoinMarketCoin.value group.2)) 0

/-- Selections are compared by amount, then by mixdepth. -/
instance : Preorder (Nat ×ₗ Int) :=
  (@Prod.Lex.instLinearOrder Nat Int Nat.instLinearOrder Int.instLinearOrder).toPreorder

/-- Confirmed, unfrozen coinjoin outputs by mixdepth: all of them, or the one mixdepth that covers
`value` with the least overshoot. -/
def select (coins : List JoinMarketCoin) (value : Option Int) (unspent : Option (Unspent W)) :
    EStateM PyError W (Groups Int JoinMarketCoin) := do
  let coinjoins ← wallet.coinjoinTxids
  let mixed ← selectM (isMixed coinjoins unspent) coins
  let byMixdepth := groupBy (fun coin => some coin.mixdepth) mixed
  match value with
  | none =>
    if byMixdepth = [] then throw (.runtimeError (wallet.client.name ++ " has no mixed coins"))
    else return byMixdepth
  | some value =>
    match (covering byMixdepth value).argmin fun item => toLex (item.1, item.2.1) with
    | some (_, mixdepth, selected) => return [(mixdepth, selected)]
    | none =>
      throw (.runtimeError (wallet.client.name ++ " has at most "
        ++ toString (bestMixdepth byMixdepth) ++ " sats of mixed coins in one mixdepth, "
        ++ toString value ++ " sats requested"))

/-- The other unfrozen coins of the mixdepth. -/
def toFreeze (coins selected : List JoinMarketCoin) (mixdepth : Int) : List Outpoint :=
  (coins.filter fun coin =>
    coin.mixdepth = mixdepth ∧ coin.utxo ∉ selected.map JoinMarketCoin.utxo
      ∧ coin.frozen = false).map JoinMarketCoin.utxo

/-- The record of a sweep lists the inputs that the transaction spent. -/
def sweepRecord (coins : List JoinMarketCoin) (mixdepth : Int) (txinfo : TransactionInfo) : Sweep :=
  let swept := coins.filter fun coin => coin.utxo ∈ txinfo.inputs
  { txid := txinfo.txid
    amountSats := totalWeight JoinMarketCoin.value swept
    coins := swept.map fun coin =>
      { txid := coin.utxo.txid, index := coin.utxo.index, amount := coin.value, mixdepth } }

/-- `_sweep`: sweep `selected` out of the mixdepth with every other coin there frozen, then unfreeze
them. -/
def sweep (coins selected : List JoinMarketCoin) (destination : String) (mixdepth : Int) :
    EStateM PyError W Sweep := do
  let frozen := toFreeze coins selected mixdepth
  let txinfo ← tryFinally
    (do
      forM frozen fun utxo => wallet.client.freezeUtxo utxo true
      wallet.client.sweepMixdepth destination mixdepth)
    (forM frozen fun utxo => wallet.client.freezeUtxo utxo false)
  return sweepRecord coins mixdepth txinfo

/-- One sweep for each mixdepth, in the order of the mixdepths. -/
def sweeps (coins : List JoinMarketCoin) (byMixdepth : Groups Int JoinMarketCoin)
    (destination : String) : EStateM PyError W (List Sweep) :=
  (byMixdepth.insertionSort fun group group' => group.1 ≤ group'.1).mapM fun group =>
    wallet.sweep coins group.2 destination group.1

/-- The description of the transactions. -/
def describe (transactions : List Sweep) : EStateM PyError W SentSweeps :=
  match transactions with
  | [] => throw (.exception "list index out of range")
  | first :: _ =>
    return {
      txid := first.txid
      txids := transactions.map Sweep.txid
      amountSats := (transactions.map Sweep.amountSats).sum
      coins := transactions.flatMap Sweep.coins }

/-- Sweep mixed coins to `destination`: one mixdepth that covers `value`, or every mixdepth when it
is `none`. -/
def sendMixedCoins (destination : String) (value : Option Int) (unspent : Option (Unspent W))
    (coinSelection : String) : EStateM PyError W SentSweeps :=
  if coinSelection ≠ "amount" then
    throw (.valueError ("unsupported JoinMarket coin selection: " ++ coinSelection))
  else do
    let coins ← wallet.client.listUtxos
    let byMixdepth ← wallet.select coins value unspent
    let transactions ← wallet.sweeps coins byMixdepth destination
    describe transactions

/-- Raise like `sendMixedCoins` when no mixdepth's mixed coins cover `value` yet. -/
def checkMixedCoins (value : Option Int) (unspent : Option (Unspent W)) :
    EStateM PyError W Unit := do
  let coins ← wallet.client.listUtxos
  let _ ← wallet.select coins value unspent

end Select

/-! ### Stopping the wallet -/

section Stop

variable {σ E : Type} (clock : Clock σ) (wallet : JoinMarketPostmixWallet (World σ E))

/-- The loop that waits until jmwalletd is idle.  Each round takes 2 seconds, so 15 of them outlast
the 30 seconds to the deadline. -/
def stopLoop (deadline : Rat) : Nat → EStateM PyError (World σ E) Unit
  | 0 => throw (.runtimeError (wallet.client.name ++ " maker did not stop within 30 s"))
  | fuel + 1 => do
    match ← wallet.client.session with
    | none => throw (.runtimeError (wallet.client.name ++ " did not report its service state"))
    | some state =>
      if state.makerRunning = false ∧ state.coinjoinInProcess = false then pure ()
      else if wallet.client.type ≠ .maker then
        throw (.runtimeError (wallet.client.name ++ " is in a coinjoin"))
      else do
        let now ← World.time clock
        if deadline ≤ now then
          throw (.runtimeError (wallet.client.name ++ " maker did not stop within 30 s"))
        else do
          World.sleep 2
          stopLoop deadline fuel

def stopMaker : EStateM PyError (World σ E) Unit :=
  if wallet.client.type = .maker then wallet.client.stopMaker else pure ()

/-- Stop the maker and wait until jmwalletd is idle; a taker's running coinjoin is not cut short. -/
def stopCoinjoin : EStateM PyError (World σ E) Unit := do
  stopMaker wallet
  let now ← World.time clock
  stopLoop clock wallet (now + 30) 16

/-- The wallet as the schedule calls it.  JoinMarket coins have no anonymity score. -/
def spendingClient : SpendingClient (World σ E) SentSweeps where
  name := wallet.client.name
  stopCoinjoin := stopCoinjoin clock wallet
  checkMixedCoins value _ unspent := wallet.checkMixedCoins value unspent
  sendMixedCoins destination value _ unspent coinSelection :=
    wallet.sendMixedCoins destination value unspent coinSelection

end Stop

end JoinMarketPostmixWallet

end CoinjoinEmulator.Postmix
