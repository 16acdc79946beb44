import CoinjoinEmulator.Postmix.Spends
import CoinjoinEmulator.ProofKit.Cover

/-! Postmix spends of a Wasabi wallet: one transaction of mixed coins without change. -/

namespace CoinjoinEmulator.Postmix

open ProofKit

/-- The fields of `listunspentcoins` that mixed-coin selection reads. -/
structure WasabiCoin where
  txid : String
  index : Nat
  amount : Nat
  anonymityScore : Option Rat
  confirmed : Bool
deriving DecidableEq

def WasabiCoin.outpoint (coin : WasabiCoin) : Outpoint := ⟨coin.txid, coin.index⟩

/-- The parameters of a `send` request. -/
structure SendRequest where
  sendto : String
  amount : Nat
  label : String := "postmix"
  subtractFee : Bool := true
  coins : List Outpoint
  feeTarget : Nat := 2
  password : String := ""

/-- A coin of the description that `send_mixed_coins` returns. -/
structure SentCoin where
  txid : String
  index : Nat
  amount : Nat
  anonymityScore : Option Rat
deriving DecidableEq

def SentCoin.outpoint (coin : SentCoin) : Outpoint := ⟨coin.txid, coin.index⟩

structure SentCoins where
  txid : Option String
  amountSats : Nat
  coins : List SentCoin
deriving DecidableEq

/-- The RPC calls of a Wasabi client that a postmix spend makes. -/
structure WasabiClient (W : Type) where
  name : String
  version : String
  listUnspentCoins : EStateM PyError W (List WasabiCoin)
  /-- The `coinjoinStatus` of the wallet info. -/
  coinjoinStatus : EStateM PyError W (Option String)
  stopCoinjoin : EStateM PyError W Unit
  /-- The txid in the answer to a `send` request. -/
  rpcSend : SendRequest → EStateM PyError W (Option String)

namespace WasabiClient

/-! ### Selection -/

section Select

variable {W : Type} (client : WasabiClient W)

def isMixed (minAnonScore : Option Rat) (coin : WasabiCoin) : Bool :=
  let score := coin.anonymityScore.getD 0
  match minAnonScore with
  | none => 1 < score
  | some minAnonScore => minAnonScore ≤ score

/-- Whether a coin is a candidate for the selection. -/
def isCandidate (minAnonScore : Option Rat) (unspent : Option (Unspent W)) (coin : WasabiCoin) :
    EStateM PyError W Bool :=
  if coin.confirmed = true ∧ isMixed minAnonScore coin = true then
    match unspent with
    | none => pure true
    | some unspent => unspent coin.txid coin.index
  else pure false

/-- `sorted(candidates, key=..., reverse=True)`: the most private coins first. -/
def sortByScore (candidates : List WasabiCoin) : List WasabiCoin :=
  candidates.insertionSort fun coin coin' =>
    coin'.anonymityScore.getD 0 ≤ coin.anonymityScore.getD 0

/-- Take the most private coins until they cover `value`. -/
def selectCoinsByAnonScore (value : Int) :
    List WasabiCoin → List WasabiCoin → Nat → List WasabiCoin × Nat
  | [], selected, total => (selected, total)
  | coin :: rest, selected, total =>
    if value ≤ total then (selected, total)
    else selectCoinsByAnonScore value rest (selected ++ [coin]) (total + coin.amount)

/-- The coins that cover `value`, or all of them when it is `none`, and their sum. -/
def selectFrom (candidates : List WasabiCoin) (value : Option Int) (coinSelection : String) :
    Except PyError (List WasabiCoin × Nat) :=
  match value with
  | none => .ok (candidates, totalWeight WasabiCoin.amount candidates)
  | some value =>
    if coinSelection = "amount" then .ok (cover WasabiCoin.amount candidates value)
    else if coinSelection = "anon_score" then .ok (selectCoinsByAnonScore value candidates [] 0)
    else .error (.valueError ("unsupported coin selection: " ++ coinSelection))

/-- `value or 'any'`. -/
def requestedText : Option Int → String
  | none => "any"
  | some value => if value = 0 then "any" else toString value

/-- Confirmed mixed coins covering `value` (all of them when it is `none`), and their sum. -/
def selectMixedCoins (value : Option Int) (minAnonScore : Option Rat)
    (unspent : Option (Unspent W)) (coinSelection : String) :
    EStateM PyError W (List WasabiCoin × Nat) := do
  let coins ← client.listUnspentCoins
  let candidates ← selectM (isCandidate minAnonScore unspent) coins
  if candidates.any (fun coin => coin.anonymityScore.isNone) then
    throw (.keyError "anonymityScore")
  else do
    let (selected, total) ← ofExcept (selectFrom (sortByScore candidates) value coinSelection)
    if selected = [] ∨ value.any (fun value => (total : Int) < value) then
      throw (.runtimeError (client.name ++ " has " ++ toString total ++ " sats of mixed coins, "
        ++ requestedText value ++ " sats requested"))
    else return (selected, total)

/-- Raise like `sendMixedCoins` when the mixed coins cannot cover `value` yet. -/
def checkMixedCoins (value : Option Int) (minAnonScore : Option Rat)
    (unspent : Option (Unspent W)) : EStateM PyError W Unit := do
  let _ ← client.selectMixedCoins value minAnonScore unspent "anon_score"

end Select

/-! ### Settlement -/

section Settle

variable {σ E : Type} (clock : Clock σ) (client : WasabiClient (World σ E))
  (unspent : Unspent (World σ E))

/-- Check every coin against the node: the reason why the wallet is not settled, or `none`. -/
def checkCoins (deadline : Rat) : List WasabiCoin → EStateM PyError (World σ E) (Option String)
  | [] => return none
  | coin :: rest => do
    let now ← World.time clock
    if deadline ≤ now then return some "checking the wallet's coins exceeded the timeout"
    else do
      let isUnspent ← unspent coin.txid coin.index
      if isUnspent then checkCoins deadline rest
      else return some "wallet still lists inputs already spent by the node"

/-- One look at the wallet: the reason why it is not settled, or `none`. -/
def unsettled (deadline : Rat) : EStateM PyError (World σ E) (Option String) := do
  let status ← client.coinjoinStatus
  if status ≠ some "Idle" then
    return some ("coinjoin status is " ++ status.getD "unavailable")
  else do
    let coins ← client.listUnspentCoins
    if coins.any (fun coin => !coin.confirmed) then
      return some "wallet still has unconfirmed coins"
    else checkCoins clock unspent deadline coins

def settlementTimeout (reason : String) : PyError :=
  .timeoutError (client.name ++ " could not settle its all-mixed-coins spend within 300 s: " ++ reason)

/-- The loop that waits for the settlement.  Each round sleeps for a second, so 300 of them outlast
the 300 seconds to the deadline. -/
def settleLoop (deadline : Rat) (reason : String) : Nat → EStateM PyError (World σ E) Unit
  | 0 => throw (settlementTimeout client reason)
  | fuel + 1 => do
    let now ← World.time clock
    if now < deadline then do
      match ← unsettled clock client unspent deadline with
      | none => pure ()
      | some reason => do
        World.sleep 1
        settleLoop deadline reason fuel
    else throw (settlementTimeout client reason)

/-- A 2.6 sweep waits for its last round's confirmed outputs after stopping. -/
def waitForPostmixSettlement : EStateM PyError (World σ E) Unit :=
  if client.version < "2.6.0" then pure ()
  else do
    let now ← World.time clock
    settleLoop clock client unspent (now + 300) "coinjoin has not stopped" 301

/-- Only an all-spend that asks the node waits. -/
def settle (value : Option Int) (unspent : Option (Unspent (World σ E))) :
    EStateM PyError (World σ E) Unit :=
  match value, unspent with
  | none, some unspent => waitForPostmixSettlement clock client unspent
  | _, _ => pure ()

/-! ### The spend -/

/-- Spend mixed coins to `destination` in one transaction without change. -/
def sendMixedCoins (destination : String) (value : Option Int) (minAnonScore : Option Rat)
    (unspent : Option (Unspent (World σ E))) (coinSelection : String) :
    EStateM PyError (World σ E) SentCoins := do
  settle clock client value unspent
  let (selected, total) ← client.selectMixedCoins value minAnonScore unspent coinSelection
  let txid ← client.rpcSend {
    sendto := destination, amount := total, coins := selected.map WasabiCoin.outpoint }
  return {
    txid
    amountSats := total
    coins := selected.map fun coin => ⟨coin.txid, coin.index, coin.amount, coin.anonymityScore⟩ }

/-- The client as the schedule calls it. -/
def spendingClient : SpendingClient (World σ E) SentCoins where
  name := client.name
  stopCoinjoin := client.stopCoinjoin
  checkMixedCoins := client.checkMixedCoins
  sendMixedCoins := sendMixedCoins clock client

end Settle

end WasabiClient

end CoinjoinEmulator.Postmix
