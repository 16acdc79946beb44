import CoinjoinEmulator.Postmix.JoinMarket
import CoinjoinEmulator.Postmix.Wasabi

/-! What the calls of a postmix spend keep: a relation that each call to a wallet and to the node
keeps is kept by an update of the spends. -/

namespace CoinjoinEmulator

open ProofKit

namespace Postmix

section Wallet

variable {σ E : Type} {clock : Clock σ} {R : World σ E → World σ E → Prop} [Std.Refl R]
  [IsTrans (World σ E) R]

/-- Reading the clock and sleeping keep the relation. -/
structure TimeKeeps (clock : Clock σ) (R : World σ E → World σ E → Prop) : Prop where
  time : Keeps R (World.time clock)
  sleep : ∀ seconds, Keeps R (World.sleep seconds)

/-- The calls to the wallet keep the relation. -/
structure WasabiClient.CallsKeep (client : WasabiClient (World σ E))
    (R : World σ E → World σ E → Prop) : Prop where
  listUnspentCoins : Keeps R client.listUnspentCoins
  coinjoinStatus : Keeps R client.coinjoinStatus
  stopCoinjoin : Keeps R client.stopCoinjoin
  rpcSend : ∀ request, Keeps R (client.rpcSend request)

structure FundingNode.CallsKeep (node : FundingNode (World σ E))
    (R : World σ E → World σ E → Prop) : Prop where
  getNewAddress : Keeps R node.getNewAddress
  isUnspent : ∀ txid index, Keeps R (node.isUnspent txid index)

/-- The calls of a spend to its wallet keep the relation. -/
structure SpendingClient.CallsKeep {S : Type} (client : SpendingClient (World σ E) S)
    (node : FundingNode (World σ E)) (R : World σ E → World σ E → Prop) : Prop where
  stopCoinjoin : Keeps R client.stopCoinjoin
  checkMixedCoins : ∀ value minAnonScore,
    Keeps R (client.checkMixedCoins value minAnonScore (some node.isUnspent))
  sendMixedCoins : ∀ destination value minAnonScore coinSelection, Keeps R
    (client.sendMixedCoins destination value minAnonScore (some node.isUnspent) coinSelection)

/-- An update of the postmix spends keeps what the calls to the wallets and to the node keep. -/
theorem keeps_update {n : Nat} {S : Type} {clients : Fin n → SpendingClient (World σ E) S}
    {node : FundingNode (World σ E)} (h : ∀ i, (clients i).CallsKeep node R)
    (hnode : node.CallsKeep R) (htime : TimeKeeps clock R) (currentBlock currentRound : Int)
    (spends : List (PostmixSpend n S)) :
    Keeps R (update clock clients node currentBlock currentRound spends) := by
  have hpayOut : ∀ spend : PostmixSpend n S,
      Keeps R (payOut (clients spend.walletIndex) spend node) := by
    intro spend
    have hclient := h spend.walletIndex
    refine (hclient.checkMixedCoins _ _).bind fun _ => hclient.stopCoinjoin.bind fun _ => ?_
    refine hnode.getNewAddress.bind fun destination => ?_
    exact (hclient.sendMixedCoins destination _ _ _).bind fun _ => .pure _
  refine Keeps.mapM (fun spend => ?_) spends
  refine Keeps.bind (.ite _ (htime.time.bind fun _ => .pure _) (.pure _)) fun isDue => ?_
  refine .ite _ ((hpayOut _).observing.bind fun result => ?_) (.pure spend)
  cases result with
  | ok paid => exact .pure _
  | error error => exact htime.time.bind fun _ => .pure _

namespace WasabiClient

variable {client : WasabiClient (World σ E)} {node : FundingNode (World σ E)}

theorem CallsKeep.checkCoins (hnode : node.CallsKeep R) (htime : TimeKeeps clock R) (deadline : Rat)
    (coins : List WasabiCoin) : Keeps R (checkCoins clock node.isUnspent deadline coins) := by
  induction coins with
  | nil => exact .pure none
  | cons coin rest ih =>
    refine htime.time.bind fun now => .ite _ (.pure _) ?_
    exact (hnode.isUnspent coin.txid coin.index).bind fun _ => .ite _ ih (.pure _)

theorem CallsKeep.settleLoop (h : client.CallsKeep R) (hnode : node.CallsKeep R)
    (htime : TimeKeeps clock R) (deadline : Rat) (reason : String) (fuel : Nat) :
    Keeps R (settleLoop clock client node.isUnspent deadline reason fuel) := by
  induction fuel generalizing reason with
  | zero => exact .throw _
  | succ fuel ih =>
    refine htime.time.bind fun now => .ite _ ?_ (.throw _)
    refine Keeps.bind ?_ fun unsettled => ?_
    · refine h.coinjoinStatus.bind fun status => .ite _ (.pure _) ?_
      exact h.listUnspentCoins.bind fun coins =>
        .ite _ (.pure _) (CallsKeep.checkCoins hnode htime deadline coins)
    · cases unsettled with
      | none => exact .pure ()
      | some reason => exact (htime.sleep 1).bind fun _ => ih reason

theorem CallsKeep.settle (h : client.CallsKeep R) (hnode : node.CallsKeep R)
    (htime : TimeKeeps clock R) (value : Option Int) :
    Keeps R (settle clock client value (some node.isUnspent)) := by
  cases value with
  | none =>
    exact .ite _ (.pure ()) (htime.time.bind fun _ => h.settleLoop hnode htime _ _ _)
  | some value => exact .pure ()

theorem CallsKeep.selectMixedCoins (h : client.CallsKeep R) (hnode : node.CallsKeep R)
    (value : Option Int) (minAnonScore : Option Rat) (coinSelection : String) :
    Keeps R (client.selectMixedCoins value minAnonScore (some node.isUnspent) coinSelection) := by
  refine h.listUnspentCoins.bind fun coins => Keeps.bind (.selectM (fun coin => ?_) coins) ?_
  · exact .ite _ (hnode.isUnspent coin.txid coin.index) (.pure false)
  · intro candidates
    refine .ite _ (.throw _) (Keeps.bind (.ofExcept _) fun selection => ?_)
    exact .ite _ (.throw _) (.pure _)

theorem CallsKeep.sendMixedCoins (h : client.CallsKeep R) (hnode : node.CallsKeep R)
    (htime : TimeKeeps clock R) (destination : String) (value : Option Int)
    (minAnonScore : Option Rat) (coinSelection : String) :
    Keeps R (sendMixedCoins clock client destination value minAnonScore (some node.isUnspent)
      coinSelection) := by
  refine (h.settle hnode htime value).bind fun _ => ?_
  refine (h.selectMixedCoins hnode value minAnonScore coinSelection).bind fun selection => ?_
  exact (h.rpcSend _).bind fun _ => .pure _

theorem CallsKeep.spendingClient (h : client.CallsKeep R) (hnode : node.CallsKeep R)
    (htime : TimeKeeps clock R) : (client.spendingClient clock).CallsKeep node R where
  stopCoinjoin := h.stopCoinjoin
  checkMixedCoins value minAnonScore :=
    (h.selectMixedCoins hnode value minAnonScore "anon_score").bind fun _ => .pure _
  sendMixedCoins destination value minAnonScore coinSelection :=
    h.sendMixedCoins hnode htime destination value minAnonScore coinSelection

end WasabiClient

/-- The calls to the wallet and the question for the confirmed coinjoins keep the relation. -/
structure JoinMarketPostmixWallet.CallsKeep (wallet : JoinMarketPostmixWallet (World σ E))
    (R : World σ E → World σ E → Prop) : Prop where
  session : Keeps R wallet.client.session
  stopMaker : Keeps R wallet.client.stopMaker
  listUtxos : Keeps R wallet.client.listUtxos
  freezeUtxo : ∀ utxo freeze, Keeps R (wallet.client.freezeUtxo utxo freeze)
  sweepMixdepth : ∀ destination mixdepth, Keeps R (wallet.client.sweepMixdepth destination mixdepth)
  coinjoinTxids : Keeps R wallet.coinjoinTxids

namespace JoinMarketPostmixWallet

variable {wallet : JoinMarketPostmixWallet (World σ E)} {node : FundingNode (World σ E)}

theorem CallsKeep.select (h : wallet.CallsKeep R) (hnode : node.CallsKeep R)
    (coins : List JoinMarketCoin) (value : Option Int) :
    Keeps R (wallet.select coins value (some node.isUnspent)) := by
  refine h.coinjoinTxids.bind fun coinjoins => Keeps.bind (.selectM (fun coin => ?_) coins) ?_
  · exact .ite _ (hnode.isUnspent coin.utxo.txid coin.utxo.index) (.pure false)
  · intro mixed
    cases value with
    | none => exact .ite _ (.throw _) (.pure _)
    | some value =>
      dsimp only
      split
      · exact .pure _
      · exact .throw _

theorem CallsKeep.sweeps (h : wallet.CallsKeep R) (coins : List JoinMarketCoin)
    (byMixdepth : Groups Int JoinMarketCoin) (destination : String) :
    Keeps R (wallet.sweeps coins byMixdepth destination) := by
  refine Keeps.mapM (fun group => ?_) _
  refine Keeps.bind (.tryFinally ?_ (.forM (fun utxo => h.freezeUtxo utxo false) _)) fun _ =>
    .pure _
  exact (Keeps.forM (fun utxo => h.freezeUtxo utxo true) _).bind fun _ => h.sweepMixdepth _ _

theorem CallsKeep.stopLoop (h : wallet.CallsKeep R) (htime : TimeKeeps clock R) (deadline : Rat)
    (fuel : Nat) : Keeps R (stopLoop clock wallet deadline fuel) := by
  induction fuel with
  | zero => exact .throw _
  | succ fuel ih =>
    refine h.session.bind fun state => ?_
    cases state with
    | none => exact .throw _
    | some state =>
      refine .ite _ (.pure ()) (.ite _ (.throw _) ?_)
      exact htime.time.bind fun now => .ite _ (.throw _) ((htime.sleep 2).bind fun _ => ih)

theorem CallsKeep.spendingClient (h : wallet.CallsKeep R) (hnode : node.CallsKeep R)
    (htime : TimeKeeps clock R) : (wallet.spendingClient clock).CallsKeep node R where
  stopCoinjoin := by
    refine Keeps.bind (.ite _ h.stopMaker (.pure ())) fun _ => ?_
    exact htime.time.bind fun now => h.stopLoop htime _ _
  checkMixedCoins value _ :=
    h.listUtxos.bind fun coins => (h.select hnode coins value).bind fun _ => .pure _
  sendMixedCoins destination value _ coinSelection := by
    refine .ite _ (.throw _) (h.listUtxos.bind fun coins => ?_)
    refine (h.select hnode coins value).bind fun byMixdepth => ?_
    refine (h.sweeps coins byMixdepth destination).bind fun transactions => ?_
    cases transactions with
    | nil => exact .throw _
    | cons first rest => exact .pure _

end JoinMarketPostmixWallet

end Wallet

end Postmix

end CoinjoinEmulator
