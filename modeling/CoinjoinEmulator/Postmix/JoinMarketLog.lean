import CoinjoinEmulator.Postmix.JoinMarket
import CoinjoinEmulator.ProofKit.Runs

/-! What an attempt of a JoinMarket spend does to its wallet, for any answers and failures of
jmwalletd and of the node. -/

namespace CoinjoinEmulator.Postmix

open ProofKit

/-- What a wallet did: it listed its coins, answered a sweep with its transaction, or refused to
freeze, to unfreeze or to sweep. -/
inductive WalletEntry where
  | listed (coins : List JoinMarketCoin)
  | swept (txinfo : TransactionInfo)
  | refused
deriving DecidableEq, Repr

abbrev JmWorld (σ : Type) := World σ WalletEntry

section Logged

variable {σ : Type} (clock : Clock σ)

/-- A call of the wallet that is noted if it raises. -/
def noteRefusal {α : Type} (program : EStateM PyError (JmWorld σ) α) :
    EStateM PyError (JmWorld σ) α :=
  tryCatch program fun error => do
    World.note .refused
    throw error

/-- The wallet on the world with the log.  A sweep that raises broadcast nothing. -/
def JoinMarketWallet.logged (client : JoinMarketWallet σ) : JoinMarketWallet (JmWorld σ) where
  name := client.name
  type := client.type
  session := World.call clock client.session
  stopMaker := World.call clock client.stopMaker
  listUtxos := do
    let coins ← World.call clock client.listUtxos
    World.note (.listed coins)
    return coins
  freezeUtxo utxo freeze := noteRefusal (World.call clock (client.freezeUtxo utxo freeze))
  sweepMixdepth destination mixdepth := do
    let txinfo ← noteRefusal (World.call clock (client.sweepMixdepth destination mixdepth))
    World.note (.swept txinfo)
    return txinfo

def JoinMarketPostmixWallet.logged (wallet : JoinMarketPostmixWallet σ) :
    JoinMarketPostmixWallet (JmWorld σ) where
  client := wallet.client.logged clock
  coinjoinTxids := World.call clock wallet.coinjoinTxids

def FundingNode.logged {E : Type} (node : FundingNode σ) : FundingNode (World σ E) where
  getNewAddress := World.call clock node.getNewAddress
  isUnspent txid index := World.call clock (node.isUnspent txid index)

end Logged

/-- The transactions that the wallet broadcast. -/
def sweptOf (entries : List WalletEntry) : List TransactionInfo :=
  entries.filterMap fun
    | .swept txinfo => some txinfo
    | _ => none

/-- The listing that the wallet made last. -/
def lastListing (entries : List WalletEntry) : List JoinMarketCoin :=
  ((entries.filterMap fun
    | .listed coins => some coins
    | _ => none).getLast?).getD []

@[simp] theorem sweptOf_nil : sweptOf [] = [] := rfl

@[simp] theorem sweptOf_append (entries entries' : List WalletEntry) :
    sweptOf (entries ++ entries') = sweptOf entries ++ sweptOf entries' := List.filterMap_append

@[simp] theorem sweptOf_listed (coins : List JoinMarketCoin) (entries : List WalletEntry) :
    sweptOf (.listed coins :: entries) = sweptOf entries := rfl

@[simp] theorem sweptOf_swept (txinfo : TransactionInfo) (entries : List WalletEntry) :
    sweptOf (.swept txinfo :: entries) = txinfo :: sweptOf entries := rfl

@[simp] theorem sweptOf_refused (entries : List WalletEntry) :
    sweptOf (.refused :: entries) = sweptOf entries := rfl

@[simp] theorem sweptOf_map_swept (txinfos : List TransactionInfo) :
    sweptOf (txinfos.map .swept) = txinfos := by
  induction txinfos with
  | nil => rfl
  | cons txinfo rest ih => simp [ih]

/-! ### The calls of the wallet -/

/-- A listing is noted if it succeeds. -/
def ListLog : Except PyError (List JoinMarketCoin) → List WalletEntry → Prop
  | .ok coins, added => added = [.listed coins]
  | .error _, added => added = []

/-- Freezing is noted if it is refused. -/
def FreezeLog : Except PyError Unit → List WalletEntry → Prop
  | .ok _, added => added = []
  | .error _, added => added = [.refused]

/-- A sweep is noted with its transaction if it is answered. -/
def SweepCallLog : Except PyError TransactionInfo → List WalletEntry → Prop
  | .ok txinfo, added => added = [.swept txinfo]
  | .error _, added => added = [.refused]

/-- A sweep with its freezing that raises was refused something, maybe after its transaction. -/
def SweepLog {α : Type} (describes : TransactionInfo → α → Prop) :
    Except PyError α → List WalletEntry → Prop
  | .ok a, added => ∃ txinfo, added = [.swept txinfo] ∧ describes txinfo a
  | .error _, added => .refused ∈ added ∧ (sweptOf added).length ≤ 1

section Calls

variable {σ : Type} {clock : Clock σ}

theorem emits_noteRefusal {α : Type} (program : EStateM PyError σ α) :
    Emits World.log (noteRefusal (World.call clock program : EStateM PyError (JmWorld σ) α))
      fun _ r added => added = if r.isOk then [] else [.refused] := by
  intro w
  have hquiet := @World.keeps_call _ _ clock _ program w
  simp only [noteRefusal, stateAfter, run_tryCatch] at hquiet ⊢
  cases hrun : (World.call clock program).run w with
  | ok a w' =>
    rw [hrun] at hquiet
    exact ⟨[], hquiet.log.trans (List.append_nil _).symm, rfl⟩
  | error error w' =>
    rw [hrun] at hquiet
    have hlog : w'.log = w.log := hquiet.log
    refine ⟨[.refused], ?_, rfl⟩
    show w'.log ++ [.refused] = w.log ++ [.refused]
    rw [hlog]

theorem emits_listUtxos (client : JoinMarketWallet σ) :
    Emits World.log (client.logged clock).listUtxos fun _ => ListLog := by
  refine Emits.bind_silent (World.sameLog_of_quiet (World.keeps_call _)) (fun _ _ => rfl)
    fun coins => ?_
  exact World.emits_note (T := ListLog) (.pure fun _ => rfl)

theorem emits_freezeUtxo (client : JoinMarketWallet σ) (utxo : Outpoint) (freeze : Bool) :
    Emits World.log ((client.logged clock).freezeUtxo utxo freeze) fun _ => FreezeLog := by
  apply (emits_noteRefusal _).mono
  rintro old (error | _) added hadded <;> exact hadded

theorem emits_forM_freezeUtxo (client : JoinMarketWallet σ) (utxos : List Outpoint)
    (freeze : Bool) :
    Emits World.log (forM utxos fun utxo => (client.logged clock).freezeUtxo utxo freeze)
      fun _ => FreezeLog := by
  refine Emits.forM (fun utxo _ => emits_freezeUtxo client utxo freeze) (fun _ => rfl) ?_
  rintro old added r added' hnone hr
  cases hnone
  exact hr

theorem emits_sweepMixdepth (client : JoinMarketWallet σ) (destination : String) (mixdepth : Int) :
    Emits World.log ((client.logged clock).sweepMixdepth destination mixdepth)
      fun _ => SweepCallLog := by
  refine (emits_noteRefusal _).bind
    (fun txinfo => World.emits_note
      (T := fun r added => r = .ok txinfo ∧ added = [.swept txinfo]) (.pure fun _ => ⟨rfl, rfl⟩)) ?_ ?_
  · rintro old error added hadded
    exact hadded
  · rintro old txinfo added r added' hadded ⟨rfl, rfl⟩
    cases hadded
    rfl

end Calls

/-! ### An attempt -/

namespace JoinMarketPostmixWallet

section Attempt

variable {σ : Type} {clock : Clock σ} (wallet : JoinMarketPostmixWallet σ)

theorem emits_sweep (coins selected : List JoinMarketCoin) (destination : String)
    (mixdepth : Int) :
    Emits World.log ((wallet.logged clock).sweep coins selected destination mixdepth)
      fun _ => SweepLog fun txinfo record => record = sweepRecord coins mixdepth txinfo := by
  have hbody : Emits World.log (do
      forM (toFreeze coins selected mixdepth) fun utxo =>
        ((wallet.logged clock).client.freezeUtxo utxo true)
      (wallet.logged clock).client.sweepMixdepth destination mixdepth) fun _ => SweepCallLog := by
    refine (emits_forM_freezeUtxo wallet.client _ true).bind
      (fun _ => emits_sweepMixdepth wallet.client destination mixdepth) ?_ ?_
    · rintro old error added hadded
      exact hadded
    · rintro old a added r added' hadded hr
      cases hadded
      exact hr
  have hfinally := hbody.tryFinally (@emits_forM_freezeUtxo _ clock wallet.client
    (toFreeze coins selected mixdepth) false) (T := fun _ => SweepLog fun txinfo a => a = txinfo) (by
      rintro old (error | txinfo) added (error' | _) added' hadded hadded' <;>
        cases hadded <;> cases hadded'
      · exact ⟨by simp, by simp⟩
      · exact ⟨by simp, by simp⟩
      · exact ⟨by simp, by simp⟩
      · exact ⟨txinfo, rfl, rfl⟩)
  refine hfinally.bind
    (fun txinfo => .pure (Q := fun _ r added => r = .ok (sweepRecord coins mixdepth txinfo) ∧
      added = []) fun _ => ⟨rfl, rfl⟩) ?_ ?_
  · rintro old error added hadded
    exact hadded
  · rintro old txinfo added r added' ⟨txinfo', rfl, rfl⟩ ⟨rfl, rfl⟩
    exact ⟨txinfo, rfl, rfl⟩

/-- The record describes the transaction by the listing. -/
def Describes (coins : List JoinMarketCoin) (txinfo : TransactionInfo) (record : Sweep) : Prop :=
  ∃ mixdepth, record = sweepRecord coins mixdepth txinfo

/-- Sweeps that raise were refused something after at most `count` transactions. -/
def SweepsLog (coins : List JoinMarketCoin) (count : Nat) :
    Except PyError (List Sweep) → List WalletEntry → Prop
  | .ok records, added => ∃ txinfos, added = txinfos.map .swept ∧ txinfos.length = count ∧
      List.Forall₂ (Describes coins) txinfos records
  | .error _, added => .refused ∈ added ∧ (sweptOf added).length ≤ count

theorem emits_mapM_sweep (coins : List JoinMarketCoin) (groups : Groups Int JoinMarketCoin)
    (destination : String) :
    Emits World.log (groups.mapM fun group =>
        (wallet.logged clock).sweep coins group.2 destination group.1)
      fun _ => SweepsLog coins groups.length := by
  induction groups with
  | nil => exact .pure fun _ => ⟨[], rfl, rfl, .nil⟩
  | cons group rest ih =>
    rw [List.mapM_cons]
    refine (emits_sweep wallet coins group.2 destination group.1).bind
      (N := fun record _ r added => match r with
        | .ok records => ∃ others, records = record :: others ∧
            SweepsLog coins rest.length (.ok others) added
        | .error error => SweepsLog coins rest.length (.error error) added)
      (fun record => ?_) ?_ ?_
    · refine ih.bind (fun others => .pure (Q := fun _ r added => r = .ok (record :: others) ∧
        added = []) fun _ => ⟨rfl, rfl⟩) ?_ ?_
      · rintro old error added hadded
        exact hadded
      · rintro old others added r added' hadded ⟨rfl, rfl⟩
        exact ⟨others, rfl, by rwa [List.append_nil]⟩
    · rintro old error added ⟨hrefused, hcount⟩
      exact ⟨hrefused, by simp; omega⟩
    · rintro old record added (error | records) added' ⟨txinfo, rfl, hrecord⟩ hrest
      · obtain ⟨hrefused, hcount⟩ := hrest
        exact ⟨by simp [hrefused], by simpa using hcount⟩
      · obtain ⟨others, rfl, txinfos, rfl, hlength, hall⟩ := hrest
        exact ⟨txinfo :: txinfos, rfl, by simp [hlength], .cons ⟨_, hrecord⟩ hall⟩

/-- The selection leaves the log as it is, and it is one mixdepth for a value. -/
def SelectLog (value : Option Int) :
    Except PyError (Groups Int JoinMarketCoin) → List WalletEntry → Prop
  | .ok groups, added => added = [] ∧ (value.isSome → groups.length = 1)
  | .error _, added => added = []

theorem emits_select {unspent : Option (Unspent (JmWorld σ))}
    (hunspent : ∀ isUnspent ∈ unspent, ∀ txid index, Keeps World.Quiet (isUnspent txid index))
    (coins : List JoinMarketCoin) (value : Option Int) :
    Emits World.log ((wallet.logged clock).select coins value unspent)
      fun _ => SelectLog value := by
  have hmixed : ∀ coinjoins coin, Keeps World.Quiet (isMixed coinjoins unspent coin) := by
    intro coinjoins coin
    refine .ite _ ?_ (.pure false)
    cases unspent with
    | none => exact .pure true
    | some isUnspent => exact hunspent isUnspent rfl _ _
  refine Emits.bind_silent (World.sameLog_of_quiet (World.keeps_call _)) (fun _ _ => rfl)
    fun coinjoins => ?_
  refine Emits.bind_silent (World.sameLog_of_quiet (.selectM (hmixed coinjoins) coins))
    (fun _ _ => rfl) fun mixed => ?_
  cases value with
  | none =>
    simp only
    split
    · exact .throw fun _ => rfl
    · exact .pure fun _ => ⟨rfl, by simp⟩
  | some value =>
    simp only
    split
    · exact .pure fun _ => ⟨rfl, by simp⟩
    · exact .throw fun _ => rfl

/-- The transaction and the coins of the listing that it paid out are in the result. -/
structure Accounts (result : SentSweeps) (coins : List JoinMarketCoin) (txinfo : TransactionInfo) :
    Prop where
  txid : txinfo.txid ∈ result.txids
  coins : ∀ coin ∈ coins, coin.utxo ∈ txinfo.inputs →
    ∃ swept ∈ result.coins, (⟨swept.txid, swept.index⟩ : Outpoint) = coin.utxo

/-- Entries of an attempt before its transactions. -/
def Idle (entries : List WalletEntry) : Prop := sweptOf entries = [] ∧ .refused ∉ entries

/-- The transactions of an attempt.  A result accounts for all of them by the last listing; an
attempt that raises made none of them or was refused something. -/
def SendLog {α : Type} (value : Option Int) (result : α → SentSweeps) :
    Except PyError α → List WalletEntry → Prop
  | .ok a, added => ∃ (before : List WalletEntry) (coins : List JoinMarketCoin)
      (txinfos : List TransactionInfo), Idle before ∧
      added = before ++ .listed coins :: txinfos.map .swept ∧
      (∀ txinfo ∈ txinfos, Accounts (result a) coins txinfo) ∧
      (value.isSome → txinfos.length = 1)
  | .error _, added => (sweptOf added = [] ∨ .refused ∈ added) ∧
      (value.isSome → (sweptOf added).length ≤ 1)

theorem SendLog.of_idle {α : Type} {value : Option Int} {result : α → SentSweeps}
    {entries : List WalletEntry} (h : Idle entries) (error : PyError) :
    SendLog value result (.error error) entries := by
  refine ⟨.inl h.1, fun _ => ?_⟩
  rw [h.1]
  simp

theorem SendLog.prepend {α : Type} {value : Option Int} {result : α → SentSweeps}
    {r : Except PyError α} {entries added : List WalletEntry} (h : Idle entries)
    (hadded : SendLog value result r added) : SendLog value result r (entries ++ added) := by
  cases r with
  | error error =>
    obtain ⟨hswept, hcount⟩ := hadded
    simp only [SendLog, sweptOf_append, h.1, List.nil_append, List.mem_append]
    exact ⟨hswept.imp id .inr, hcount⟩
  | ok a =>
    obtain ⟨before, coins, txinfos, hbefore, rfl, hall, hone⟩ := hadded
    refine ⟨entries ++ before, coins, txinfos, ⟨?_, ?_⟩, by simp, hall, hone⟩
    · rw [sweptOf_append, h.1, hbefore.1, List.nil_append]
    · simp [h.2, hbefore.2]

theorem accounts_of_describes {coins : List JoinMarketCoin} {txinfos : List TransactionInfo}
    {records : List Sweep} (h : List.Forall₂ (Describes coins) txinfos records)
    {result : SentSweeps} (htxids : result.txids = records.map Sweep.txid)
    (hcoins : result.coins = records.flatMap Sweep.coins) {txinfo : TransactionInfo}
    (htxinfo : txinfo ∈ txinfos) : Accounts result coins txinfo := by
  obtain ⟨record, hrecord, mixdepth, rfl⟩ := forall₂_mem h htxinfo
  constructor
  · rw [htxids]
    exact List.mem_map_of_mem (f := Sweep.txid) hrecord
  · intro coin hcoin hinput
    have hswept : coin ∈ coins.filter fun coin => decide (coin.utxo ∈ txinfo.inputs) := by
      simp [hcoin, hinput]
    rw [hcoins]
    exact ⟨_, List.mem_flatMap.mpr ⟨_, hrecord, List.mem_map_of_mem hswept⟩, rfl⟩

theorem lastListing_append_listed (before : List WalletEntry) (coins : List JoinMarketCoin)
    (txinfos : List TransactionInfo) :
    lastListing (before ++ .listed coins :: txinfos.map .swept) = coins := by
  have hnone : (txinfos.map WalletEntry.swept).filterMap (fun
      | .listed coins => some coins
      | _ => none) = [] := by
    induction txinfos with
    | nil => rfl
    | cons _ _ ih => exact ih
  simp [lastListing, List.filterMap_append, hnone]

theorem emits_sendMixedCoins {unspent : Option (Unspent (JmWorld σ))}
    (hunspent : ∀ isUnspent ∈ unspent, ∀ txid index, Keeps World.Quiet (isUnspent txid index))
    (destination : String) (value : Option Int) (coinSelection : String) :
    Emits World.log
      ((wallet.logged clock).sendMixedCoins destination value unspent coinSelection)
      fun _ => SendLog value id := by
  unfold sendMixedCoins
  split
  · exact .throw fun _ => ⟨.inl rfl, by simp⟩
  -- After the listing, the log has what the sweeps leave behind it.
  have hsweeps : ∀ coins groups, Emits World.log (do
      let transactions ← (wallet.logged clock).sweeps coins groups destination
      describe transactions) fun _ r added => (value.isSome → groups.length = 1) →
        SendLog value id r (.listed coins :: added) := by
    intro coins groups
    refine (emits_mapM_sweep wallet coins _ destination).bind
      (N := fun records _ r added => added = [] ∧ match r with
        | .ok result => result.txids = records.map Sweep.txid ∧
            result.coins = records.flatMap Sweep.coins
        | .error _ => records = []) (fun records => ?_) ?_ ?_
    · cases records with
      | nil => exact .throw fun _ => ⟨rfl, rfl⟩
      | cons first rest => exact .pure fun _ => ⟨rfl, rfl, rfl⟩
    · rintro old error added ⟨hrefused, hcount⟩ hone
      rw [List.length_insertionSort] at hcount
      refine ⟨.inr (List.mem_cons_of_mem _ hrefused), fun hvalue => ?_⟩
      rw [sweptOf_listed]
      exact hone hvalue ▸ hcount
    · rintro old records added (error | result) added' ⟨txinfos, rfl, hlength, hall⟩ ⟨rfl, hr⟩ hone
      · cases hr
        cases hall
        exact ⟨.inl rfl, by simp⟩
      · rw [List.append_nil]
        rw [List.length_insertionSort] at hlength
        refine ⟨[], coins, txinfos, ⟨rfl, by simp⟩, rfl, ?_, fun hvalue => ?_⟩
        · exact fun txinfo => accounts_of_describes hall hr.1 hr.2
        · rw [hlength]
          exact hone hvalue
  refine (emits_listUtxos wallet.client).bind
    (N := fun coins _ r added => SendLog value id r (.listed coins :: added)) (fun coins => ?_) ?_ ?_
  · refine (emits_select wallet hunspent coins value).bind (fun groups => hsweeps coins groups) ?_ ?_
    · rintro old error added rfl
      exact ⟨.inl rfl, by simp⟩
    · rintro old groups added r added' ⟨rfl, hone⟩ hr
      exact hr hone
  · rintro old error added rfl
    exact ⟨.inl rfl, by simp⟩
  · rintro old coins added r added' rfl hr
    exact hr

theorem emits_checkMixedCoins {unspent : Option (Unspent (JmWorld σ))}
    (hunspent : ∀ isUnspent ∈ unspent, ∀ txid index, Keeps World.Quiet (isUnspent txid index))
    (value : Option Int) :
    Emits World.log ((wallet.logged clock).checkMixedCoins value unspent)
      fun _ _ added => Idle added := by
  refine (emits_listUtxos wallet.client).bind
    (fun coins => (emits_select wallet hunspent coins value).bind
      (T := fun _ _ added => added = []) (fun groups => .pure (Q := fun _ _ added => added = [])
        fun _ => rfl) ?_ ?_) ?_ ?_
  · rintro old error added rfl
    rfl
  · rintro old groups added r added' ⟨rfl, -⟩ rfl
    rfl
  · rintro old error added rfl
    exact ⟨rfl, by simp⟩
  · rintro old coins added r added' rfl rfl
    exact ⟨rfl, by simp⟩

theorem quiet_stopLoop (deadline : Rat) (fuel : Nat) :
    Keeps World.Quiet (stopLoop clock (wallet.logged clock) deadline fuel) := by
  induction fuel with
  | zero => exact .throw _
  | succ fuel ih =>
    refine Keeps.bind (World.keeps_call _) fun state => ?_
    cases state with
    | none => exact .throw _
    | some state =>
      refine .ite _ (.pure ()) (.ite _ (.throw _) ?_)
      refine World.keeps_time.bind fun now => .ite _ (.throw _) ?_
      exact (World.keeps_sleep (by norm_num)).bind fun _ => ih

theorem quiet_stopCoinjoin : Keeps World.Quiet (stopCoinjoin clock (wallet.logged clock)) := by
  refine Keeps.bind (.ite _ (World.keeps_call _) (.pure ())) fun _ => ?_
  exact World.keeps_time.bind fun now => quiet_stopLoop wallet (now + 30) 16

/-- What an attempt of a spend leaves in the log. -/
theorem emits_payOut {n : Nat} (spend : PostmixSpend n SentSweeps) (node : FundingNode σ) :
    Emits World.log
      (payOut ((wallet.logged clock).spendingClient clock) spend (node.logged clock))
      fun _ => SendLog (if spend.all then none else spend.value) Prod.fst := by
  have hunspent : ∀ isUnspent ∈ some (node.logged (E := WalletEntry) clock).isUnspent,
      ∀ txid index, Keeps World.Quiet (isUnspent txid index) := by
    rintro isUnspent ⟨⟩ txid index
    exact World.keeps_call _
  refine (emits_checkMixedCoins wallet hunspent _).bind
    (N := fun _ _ => SendLog (if spend.all then none else spend.value) Prod.fst) (fun _ => ?_)
    (fun _ error _ hidle => .of_idle hidle error) (fun _ _ _ _ _ hidle hr => hr.prepend hidle)
  refine .bind_silent (World.sameLog_of_quiet (quiet_stopCoinjoin wallet))
    (fun _ error => .of_idle ⟨rfl, by simp⟩ error) fun _ => ?_
  refine .bind_silent (World.sameLog_of_quiet (World.keeps_call _))
    (fun _ error => .of_idle ⟨rfl, by simp⟩ error) fun destination => ?_
  refine (emits_sendMixedCoins wallet hunspent destination _ _).bind
    (fun result => .pure (Q := fun _ r added => r = .ok (result, destination) ∧ added = [])
      fun _ => ⟨rfl, rfl⟩) (fun _ _ _ hadded => hadded) ?_
  rintro old result added r added' hadded ⟨rfl, rfl⟩
  rw [List.append_nil]
  exact hadded

end Attempt

end JoinMarketPostmixWallet

end CoinjoinEmulator.Postmix
