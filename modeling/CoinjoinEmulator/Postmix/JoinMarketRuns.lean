import CoinjoinEmulator.Postmix.History
import CoinjoinEmulator.Postmix.JoinMarketLog
import CoinjoinEmulator.Postmix.JoinMarketSweep

/-! The transactions of a JoinMarket spend over all its attempts: how many there are, and whether
the record of the spend accounts for them. -/

namespace CoinjoinEmulator.Postmix

open ProofKit JoinMarketPostmixWallet

variable {σ : Type} {n : Nat}

/-- A turn of a schedule of JoinMarket spends. -/
abbrev JmTurn (σ : Type) (n : Nat) := Turn σ WalletEntry SentSweeps n

namespace Turn

/-- The transactions that the turn broadcast. -/
def swept (t : JmTurn σ n) : List TransactionInfo := sweptOf t.added

/-- No freeze, unfreeze or sweep was refused in an attempt that broadcast a transaction. -/
def Unrefused (t : JmTurn σ n) : Prop := t.swept = [] ∨ .refused ∉ t.added

/-- Every sweep pays out only coins that the last listing of the attempt names. -/
def SweepsListed (t : JmTurn σ n) : Prop :=
  ∀ txinfo ∈ t.swept, ∀ input ∈ txinfo.inputs, ∃ coin ∈ lastListing t.added, coin.utxo = input

instance (t : JmTurn σ n) : Decidable t.Unrefused := inferInstanceAs (Decidable (_ ∨ _))

instance (t : JmTurn σ n) : Decidable t.SweepsListed :=
  inferInstanceAs (Decidable (∀ txinfo ∈ t.swept, ∀ input ∈ txinfo.inputs, _))

end Turn

/-- The value that the attempts of a spend ask for. -/
def PostmixSpend.requested {R : Type} (spend : PostmixSpend n R) : Option Int :=
  if spend.all then none else spend.value

section Runs

variable (clock : Clock σ) (wallets : Fin n → JoinMarketPostmixWallet σ)

/-- The wallets as the schedule calls them. -/
def joinMarketClients (index : Fin n) : SpendingClient (JmWorld σ) SentSweeps :=
  ((wallets index).logged clock).spendingClient clock

variable {clock wallets} {node : FundingNode σ}

/-- What a turn of a JoinMarket spend adds to the log. -/
theorem added_of_outcome {t : JmTurn σ n}
    (h : t.Outcome clock (joinMarketClients clock wallets) (node.logged clock)) :
    (t.added = [] ∧ t.spend' = t.spend) ∨
    (t.spend.status ≠ .sent ∧ ∃ error now, t.spend' = t.spend.failedAt error now ∧
      SendLog t.spend.requested Prod.fst
        (.error error : Except PyError (SentSweeps × String)) t.added) ∨
    (t.spend.status ≠ .sent ∧ ∃ sent, t.spend' = t.spend.sentAs sent ∧
      SendLog t.spend.requested id (.ok sent.result) t.added) := by
  have hlogged := h.logged (Q := fun spend _ => SendLog spend.requested Prod.fst)
    fun spend => emits_payOut (wallets spend.walletIndex) spend node
  cases hlogged with
  | idle hspend hadded => exact .inl ⟨hadded, hspend⟩
  | failed error now hunsent hspend hlog =>
    exact .inr (.inl ⟨hunsent, error, now, hspend, hlog⟩)
  | sent result destination hunsent hspend hlog => exact .inr (.inr ⟨hunsent, _, hspend, hlog⟩)

/-! ### Value spends -/

/-- The transactions of a spend so far. -/
def broadcasts (history : List (JmTurn σ n)) : List TransactionInfo := history.flatMap Turn.swept

/-- An unsent spend made no transaction, and a sent one made exactly one, if and only if nothing was
refused in an attempt with a transaction. -/
structure PaidOnce (spend : PostmixSpend n SentSweeps) (history : List (JmTurn σ n)) : Prop where
  unsent : spend.status ≠ .sent → (broadcasts history = [] ↔ ∀ t ∈ history, t.Unrefused)
  sent : spend.status = .sent → 1 ≤ (broadcasts history).length ∧
    ((broadcasts history).length = 1 ↔ ∀ t ∈ history, t.Unrefused)

theorem broadcasts_append (history : List (JmTurn σ n)) (t : JmTurn σ n) :
    broadcasts (history ++ [t]) = broadcasts history ++ t.swept := by
  simp [broadcasts]

theorem forall_unrefused_append (history : List (JmTurn σ n)) (t : JmTurn σ n) :
    (∀ t' ∈ history ++ [t], t'.Unrefused) ↔ (∀ t' ∈ history, t'.Unrefused) ∧ t.Unrefused := by
  simp only [List.mem_append, List.mem_singleton, or_imp, forall_and, forall_eq]

/-- A transaction of an attempt that is sent is its only one, and nothing was refused. -/
theorem swept_of_sent {t : JmTurn σ n} {value : Option Int} {result : SentSweeps}
    (h : SendLog value id (.ok result : Except PyError SentSweeps) t.added)
    (hvalue : value.isSome) : t.swept.length = 1 ∧ .refused ∉ t.added := by
  obtain ⟨before, coins, txinfos, hidle, hadded, -, hone⟩ := h
  rw [Turn.swept, hadded]
  simp only [sweptOf_append, hidle.1, sweptOf_listed, sweptOf_map_swept, List.nil_append]
  refine ⟨hone hvalue, ?_⟩
  simp [hidle.2]

theorem PaidOnce.turn {t : JmTurn σ n} {history : List (JmTurn σ n)}
    (hvalue : t.spend.requested.isSome) (h : PaidOnce t.spend history)
    (houtcome : t.Outcome clock (joinMarketClients clock wallets) (node.logged clock)) :
    PaidOnce t.spend' (history ++ [t]) := by
  rcases added_of_outcome houtcome with
    ⟨hnone, hspend⟩ | ⟨hunsent, error, now, hspend, hlog⟩ | ⟨hunsent, sent, hspend, hlog⟩
  · -- An idle turn adds nothing.
    have hswept : t.swept = [] := by rw [Turn.swept, hnone, sweptOf_nil]
    have hunrefused : t.Unrefused := .inl hswept
    constructor <;> intro hstatus <;> rw [hspend] at hstatus <;>
      rw [broadcasts_append, forall_unrefused_append, hswept, List.append_nil,
        and_iff_left hunrefused]
    · exact h.unsent hstatus
    · exact h.sent hstatus
  · constructor
    · intro _
      rw [broadcasts_append, List.append_eq_nil_iff, forall_unrefused_append, h.unsent hunsent]
      refine and_congr_right fun _ => ⟨.inl, fun hunrefused => ?_⟩
      rcases hunrefused with hswept | hrefused
      · exact hswept
      · exact hlog.1.resolve_right hrefused
    · intro hstatus
      rw [hspend] at hstatus
      cases hstatus
  · obtain ⟨hone, hunrefused⟩ := swept_of_sent hlog hvalue
    constructor
    · intro hstatus
      rw [hspend] at hstatus
      exact absurd rfl hstatus
    · intro _
      rw [broadcasts_append, List.length_append, hone, forall_unrefused_append]
      have hbefore := h.unsent hunsent
      rw [← List.length_eq_zero_iff] at hbefore
      refine ⟨by omega, ?_⟩
      rw [← hbefore]
      constructor
      · intro hlength
        exact ⟨by omega, .inr hunrefused⟩
      · rintro ⟨hzero, -⟩
        omega

theorem requested_of_outcome {t : JmTurn σ n}
    (h : t.Outcome clock (joinMarketClients clock wallets) (node.logged clock)) :
    t.spend'.requested = t.spend.requested := by
  cases h with
  | idle _ hspend _ => rw [hspend]
  | failed _ _ _ _ hspend _ => rw [hspend]; rfl
  | sent _ _ _ _ hspend => rw [hspend]; rfl

/-- The attempts of a value spend broadcast at most one transaction, and none unless the spend is
sent, if and only if nothing was refused in an attempt that broadcast one. -/
theorem value_spend_paid_once_iff {postmixSpends : Fin n → List PostmixSpendConfig}
    {w : JmWorld σ} {spends : List (PostmixSpend n SentSweeps)} {history : List (JmTurn σ n)}
    (h : Reach clock (joinMarketClients clock wallets) (node.logged clock) postmixSpends w spends
      history)
    {i : Nat} {spend : PostmixSpend n SentSweeps} (hi : spends[i]? = some spend)
    (hvalue : spend.requested.isSome) :
    let attempts := history.filter fun t => t.index = i
    ((broadcasts attempts).length ≤ 1 ∧ (broadcasts attempts ≠ [] → spend.status = .sent)) ↔
      ∀ t ∈ attempts, t.Unrefused := by
  intro attempts
  have hpaid := h.spend_invariant
    (P := fun spend history => spend.requested.isSome → PaidOnce spend history)
    (fun wallet index config _ => ⟨fun _ => by simp [broadcasts], by rintro ⟨⟩⟩)
    (fun t history hspend houtcome hsome => by
      rw [requested_of_outcome houtcome] at hsome
      exact (hspend hsome).turn hsome houtcome) hi hvalue
  by_cases hstatus : spend.status = .sent
  · obtain ⟨hpos, hone⟩ := hpaid.sent hstatus
    rw [← hone]
    constructor
    · rintro ⟨hle, -⟩
      exact Nat.le_antisymm hle hpos
    · intro heq
      exact ⟨heq.le, fun _ => hstatus⟩
  · rw [← hpaid.unsent hstatus]
    constructor
    · rintro ⟨-, hsent⟩
      by_contra hne
      exact hstatus (hsent hne)
    · intro hnil
      exact ⟨by rw [hnil]; simp, fun hne => absurd hnil hne⟩

end Runs

/-! ### Runs with one wallet -/

section OneWallet

/-- Every call and every look at the clock takes a minute. -/
def minutes : Clock Jmwalletd where
  elapsed _ := 60
  elapsed_nonneg _ := by norm_num
  wait daemon := daemon

def quietNode : FundingNode (JmWorld Jmwalletd) :=
  FundingNode.logged minutes { getNewAddress := pure "bcrt1external", isUnspent := fun _ _ => pure true }

variable (daemon : Jmwalletd) (refuses : Nat → Bool) (config : PostmixSpendConfig)

def oneWallet : Fin 1 → SpendingClient (JmWorld Jmwalletd) SentSweeps :=
  joinMarketClients minutes fun _ => Jmwalletd.wallet "jcs-000" .maker ["cj1", "cj2"] refuses

def firstTurns : List (JmTurn Jmwalletd 1) :=
  turns minutes (oneWallet refuses) quietNode 0 0 0
    (initialSpends (oneWallet refuses) fun _ => [config]) ⟨daemon, 0, []⟩

def secondTurns : List (JmTurn Jmwalletd 1) :=
  turns minutes (oneWallet refuses) quietNode 0 0 0
    ((firstTurns daemon refuses config).map Turn.spend')
    (stateAfter (update minutes (oneWallet refuses) quietNode 0 0
      (initialSpends (oneWallet refuses) fun _ => [config])) ⟨daemon, 0, []⟩)

/-- The turns of two updates. -/
def twoUpdates : List (JmTurn Jmwalletd 1) :=
  firstTurns daemon refuses config ++ secondTurns daemon refuses config

/-- The spends after two updates. -/
def twiceUpdated : List (PostmixSpend 1 SentSweeps) :=
  (secondTurns daemon refuses config).map Turn.spend'

theorem reach_twoUpdates :
    ∃ w, Reach minutes (oneWallet refuses) quietNode (fun _ => [config]) w
      (twiceUpdated daemon refuses config) (twoUpdates daemon refuses config) :=
  ⟨_, ((Reach.start ⟨daemon, 0, []⟩).next 0 0).next 0 0⟩

/-- Mixed coins in two mixdepths, and one that is not mixed. -/
def mixedTwice : Jmwalletd where
  coins := [
    { utxo := ⟨"cj1", 0⟩, value := 100000, mixdepth := 0, confirmations := 1 },
    { utxo := ⟨"fresh", 0⟩, value := 100000, mixdepth := 0, confirmations := 1 },
    { utxo := ⟨"cj2", 0⟩, value := 100000, mixdepth := 1, confirmations := 1 }]

def valueSpend : PostmixSpendConfig := { value := some 50000, coinSelection := "amount" }

def allSpend : PostmixSpendConfig := { all := true, coinSelection := "amount" }

/-- With nothing refused, a value spend is paid once over two updates. -/
theorem value_spend_paid_once_iff_unrefused :
    ∃ spend, (twiceUpdated mixedTwice (fun _ => false) valueSpend)[0]? = some spend ∧
      let attempts := (twoUpdates mixedTwice (fun _ => false) valueSpend).filter
        fun t => t.index = 0
      (((broadcasts attempts).length ≤ 1 ∧ (broadcasts attempts ≠ [] → spend.status = .sent)) ↔
        ∀ t ∈ attempts, t.Unrefused) := by
  have hrequested : (twiceUpdated mixedTwice (fun _ => false) valueSpend).map
      PostmixSpend.requested = [some 50000] := by decide +kernel
  obtain ⟨spend, hspend⟩ := List.map_eq_singleton_iff.mp hrequested
  obtain ⟨w, hreach⟩ := reach_twoUpdates mixedTwice (fun _ => false) valueSpend
  refine ⟨spend, by rw [hspend.1]; rfl, ?_⟩
  exact value_spend_paid_once_iff hreach (by rw [hspend.1]; rfl) (by rw [hspend.2]; rfl)

/-- The third freeze or sweep call, which unfreezes after the first sweep, is refused: the spend is
paid again from the other mixdepth. -/
theorem value_spend_paid_twice :
    ∃ w, Reach minutes (oneWallet fun call => call == 2) quietNode (fun _ => [valueSpend]) w
        (twiceUpdated mixedTwice (fun call => call == 2) valueSpend)
        (twoUpdates mixedTwice (fun call => call == 2) valueSpend) ∧
      (twiceUpdated mixedTwice (fun call => call == 2) valueSpend).map PostmixSpend.requested =
        [some 50000] ∧
      (broadcasts (twoUpdates mixedTwice (fun call => call == 2) valueSpend)).map
        TransactionInfo.txid = [some "sweep-0", some "sweep-1"] := by
  obtain ⟨w, hreach⟩ := reach_twoUpdates mixedTwice (fun call => call == 2) valueSpend
  refine ⟨w, hreach, ?_, ?_⟩
  · decide +kernel
  · decide +kernel

end OneWallet

section Runs

variable {clock : Clock σ} {wallets : Fin n → JoinMarketPostmixWallet σ} {node : FundingNode σ}

/-! ### The record of a spend -/

/-- The record names the transaction and every coin that it paid out. -/
def Recorded (spend : PostmixSpend n SentSweeps) (txinfo : TransactionInfo) : Prop :=
  ∃ sent, spend.record.sent = some sent ∧ txinfo.txid ∈ sent.result.txids ∧
    ∀ input ∈ txinfo.inputs, ∃ coin ∈ sent.result.coins,
      (⟨coin.txid, coin.index⟩ : Outpoint) = input

theorem recorded_of_sent {t : JmTurn σ n} {value : Option Int} {sent : Sent SentSweeps}
    (h : SendLog value id (.ok sent.result : Except PyError SentSweeps) t.added)
    (hspend : t.spend' = t.spend.sentAs sent) (hlisted : t.SweepsListed) :
    ∀ txinfo ∈ t.swept, Recorded t.spend' txinfo := by
  obtain ⟨before, coins, txinfos, hidle, hadded, haccounts, -⟩ := h
  have hswept : t.swept = txinfos := by
    rw [Turn.swept, hadded]
    simp [hidle.1]
  have hlast : lastListing t.added = coins := by
    rw [hadded, lastListing_append_listed]
  intro txinfo htxinfo
  have haccount := haccounts txinfo (hswept ▸ htxinfo)
  refine ⟨sent, by rw [hspend]; rfl, haccount.txid, fun input hinput => ?_⟩
  obtain ⟨coin, hcoin, rfl⟩ := hlisted txinfo htxinfo input hinput
  exact haccount.coins coin (hlast ▸ hcoin) hinput

/-- The record of a spend accounts for every transaction of its attempts if nothing was refused in
an attempt that broadcast one, and each sweep paid out only coins that were listed. -/
theorem record_accounts_for_broadcasts {postmixSpends : Fin n → List PostmixSpendConfig}
    {w : JmWorld σ} {spends : List (PostmixSpend n SentSweeps)} {history : List (JmTurn σ n)}
    (h : Reach clock (joinMarketClients clock wallets) (node.logged clock) postmixSpends w spends
      history)
    {i : Nat} {spend : PostmixSpend n SentSweeps} (hi : spends[i]? = some spend)
    (hunrefused : ∀ t ∈ history.filter (fun t => t.index = i), t.Unrefused ∧ t.SweepsListed) :
    ∀ txinfo ∈ broadcasts (history.filter fun t => t.index = i), Recorded spend txinfo := by
  refine (h.spend_invariant
    (P := fun spend history => (∀ t ∈ history, t.Unrefused ∧ t.SweepsListed) →
      (spend.status ≠ .sent → broadcasts history = []) ∧
      ∀ txinfo ∈ broadcasts history, Recorded spend txinfo)
    (fun wallet index config _ => ⟨fun _ => rfl, by simp [broadcasts]⟩) ?_ hi hunrefused).2
  intro t history hspend houtcome hgood
  obtain ⟨hnone, hrecorded⟩ := hspend fun t' ht' => hgood t' (List.mem_append_left _ ht')
  obtain ⟨hunrefused, hlisted⟩ := hgood t (by simp)
  rw [broadcasts_append]
  rcases added_of_outcome houtcome with
    ⟨hnothing, hsame⟩ | ⟨hunsent, error, now, hfailed, hlog⟩ | ⟨hunsent, sent, hsent, hlog⟩
  · have hswept : t.swept = [] := by rw [Turn.swept, hnothing, sweptOf_nil]
    rw [hsame, hswept, List.append_nil]
    exact ⟨hnone, hrecorded⟩
  · -- The attempt failed, so it was refused something or made no transaction.
    have hswept : t.swept = [] := hunrefused.elim id fun hrefused => hlog.1.resolve_right hrefused
    rw [hnone hunsent, hswept]
    exact ⟨fun _ => rfl, by simp⟩
  · rw [hnone hunsent, List.nil_append]
    refine ⟨fun hstatus => ?_, recorded_of_sent hlog hsent hlisted⟩
    rw [hsent] at hstatus
    exact absurd rfl hstatus

end Runs

theorem record_accounts_for_broadcasts_unrefused :
    ∃ spend, (twiceUpdated mixedTwice (fun _ => false) allSpend)[0]? = some spend ∧
      ∀ txinfo ∈ broadcasts ((twoUpdates mixedTwice (fun _ => false) allSpend).filter
        fun t => t.index = 0), Recorded spend txinfo := by
  have hall : (twiceUpdated mixedTwice (fun _ => false) allSpend).map PostmixSpend.all = [true] := by
    decide +kernel
  obtain ⟨spend, hspend, -⟩ := List.map_eq_singleton_iff.mp hall
  obtain ⟨w, hreach⟩ := reach_twoUpdates mixedTwice (fun _ => false) allSpend
  refine ⟨spend, by rw [hspend]; rfl, ?_⟩
  exact record_accounts_for_broadcasts hreach (by rw [hspend]; rfl) (by decide +kernel)

/-- The fourth freeze or sweep call, the sweep of mixdepth 1, is refused: the sweep of mixdepth 0 is
missing in the record of the spend that the next update sends. -/
theorem record_misses_first_sweep :
    ∃ w, Reach minutes (oneWallet fun call => call == 3) quietNode (fun _ => [allSpend]) w
        (twiceUpdated mixedTwice (fun call => call == 3) allSpend)
        (twoUpdates mixedTwice (fun call => call == 3) allSpend) ∧
      (broadcasts (twoUpdates mixedTwice (fun call => call == 3) allSpend)) =
        [⟨some "sweep-0", [⟨"cj1", 0⟩]⟩, ⟨some "sweep-1", [⟨"cj2", 0⟩]⟩] ∧
      (twiceUpdated mixedTwice (fun call => call == 3) allSpend).map
        (fun spend => (spend.record.status, spend.record.sent.map fun sent => sent.result)) =
        [("sent", some ⟨some "sweep-1", [some "sweep-1"], 100000, [⟨"cj2", 0, 100000, 1⟩]⟩)] := by
  obtain ⟨w, hreach⟩ := reach_twoUpdates mixedTwice (fun call => call == 3) allSpend
  refine ⟨w, hreach, ?_, ?_⟩
  · decide +kernel
  · decide +kernel

end CoinjoinEmulator.Postmix
