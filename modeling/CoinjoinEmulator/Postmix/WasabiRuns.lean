import CoinjoinEmulator.Postmix.History
import CoinjoinEmulator.Postmix.Wasabi
import Mathlib.Data.List.Pairwise

/-! Schedules of Wasabi spends over whole runs, for any answers and failures of the wallets and of
the node: what is paid, when it is attempted and which coins are spent. -/

namespace CoinjoinEmulator.Postmix

open ProofKit

/-- The log has the inputs of every transaction that was broadcast. -/
abbrev WasabiWorld (σ : Type) := World σ (List Outpoint)

section Logged

variable {σ : Type} (clock : Clock σ)

/-- The client on the world with the log.  A `send` that raises paid nothing. -/
def WasabiClient.logged (client : WasabiClient σ) : WasabiClient (WasabiWorld σ) where
  name := client.name
  version := client.version
  listUnspentCoins := World.call clock client.listUnspentCoins
  coinjoinStatus := World.call clock client.coinjoinStatus
  stopCoinjoin := World.call clock client.stopCoinjoin
  rpcSend request := do
    let txid ← World.call clock (client.rpcSend request)
    World.note request.coins
    return txid

/-- The node on the world with the log.  It knows every broadcast transaction. -/
def FundingNode.remembering (node : FundingNode σ) : FundingNode (WasabiWorld σ) where
  getNewAddress := World.call clock node.getNewAddress
  isUnspent txid index := do
    let answer ← World.call clock (node.isUnspent txid index)
    let w ← get
    return answer && decide (⟨txid, index⟩ ∉ w.log.flatten)

end Logged

/-- The coins that the description of a transaction names. -/
def SentCoins.inputs (sent : SentCoins) : List Outpoint := sent.coins.map SentCoin.outpoint

/-- An attempt that is sent is one transaction of coins that no earlier one spent, and an attempt
that raises is none. -/
def PaidLog {α : Type} (result : α → SentCoins) (old : List (List Outpoint)) :
    Except PyError α → List (List Outpoint) → Prop
  | .ok a, added => added = [(result a).inputs] ∧ ∀ input ∈ (result a).inputs, input ∉ old.flatten
  | .error _, added => added = []

/-! ### The calls of an attempt -/

section Calls

variable {σ : Type} {clock : Clock σ}

theorem keeps_remembering (node : FundingNode σ) (txid : String) (index : Nat) :
    Keeps World.Quiet ((node.remembering clock).isUnspent txid index) :=
  (World.keeps_call _).bind fun _ => Keeps.get.bind fun _ => .pure _

/-- An output that the node answers for is not an input of an earlier transaction. -/
theorem reads_remembering (node : FundingNode σ) (txid : String) (index : Nat) :
    Reads World.log ((node.remembering clock).isUnspent txid index) fun old unspent =>
      unspent = true → ⟨txid, index⟩ ∉ old.flatten := by
  intro w
  refine ⟨World.sameLog_of_quiet (keeps_remembering node txid index) w, fun unspent hrun => ?_⟩
  have hcall := (@World.keeps_call σ (List Outpoint) clock _
    (node.isUnspent txid index) w).log
  simp only [FundingNode.remembering, EStateM.run_bind, EStateM.run_get, EStateM.run_pure] at hrun
  cases hanswer : (World.call clock (node.isUnspent txid index)).run w with
  | error error w' =>
    rw [hanswer] at hrun
    cases hrun
  | ok answer w' =>
    rw [stateAfter_of_ok hanswer] at hcall
    rw [hanswer] at hrun
    simp only [outcome, Except.ok.injEq] at hrun
    rw [← hrun, hcall]
    intro hunspent
    simpa using (Bool.and_eq_true_iff.mp hunspent).2

end Calls

namespace WasabiClient

section Attempt

variable {σ : Type} {clock : Clock σ} (client : WasabiClient σ) (node : FundingNode σ)

theorem reads_isCandidate (minAnonScore : Option Rat) (coin : WasabiCoin) :
    Reads World.log (isCandidate minAnonScore (some (node.remembering clock).isUnspent) coin)
      fun old kept => kept = true → coin.outpoint ∉ old.flatten :=
  Reads.ite _ (fun _ => reads_remembering node coin.txid coin.index)
    (fun _ => .pure fun _ hkept => nomatch hkept)

theorem mem_of_mem_sortByScore {candidates : List WasabiCoin} {coin : WasabiCoin}
    (h : coin ∈ sortByScore candidates) : coin ∈ candidates :=
  (List.perm_insertionSort _ candidates).subset h

theorem mem_of_mem_selectCoinsByAnonScore {value : Int} {candidates selected : List WasabiCoin}
    {total : Nat} {coin : WasabiCoin}
    (h : coin ∈ (selectCoinsByAnonScore value candidates selected total).1) :
    coin ∈ selected ∨ coin ∈ candidates := by
  induction candidates generalizing selected total with
  | nil => exact .inl h
  | cons first rest ih =>
    simp only [selectCoinsByAnonScore] at h
    split at h
    · exact .inl h
    · rcases ih h with hselected | hrest
      · rcases List.mem_append.mp hselected with hold | hfirst
        · exact .inl hold
        · rw [List.mem_singleton.mp hfirst]
          exact .inr List.mem_cons_self
      · exact .inr (List.mem_cons_of_mem _ hrest)

/-- Only candidates are selected. -/
theorem mem_of_mem_selectFrom {candidates selected : List WasabiCoin} {value : Option Int}
    {coinSelection : String} {total : Nat}
    (h : selectFrom candidates value coinSelection = .ok (selected, total)) {coin : WasabiCoin}
    (hcoin : coin ∈ selected) : coin ∈ candidates := by
  cases value with
  | none =>
    cases h
    exact hcoin
  | some value =>
    simp only [selectFrom] at h
    split at h
    · have hselected : (cover WasabiCoin.amount candidates value).1 = selected :=
        congrArg Prod.fst (Except.ok.inj h)
      rw [← hselected] at hcoin
      exact mem_of_mem_cover hcoin
    · split at h
      · have hselected : (selectCoinsByAnonScore value candidates [] 0).1 = selected :=
          congrArg Prod.fst (Except.ok.inj h)
        rw [← hselected] at hcoin
        exact (mem_of_mem_selectCoinsByAnonScore hcoin).resolve_left (by simp)
      · cases h

/-- The selected coins are no inputs of earlier transactions. -/
theorem reads_selectMixedCoins (value : Option Int) (minAnonScore : Option Rat)
    (coinSelection : String) :
    Reads World.log ((client.logged clock).selectMixedCoins value minAnonScore
        (some (node.remembering clock).isUnspent) coinSelection)
      fun old selection => ∀ coin ∈ selection.1, coin.outpoint ∉ old.flatten := by
  refine (Reads.of_keeps (World.sameLog_of_quiet (World.keeps_call _))).bind fun coins => ?_
  refine (Reads.selectM (reads_isCandidate node minAnonScore) coins).bind fun candidates => ?_
  refine Reads.ite _ (fun _ => .throw) fun _ => ?_
  cases hselect : selectFrom (sortByScore candidates) value coinSelection with
  | error error => exact .throw
  | ok selection =>
    obtain ⟨selected, total⟩ := selection
    refine Reads.ite _ (fun _ => .throw) fun _ => .pure ?_
    intro old hcandidates _ coin hcoin
    exact hcandidates coin (mem_of_mem_sortByScore (mem_of_mem_selectFrom hselect hcoin))

/-! ### The settlement -/

variable {client node}

theorem keeps_checkCoins (deadline : Rat) (coins : List WasabiCoin) :
    Keeps World.Quiet
      (checkCoins clock (node.remembering clock).isUnspent deadline coins) := by
  induction coins with
  | nil => exact .pure none
  | cons coin rest ih =>
    refine World.keeps_time.bind fun now => .ite _ (.pure _) ?_
    exact (keeps_remembering node coin.txid coin.index).bind fun _ => .ite _ ih (.pure _)

theorem keeps_unsettled (deadline : Rat) :
    Keeps World.Quiet
      (unsettled clock (client.logged clock) (node.remembering clock).isUnspent deadline) := by
  refine (World.keeps_call _).bind fun status => .ite _ (.pure _) ?_
  exact (World.keeps_call _).bind fun coins => .ite _ (.pure _) (keeps_checkCoins deadline coins)

theorem keeps_settleLoop (deadline : Rat) (reason : String) (fuel : Nat) :
    Keeps World.Quiet (settleLoop clock (client.logged clock) (node.remembering clock).isUnspent
      deadline reason fuel) := by
  induction fuel generalizing reason with
  | zero => exact .throw _
  | succ fuel ih =>
    refine World.keeps_time.bind fun now => .ite _ ?_ (.throw _)
    refine (keeps_unsettled deadline).bind fun unsettled => ?_
    cases unsettled with
    | none => exact .pure ()
    | some reason => exact (World.keeps_sleep (by norm_num)).bind fun _ => ih reason

theorem keeps_settle (value : Option Int) :
    Keeps World.Quiet (settle clock (client.logged clock) value
      (some (node.remembering clock).isUnspent)) := by
  cases value with
  | none => exact .ite _ (.pure ()) (World.keeps_time.bind fun _ => keeps_settleLoop _ _ _)
  | some value => exact .pure ()

theorem keeps_selectMixedCoins (value : Option Int) (minAnonScore : Option Rat)
    (coinSelection : String) :
    Keeps World.Quiet ((client.logged clock).selectMixedCoins value minAnonScore
      (some (node.remembering clock).isUnspent) coinSelection) := by
  refine (World.keeps_call _).bind fun coins => Keeps.bind (.selectM (fun coin => ?_) coins) ?_
  · exact .ite _ (keeps_remembering node coin.txid coin.index) (.pure false)
  · intro candidates
    refine .ite _ (.throw _) (Keeps.bind (.ofExcept _) fun selection => ?_)
    exact .ite _ (.throw _) (.pure _)

/-! ### The spend -/

theorem keeps_rpcSend (request : SendRequest) :
    Keeps World.Later ((client.logged clock).rpcSend request) :=
  (World.later_of_quiet (World.keeps_call _)).bind fun _ =>
    (World.later_note request.coins).bind fun _ => .pure _

theorem emits_rpcSend (request : SendRequest) :
    Emits World.log ((client.logged clock).rpcSend request) fun _ r added =>
      (r.isOk → added = [request.coins]) ∧ (¬r.isOk → added = []) := by
  refine Emits.bind_silent (World.sameLog_of_quiet (World.keeps_call _))
    (fun _ _ => ⟨nofun, fun _ => rfl⟩) fun txid => ?_
  refine World.emits_note (T := fun r added =>
    (r.isOk → added = [request.coins]) ∧ (¬r.isOk → added = [])) (.pure fun _ => ⟨fun _ => rfl, ?_⟩)
  intro hfailed
  exact absurd rfl hfailed

theorem keeps_sendMixedCoins (destination : String) (value : Option Int)
    (minAnonScore : Option Rat) (coinSelection : String) :
    Keeps World.Later (sendMixedCoins clock (client.logged clock) destination value minAnonScore
      (some (node.remembering clock).isUnspent) coinSelection) := by
  refine (World.later_of_quiet (keeps_settle value)).bind fun _ => ?_
  refine (World.later_of_quiet (keeps_selectMixedCoins value minAnonScore coinSelection)).bind
    fun selection => ?_
  exact (keeps_rpcSend _).bind fun _ => .pure _

theorem emits_sendMixedCoins (destination : String) (value : Option Int)
    (minAnonScore : Option Rat) (coinSelection : String) :
    Emits World.log (sendMixedCoins clock (client.logged clock) destination value minAnonScore
      (some (node.remembering clock).isUnspent) coinSelection) (PaidLog id) := by
  refine Emits.bind_silent (World.sameLog_of_quiet (keeps_settle value)) (fun _ _ => rfl) fun _ => ?_
  refine (reads_selectMixedCoins client node value minAnonScore coinSelection).bind_emits
    (fun _ _ => rfl) fun selection => ?_
  obtain ⟨selected, total⟩ := selection
  refine (emits_rpcSend _).bind (fun txid => .pure (Q := fun _ r added =>
    r = .ok (SentCoins.mk txid total (selected.map fun coin =>
      ⟨coin.txid, coin.index, coin.amount, coin.anonymityScore⟩)) ∧ added = [])
    fun _ => ⟨rfl, rfl⟩) ?_ ?_
  · intro old error added hadded _
    exact hadded.2 (by simp [Except.isOk, Except.toBool])
  · rintro old txid added r added' hadded ⟨rfl, rfl⟩ hunspent
    have hsent := hadded.1 rfl
    rw [List.append_nil, hsent]
    simp only [PaidLog, SentCoins.inputs, id, List.map_map]
    refine ⟨rfl, ?_⟩
    intro input hinput
    obtain ⟨coin, hcoin, rfl⟩ := List.mem_map.mp hinput
    exact hunspent coin hcoin

end Attempt

end WasabiClient

section Runs

variable {σ : Type} {n : Nat}

/-- A turn of a schedule of Wasabi spends. -/
abbrev WasabiTurn (σ : Type) (n : Nat) := Turn σ (List Outpoint) SentCoins n

/-- The clients as the schedule calls them. -/
def wasabiClients (clock : Clock σ) (clients : Fin n → WasabiClient σ) (index : Fin n) :
    SpendingClient (WasabiWorld σ) SentCoins :=
  ((clients index).logged clock).spendingClient clock

variable {clock : Clock σ} {clients : Fin n → WasabiClient σ} {node : FundingNode σ}

/-! ### Attempts -/

theorem later_wasabiPayOut (spend : PostmixSpend n SentCoins) :
    Keeps World.Later (payOut (wasabiClients clock clients spend.walletIndex) spend
      (node.remembering clock)) := by
  have hcheck := @WasabiClient.keeps_selectMixedCoins σ clock
    (clients spend.walletIndex) node (if spend.all then none else spend.value)
    spend.minAnonScore "anon_score"
  refine (World.later_of_quiet (hcheck.bind fun _ => .pure _)).bind fun _ => ?_
  refine (World.later_of_quiet (World.keeps_call _)).bind fun _ => ?_
  refine (World.later_of_quiet (World.keeps_call _)).bind fun destination => ?_
  exact (WasabiClient.keeps_sendMixedCoins destination _ _ _).bind fun _ => .pure _

theorem emits_wasabiPayOut (spend : PostmixSpend n SentCoins) :
    Emits World.log (payOut (wasabiClients clock clients spend.walletIndex) spend
      (node.remembering clock)) (PaidLog Prod.fst) := by
  have hcheck := @WasabiClient.keeps_selectMixedCoins σ clock
    (clients spend.walletIndex) node (if spend.all then none else spend.value)
    spend.minAnonScore "anon_score"
  refine Emits.bind_silent (World.sameLog_of_quiet (hcheck.bind fun _ => .pure _)) (fun _ _ => rfl)
    fun _ => ?_
  refine Emits.bind_silent (World.sameLog_of_quiet (World.keeps_call _)) (fun _ _ => rfl)
    fun _ => ?_
  refine Emits.bind_silent (World.sameLog_of_quiet (World.keeps_call _)) (fun _ _ => rfl)
    fun destination => ?_
  refine (WasabiClient.emits_sendMixedCoins destination _ _ _).bind (fun result =>
    .pure (Q := fun _ r added => r = .ok (result, destination) ∧ added = []) fun _ => ⟨rfl, rfl⟩)
    (fun _ _ _ hadded => hadded) ?_
  rintro old result added r added' hsent ⟨rfl, rfl⟩
  rw [List.append_nil]
  exact hsent

theorem paid_of_outcome {t : WasabiTurn σ n}
    (h : t.Outcome clock (wasabiClients clock clients) (node.remembering clock)) :
    t.Logged fun _ => PaidLog Prod.fst := h.logged emits_wasabiPayOut

/-! ### Payments -/

/-- A spend has paid once if it is sent, the coins that its record names, and not at all
otherwise. -/
structure PaidAsRecorded (spend : PostmixSpend n SentCoins) (attempts : List (WasabiTurn σ n)) :
    Prop where
  unsent : spend.status ≠ .sent → spend.sent = none ∧ attempts.flatMap Turn.added = []
  once : (attempts.flatMap Turn.added).length ≤ 1
  recorded : ∀ sent, spend.sent = some sent → ∃ t ∈ attempts, t.added = [sent.result.inputs]

theorem PaidAsRecorded.turn {t : WasabiTurn σ n} {attempts : List (WasabiTurn σ n)}
    (h : PaidAsRecorded t.spend attempts)
    (houtcome : t.Outcome clock (wasabiClients clock clients) (node.remembering clock)) :
    PaidAsRecorded t.spend' (attempts ++ [t]) := by
  have happend : (attempts ++ [t]).flatMap Turn.added = attempts.flatMap Turn.added ++ t.added := by
    simp
  have hold : ∀ sent, t.spend.sent = some sent →
      ∃ t' ∈ attempts ++ [t], t'.added = [sent.result.inputs] := by
    intro sent hsent
    obtain ⟨t', ht', hadded⟩ := h.recorded sent hsent
    exact ⟨t', List.mem_append_left _ ht', hadded⟩
  cases paid_of_outcome houtcome with
  | idle hspend hadded =>
    rw [hadded, List.append_nil] at happend
    rw [hspend]
    exact ⟨by rw [happend]; exact h.unsent, by rw [happend]; exact h.once, hold⟩
  | failed error now hunsent hspend hadded =>
    have hnone : t.added = [] := hadded
    rw [hnone, List.append_nil] at happend
    rw [hspend]
    exact ⟨fun _ => by rw [happend]; exact h.unsent hunsent, by rw [happend]; exact h.once, hold⟩
  | sent result destination hunsent hspend hpaid =>
    have hadded : t.added = [result.inputs] := hpaid.1
    rw [(h.unsent hunsent).2, List.nil_append] at happend
    rw [hspend]
    refine ⟨fun hstatus => absurd rfl hstatus, by rw [happend, hadded]; simp, ?_⟩
    intro sent hsent
    cases hsent
    exact ⟨t, by simp, hadded⟩

theorem Reach.paidAsRecorded {postmixSpends : Fin n → List PostmixSpendConfig}
    {w : WasabiWorld σ} {spends : List (PostmixSpend n SentCoins)} {history : List (WasabiTurn σ n)}
    (h : Reach clock (wasabiClients clock clients) (node.remembering clock) postmixSpends w spends
      history) {i : Nat} {spend : PostmixSpend n SentCoins} (hi : spends[i]? = some spend) :
    PaidAsRecorded spend (history.filter fun t => t.index = i) :=
  h.spend_invariant (fun _ _ _ => ⟨fun _ => ⟨rfl, rfl⟩, by simp, nofun⟩)
    (fun _ _ hspend houtcome => hspend.turn houtcome) hi

/-! ### Coins -/

/-- A later turn spends nothing that an earlier one spent. -/
theorem disjoint_of_later {t t' : WasabiTurn σ n}
    (houtcome' : t'.Outcome clock (wasabiClients clock clients) (node.remembering clock))
    (h : t.world'.log <+: t'.world.log) {coins coins' : List Outpoint} (hcoins : coins ∈ t.added)
    (hcoins' : coins' ∈ t'.added) : coins.Disjoint coins' := by
  have hbefore : coins ∈ t'.world.log := h.subset (List.mem_of_mem_drop hcoins)
  have hfresh : ∀ input ∈ coins', input ∉ t'.world.log.flatten := by
    cases paid_of_outcome houtcome' with
    | idle _ hadded =>
      rw [hadded] at hcoins'
      cases hcoins'
    | failed _ _ _ _ hadded =>
      have hnone : t'.added = [] := hadded
      rw [hnone] at hcoins'
      cases hcoins'
    | sent _ _ _ _ hpaid =>
      obtain ⟨hadded, hunspent⟩ := hpaid
      rw [hadded] at hcoins'
      rw [List.mem_singleton.mp hcoins']
      exact hunspent
  intro input hinput hinput'
  exact hfresh input hinput' (List.mem_flatten.mpr ⟨coins, hbefore, hinput⟩)

theorem Reach.disjoint_added {postmixSpends : Fin n → List PostmixSpendConfig}
    {w : WasabiWorld σ} {spends : List (PostmixSpend n SentCoins)} {history : List (WasabiTurn σ n)}
    (h : Reach clock (wasabiClients clock clients) (node.remembering clock) postmixSpends w spends
      history) {t t' : WasabiTurn σ n} (ht : t ∈ history) (ht' : t' ∈ history)
    (hne : t.index ≠ t'.index) {coins coins' : List Outpoint} (hcoins : coins ∈ t.added)
    (hcoins' : coins' ∈ t'.added) : coins.Disjoint coins' := by
  have hordered : history.Pairwise fun t t' =>
      World.Later t.world' t'.world ∨ World.Later t'.world' t.world :=
    (h.chronological later_wasabiPayOut).2.imp Or.inl
  have : Std.Symm fun t t' : WasabiTurn σ n =>
      World.Later t.world' t'.world ∨ World.Later t'.world' t.world := ⟨fun _ _ => Or.symm⟩
  have houtcome := fun t ht => (h.scheduled.2 t ht).1
  rcases hordered.forall ht ht' fun heq => hne (congrArg Turn.index heq) with hlater | hlater
  · exact disjoint_of_later (houtcome t' ht') hlater.log_prefix hcoins hcoins'
  · intro input hinput hinput'
    exact disjoint_of_later (houtcome t ht) hlater.log_prefix hcoins' hcoins hinput' hinput

/-! ### Safety -/

/-- What a schedule promises of the spends that a run leads to and of the turns of the run. -/
structure Safe (clock : Clock σ) (clients : Fin n → WasabiClient σ) (node : FundingNode σ)
    (postmixSpends : Fin n → List PostmixSpendConfig) (w : WasabiWorld σ)
    (spends : List (PostmixSpend n SentCoins)) (history : List (WasabiTurn σ n)) : Prop where
  /-- A spend pays at most once, the coins of its record if it is sent and nothing otherwise. -/
  paid : ∀ i spend, spends[i]? = some spend →
    PaidAsRecorded spend (history.filter fun t => t.index = i)
  unsent : ∀ i, (history.filter fun t => t.index = i).Pairwise fun t t' =>
    t.spend'.status = .sent → ¬t'.Attempted
  delays : ∀ t ∈ history, t.Attempted →
    ∃ spend, (initialSpends (wasabiClients clock clients) postmixSpends)[t.index]? = some spend ∧
      spend.delayBlocks ≤ t.currentBlock ∧ spend.delayRounds ≤ t.currentRound
  pause : ∀ i, (history.filter fun t => t.index = i).Pairwise fun t t' =>
    t.Attempted → t.spend'.status = .failed → t'.Attempted →
      t.world'.now + postmixRetrySeconds ≤ t'.startedAt clock
  /-- A spend that is due when the next update begins is attempted in it. -/
  attempted : ∀ (currentBlock currentRound : Int) (i : Nat) (spend : PostmixSpend n SentCoins),
    spends[i]? = some spend →
    spend.DueAt currentBlock currentRound w.now →
    ∃ t : WasabiTurn σ n,
      (turns clock (wasabiClients clock clients) (node.remembering clock) currentBlock
      currentRound 0 spends w)[i]? = some t ∧ t.spend = spend ∧ t.Attempted
  disjoint : ∀ (i j : Nat) (spend spend' : PostmixSpend n SentCoins) sent sent', i ≠ j →
    spends[i]? = some spend →
    spends[j]? = some spend' → spend.sent = some sent → spend'.sent = some sent' →
    sent.result.inputs.Disjoint sent'.result.inputs

/-- A turn of a spend that does not exist is not in the history. -/
theorem filter_index_eq_nil {postmixSpends : Fin n → List PostmixSpendConfig}
    {w : WasabiWorld σ} {spends : List (PostmixSpend n SentCoins)} {history : List (WasabiTurn σ n)}
    (h : Reach clock (wasabiClients clock clients) (node.remembering clock) postmixSpends w spends
      history) {i : Nat} (hi : spends[i]? = none) :
    (history.filter fun t => t.index = i) = [] := by
  obtain ⟨hspends, hturns⟩ := h.scheduled
  rw [List.filter_eq_nil_iff]
  intro t ht hindex
  have hsome := (hturns t ht).2
  rw [decide_eq_true_iff.mp hindex, ← hspends, List.getElem?_map, hi] at hsome
  cases hsome

/-- Every run of a schedule is safe. -/
theorem wasabi_schedule_safe {postmixSpends : Fin n → List PostmixSpendConfig}
    {w : WasabiWorld σ} {spends : List (PostmixSpend n SentCoins)} {history : List (WasabiTurn σ n)}
    (h : Reach clock (wasabiClients clock clients) (node.remembering clock) postmixSpends w spends
      history) : Safe clock clients node postmixSpends w spends history where
  paid _ _ hi := h.paidAsRecorded hi
  unsent i := by
    cases hi : spends[i]? with
    | none => rw [filter_index_eq_nil h hi]; exact .nil
    | some spend => exact (h.paced later_wasabiPayOut hi).unsent
  delays t ht hattempted := by
    obtain ⟨houtcome, hscheduled⟩ := h.scheduled.2 t ht
    have hdue := houtcome.attempted_iff.mp hattempted
    exact ⟨_, hscheduled, hdue.blocks, hdue.rounds⟩
  pause i := by
    cases hi : spends[i]? with
    | none => rw [filter_index_eq_nil h hi]; exact .nil
    | some spend => exact (h.paced later_wasabiPayOut hi).pause
  attempted _ _ _ _ hi hdue := due_attempted later_wasabiPayOut hi hdue
  disjoint i j spend spend' sent sent' hne hi hj hsent hsent' := by
    obtain ⟨t, ht, hadded⟩ := (h.paidAsRecorded hi).recorded sent hsent
    obtain ⟨t', ht', hadded'⟩ := (h.paidAsRecorded hj).recorded sent' hsent'
    obtain ⟨hmem, hindex⟩ := List.mem_filter.mp ht
    obtain ⟨hmem', hindex'⟩ := List.mem_filter.mp ht'
    refine h.disjoint_added hmem hmem' ?_ (by rw [hadded]; simp) (by rw [hadded']; simp)
    rw [decide_eq_true_iff.mp hindex, decide_eq_true_iff.mp hindex']
    exact hne

end Runs

/-! ### Two spends of one wallet -/

namespace StaleWallet

/-- Every call and every look at the clock takes a minute. -/
def minutes : Clock Nat where
  elapsed _ := 60
  elapsed_nonneg _ := by norm_num
  wait sends := sends

/-- A wallet that goes on listing the coins that it sent, and whose first `send` is refused. -/
def client (_ : Fin 1) : WasabiClient Nat where
  name := "wallet-000"
  version := "2.0.4"
  listUnspentCoins := return [
    { txid := "cj1", index := 0, amount := 100000, anonymityScore := some 7, confirmed := true },
    { txid := "cj1", index := 1, amount := 100000, anonymityScore := some 5, confirmed := true },
    { txid := "fresh", index := 0, amount := 100000, anonymityScore := some 1, confirmed := true }]
  coinjoinStatus := return some "Idle"
  stopCoinjoin := pure ()
  rpcSend _ := do
    let sends ← get
    set (sends + 1)
    if sends = 0 then throw (.rpcError "bad-txns") else return some (toString sends)

def node : FundingNode Nat :=
  { getNewAddress := pure "bcrt1external", isUnspent := fun _ _ => pure true }

def postmixSpends (_ : Fin 1) : List PostmixSpendConfig :=
  [{ value := some 50000 }, { value := some 60000 }]

def scheduled : List (PostmixSpend 1 SentCoins) :=
  initialSpends (wasabiClients minutes client) postmixSpends

def firstTurns : List (WasabiTurn Nat 1) :=
  turns minutes (wasabiClients minutes client) (node.remembering minutes) 0 0 0 scheduled ⟨0, 0, []⟩

def secondTurns : List (WasabiTurn Nat 1) :=
  turns minutes (wasabiClients minutes client) (node.remembering minutes) 1 0 0
    (firstTurns.map Turn.spend')
    (stateAfter (update minutes (wasabiClients minutes client) (node.remembering minutes) 0 0
      scheduled) ⟨0, 0, []⟩)

/-- The first spend fails, the second one takes the coin that it chose, and its retry takes the
other one. -/
theorem wasabi_schedule_safe_staleWallet :
    (∃ w, Safe minutes client node postmixSpends w (secondTurns.map Turn.spend')
      (firstTurns ++ secondTurns)) ∧
    secondTurns.map (fun t =>
      (t.spend'.attempts, t.spend'.sent.map fun sent => sent.result.inputs)) =
      [(2, some [⟨"cj1", 1⟩]), (1, some [⟨"cj1", 0⟩])] := by
  have hstart : Reach minutes (wasabiClients minutes client) (node.remembering minutes) postmixSpends
      ⟨0, 0, []⟩ (initialSpends (wasabiClients minutes client) postmixSpends) [] := .start _
  have hreach := (hstart.next 0 0).next 1 0
  exact ⟨⟨_, wasabi_schedule_safe hreach⟩, by decide +kernel⟩

end StaleWallet

end CoinjoinEmulator.Postmix
