import CoinjoinEmulator.Postmix.JoinMarketSweep

/-! The frozen flags of a JoinMarket wallet across a sweep whose freeze, sweep and unfreeze calls
may be refused. -/

namespace CoinjoinEmulator.Postmix

open ProofKit

/-- A wallet whose freeze calls are refused as `refuses` says, for each coin and direction, and
whose sweep may be refused.  A refused call changes nothing; a sweep spends only unfrozen coins.
`unrestored` are the coins whose unfreeze requests were refused. -/
structure RefusesCleanly {W : Type} (wallet : JoinMarketPostmixWallet W) where
  coins : W → List JoinMarketCoin
  unrestored : W → List Outpoint
  refuses : Outpoint → Bool → Bool
  freezeUtxo_accepted : ∀ w utxo freeze, refuses utxo freeze = false →
    ∃ w', (wallet.client.freezeUtxo utxo freeze).run w = .ok () w' ∧
      coins w' = (coins w).map (·.setFrozen [utxo] freeze) ∧ unrestored w' = unrestored w
  freezeUtxo_refused : ∀ w utxo freeze, refuses utxo freeze = true →
    ∃ error w', (wallet.client.freezeUtxo utxo freeze).run w = .error error w' ∧
      coins w' = coins w ∧ unrestored w' = unrestored w ++ if freeze then [] else [utxo]
  sweepMixdepth : ∀ w destination mixdepth,
    (∃ error, (wallet.client.sweepMixdepth destination mixdepth).run w = .error error w) ∨
    ∃ txinfo w', (wallet.client.sweepMixdepth destination mixdepth).run w = .ok txinfo w' ∧
      (∀ coin ∈ coins w', coin ∈ coins w) ∧
      (∀ coin ∈ coins w, coin.frozen = true → coin ∈ coins w') ∧ unrestored w' = unrestored w

namespace RefusesCleanly

variable {W : Type} {wallet : JoinMarketPostmixWallet W} (laws : RefusesCleanly wallet)

/-- The coins that a loop of freeze or unfreeze calls reaches before the first refused one. -/
def reached (utxos : List Outpoint) (freeze : Bool) : List Outpoint :=
  utxos.takeWhile fun utxo => !laws.refuses utxo freeze

/-- A loop of freeze calls changes the coins before the first refused one, and ends there. -/
theorem run_forM_freezeUtxo (utxos : List Outpoint) (freeze : Bool) (w : W) :
    let after := stateAfter (forM utxos fun utxo => wallet.client.freezeUtxo utxo freeze) w
    laws.coins after = (laws.coins w).map (·.setFrozen (laws.reached utxos freeze) freeze) ∧
      laws.unrestored after = laws.unrestored w ++
        if freeze then [] else (utxos.find? fun utxo => !!laws.refuses utxo false).toList := by
  induction utxos generalizing w with
  | nil =>
    refine ⟨(JoinMarketCoin.map_setFrozen_nil freeze _).symm, ?_⟩
    simp [stateAfter, resultState]
  | cons utxo rest ih =>
    simp only [stateAfter, List.forM_cons, EStateM.run_bind] at ih ⊢
    cases hrefuses : laws.refuses utxo freeze with
    | true =>
      obtain ⟨error, w', hrun, hcoins, hunrestored⟩ :=
        laws.freezeUtxo_refused w utxo freeze hrefuses
      have hreached : laws.reached (utxo :: rest) freeze = [] := by simp [reached, hrefuses]
      rw [hrun, hreached]
      refine ⟨hcoins.trans (JoinMarketCoin.map_setFrozen_nil freeze _).symm, hunrestored.trans ?_⟩
      cases freeze with
      | true => rfl
      | false => simp [hrefuses]
    | false =>
      obtain ⟨w', hrun, hcoins, hunrestored⟩ := laws.freezeUtxo_accepted w utxo freeze hrefuses
      have hreached : laws.reached (utxo :: rest) freeze = utxo :: laws.reached rest freeze := by
        simp [reached, hrefuses]
      rw [hrun, hreached]
      obtain ⟨hcoins', hunrestored'⟩ := ih w'
      constructor
      · apply hcoins'.trans
        rw [hcoins, List.map_map]
        exact List.map_congr_left fun coin _ => coin.setFrozen_setFrozen utxo _ freeze
      · apply hunrestored'.trans
        rw [hunrestored]
        cases freeze with
        | true => rfl
        | false => simp [hrefuses]

/-- The loop that unfreezes runs on what the freeze loop and, if it ended, the sweep left. -/
theorem stateAfter_sweep (coins selected : List JoinMarketCoin) (destination : String)
    (mixdepth : Int) (w : W) :
    let frozen := JoinMarketPostmixWallet.toFreeze coins selected mixdepth
    let frozenState := stateAfter (forM frozen fun utxo => wallet.client.freezeUtxo utxo true) w
    ∃ swept, (∀ coin ∈ laws.coins swept, coin ∈ laws.coins frozenState) ∧
      (∀ coin ∈ laws.coins frozenState, coin.frozen = true → coin ∈ laws.coins swept) ∧
      laws.unrestored swept = laws.unrestored frozenState ∧
      stateAfter (wallet.sweep coins selected destination mixdepth) w =
        stateAfter (forM frozen fun utxo => wallet.client.freezeUtxo utxo false) swept := by
  intro frozen frozenState
  have hsweep : ∀ {swept : W},
      stateAfter (forM frozen (fun utxo => wallet.client.freezeUtxo utxo true) >>= fun _ =>
        wallet.client.sweepMixdepth destination mixdepth) w = swept →
      stateAfter (wallet.sweep coins selected destination mixdepth) w =
        stateAfter (forM frozen fun utxo => wallet.client.freezeUtxo utxo false) swept := by
    rintro swept rfl
    rw [JoinMarketPostmixWallet.sweep, stateAfter_bind_pure, stateAfter_tryFinally]
  cases hfreeze : (forM frozen fun utxo => wallet.client.freezeUtxo utxo true).run w with
  | error error w1 =>
    have hstate : frozenState = w1 := stateAfter_of_error hfreeze
    rw [hstate]
    refine ⟨w1, fun coin hcoin => hcoin, fun coin hcoin _ => hcoin, rfl, hsweep ?_⟩
    rw [stateAfter, EStateM.run_bind, hfreeze]
    rfl
  | ok _ w1 =>
    have hstate : frozenState = w1 := stateAfter_of_ok hfreeze
    rw [hstate]
    rcases laws.sweepMixdepth w1 destination mixdepth with ⟨error, hrun⟩ |
      ⟨txinfo, w2, hrun, hspent, hkept, hunrestored⟩
    · refine ⟨w1, fun coin hcoin => hcoin, fun coin hcoin _ => hcoin, rfl, hsweep ?_⟩
      rw [stateAfter, EStateM.run_bind, hfreeze]
      exact stateAfter_of_error hrun
    · refine ⟨w2, hspent, hkept, hunrestored, hsweep ?_⟩
      rw [stateAfter, EStateM.run_bind, hfreeze]
      exact stateAfter_of_ok hrun

/-- Every unspent coin has its flag back, unless its own unfreeze request was refused on the way. -/
def Restores (w w' : W) : Prop :=
  ∃ refused, laws.unrestored w' = laws.unrestored w ++ refused ∧
    ∀ coin ∈ laws.coins w, ∀ coin' ∈ laws.coins w', coin'.utxo = coin.utxo →
      coin.utxo ∉ refused → coin'.frozen = coin.frozen

/-- A coin after the loop that freezes the others and the one that unfreezes them. -/
def passed (frozen : List Outpoint) (coin : JoinMarketCoin) : JoinMarketCoin :=
  (coin.setFrozen (laws.reached frozen true) true).setFrozen (laws.reached frozen false) false

theorem reached_subset (frozen : List Outpoint) (freeze : Bool) :
    laws.reached frozen freeze ⊆ frozen :=
  (List.takeWhile_sublist _).subset

/-- A coin that was not frozen, or that the sweep does not freeze, has its flag back if it is
unfrozen when it was frozen. -/
theorem frozen_passed {frozen : List Outpoint} {coin : JoinMarketCoin}
    (hwas : coin.utxo ∈ frozen → coin.frozen = false) :
    (laws.passed frozen coin).frozen = coin.frozen ↔
      (coin.utxo ∈ laws.reached frozen true → coin.utxo ∈ laws.reached frozen false) := by
  simp only [passed, JoinMarketCoin.frozen_setFrozen, JoinMarketCoin.utxo_setFrozen]
  by_cases hthawed : coin.utxo ∈ laws.reached frozen false
  · simp [hthawed, hwas (laws.reached_subset frozen false hthawed)]
  · by_cases hfroze : coin.utxo ∈ laws.reached frozen true
    · simp [hthawed, hfroze, hwas (laws.reached_subset frozen true hfroze)]
    · simp [hthawed, hfroze]

section Sweep

variable {coins selected : List JoinMarketCoin} {mixdepth : Int} {w : W}

/-- What a sweep leaves: coins of before that went through both loops, among them every coin that
the sweep froze, and the first refused unfreeze request. -/
theorem coins_sweep (hall : ∀ coin ∈ coins, coin.mixdepth = mixdepth → coin ∈ laws.coins w)
    (destination : String) :
    let frozen := JoinMarketPostmixWallet.toFreeze coins selected mixdepth
    let after := stateAfter (wallet.sweep coins selected destination mixdepth) w
    (∀ coin' ∈ laws.coins after, ∃ coin ∈ laws.coins w, coin' = laws.passed frozen coin) ∧
      (∀ utxo ∈ laws.reached frozen true, ∃ coin ∈ laws.coins w, coin.utxo = utxo ∧
        laws.passed frozen coin ∈ laws.coins after) ∧
      laws.unrestored after = laws.unrestored w ++
        (frozen.find? fun utxo => !!laws.refuses utxo false).toList := by
  intro frozen after
  obtain ⟨swept, hspent, hkept, hunrestored, hstate⟩ :=
    laws.stateAfter_sweep coins selected destination mixdepth w
  obtain ⟨hcoins1, hunrestored1⟩ := laws.run_forM_freezeUtxo frozen true w
  obtain ⟨hcoins2, hunrestored2⟩ := laws.run_forM_freezeUtxo frozen false swept
  rw [← hstate] at hcoins2 hunrestored2
  rw [hcoins1] at hspent hkept
  refine ⟨fun coin' hcoin' => ?_, fun utxo hutxo => ?_, ?_⟩
  · rw [hcoins2] at hcoin'
    obtain ⟨coin1, hcoin1, rfl⟩ := List.mem_map.mp hcoin'
    obtain ⟨coin, hcoin, rfl⟩ := List.mem_map.mp (hspent coin1 hcoin1)
    exact ⟨coin, hcoin, rfl⟩
  · obtain ⟨coin, hcoin, rfl⟩ := List.mem_map.mp (laws.reached_subset frozen true hutxo)
    obtain ⟨hlisted, hp⟩ := List.mem_filter.mp hcoin
    simp only [decide_eq_true_eq] at hp
    have hold := hall coin hlisted hp.1
    refine ⟨coin, hold, rfl, ?_⟩
    rw [hcoins2]
    refine List.mem_map_of_mem (hkept _ (List.mem_map_of_mem hold) ?_)
    rw [JoinMarketCoin.frozen_setFrozen, if_pos hutxo]
  · rw [hunrestored2, hunrestored, hunrestored1]
    simp

/-- A sweep gives every coin its frozen flag back if and only if, among the coins that it gets to
freeze, none before the last has its unfreeze request refused. -/
theorem sweep_restores_iff (hnodup : (coins.map JoinMarketCoin.utxo).Nodup)
    (hlisted : ∀ coin ∈ laws.coins w, coin ∈ coins)
    (hall : ∀ coin ∈ coins, coin.mixdepth = mixdepth → coin ∈ laws.coins w)
    (destination : String) :
    laws.Restores w (stateAfter (wallet.sweep coins selected destination mixdepth) w) ↔
      ∀ utxo ∈ (laws.reached (JoinMarketPostmixWallet.toFreeze coins selected mixdepth)
        true).dropLast, laws.refuses utxo false = false := by
  obtain ⟨hafter, hfroze, hunrestored⟩ := laws.coins_sweep hall destination
  set frozen := JoinMarketPostmixWallet.toFreeze coins selected mixdepth with hfrozen
  have hnodupFrozen : frozen.Nodup := (List.filter_sublist.map _).nodup hnodup
  have hcombine := mem_takeWhile_or_find_iff (p := fun utxo => !laws.refuses utxo true)
    (q := fun utxo => !laws.refuses utxo false) hnodupFrozen
  simp only [Bool.not_eq_true'] at hcombine
  have hwas : ∀ coin ∈ laws.coins w, coin.utxo ∈ frozen → coin.frozen = false := by
    intro coin hcoin hmem
    have hsweepable := ((SweepsUnfrozen.mem_toFreeze hnodup (hlisted coin hcoin)).mp hmem).1
    simp only [JoinMarketCoin.sweepable, decide_eq_true_eq] at hsweepable
    exact hsweepable.2
  rw [reached, ← hcombine]
  constructor
  · rintro ⟨refused, hrefused, hflags⟩ utxo hutxo
    rw [hunrestored, List.append_cancel_left_eq] at hrefused
    by_cases hfind : utxo ∈ refused
    · rw [← hrefused, Option.mem_toList] at hfind
      exact .inr hfind
    · obtain ⟨coin, hcoin, rfl, hpassed⟩ := hfroze utxo hutxo
      have hflag := hflags coin hcoin _ hpassed (by simp [passed]) hfind
      exact .inl ((laws.frozen_passed (hwas coin hcoin)).mp hflag hutxo)
  · intro hrestored
    refine ⟨_, hunrestored, fun coin hcoin coin' hcoin' hutxo hrefused => ?_⟩
    obtain ⟨coin1, hcoin1, rfl⟩ := hafter coin' hcoin'
    have hsame : coin1.utxo = coin.utxo := by simpa [passed] using hutxo
    cases List.inj_on_of_nodup_map hnodup (hlisted coin1 hcoin1) (hlisted coin hcoin) hsame
    refine (laws.frozen_passed (hwas coin hcoin)).mpr fun hfroze1 => ?_
    exact (hrestored coin.utxo hfroze1).resolve_right fun hfind =>
      hrefused (Option.mem_toList.mpr hfind)

end Sweep

end RefusesCleanly

/-! ### A jmwalletd that refuses calls -/

/-- A jmwalletd with its coins, and those whose unfreeze requests it refused. -/
structure RefusingJmwalletd where
  coins : List JoinMarketCoin
  unrestored : List Outpoint := []

namespace RefusingJmwalletd

def conflict : PyError := .exception "Error 409: Conflict"

def wallet (refuses : Outpoint → Bool → Bool) (refusesSweep : Bool) :
    JoinMarketPostmixWallet RefusingJmwalletd where
  client := {
    name := "jcs-000"
    type := .maker
    session := pure (some { makerRunning := false, coinjoinInProcess := false })
    stopMaker := pure ()
    listUtxos := do return (← get).coins
    freezeUtxo := fun utxo freeze =>
      if refuses utxo freeze then do
        if freeze then pure ()
        else modify fun daemon => { daemon with unrestored := daemon.unrestored ++ [utxo] }
        throw conflict
      else
        modify fun daemon => { daemon with coins := daemon.coins.map (·.setFrozen [utxo] freeze) }
    sweepMixdepth := fun _ mixdepth =>
      if refusesSweep then throw conflict
      else do
        let swept := (← get).coins.filter (·.sweepable mixdepth)
        modify fun daemon =>
          { daemon with coins := daemon.coins.filter fun coin => !coin.sweepable mixdepth }
        return { txid := some "sweep", inputs := swept.map JoinMarketCoin.utxo } }
  coinjoinTxids := pure []

def refusesCleanly (refuses : Outpoint → Bool → Bool) (refusesSweep : Bool) :
    RefusesCleanly (wallet refuses refusesSweep) where
  coins := RefusingJmwalletd.coins
  unrestored := RefusingJmwalletd.unrestored
  refuses
  freezeUtxo_accepted w utxo freeze haccepted := by
    refine ⟨{ w with coins := w.coins.map (·.setFrozen [utxo] freeze) }, ?_, rfl, rfl⟩
    simp only [wallet, haccepted, Bool.false_eq_true, if_false]
    rfl
  freezeUtxo_refused w utxo freeze hrefused := by
    cases freeze with
    | true =>
      refine ⟨conflict, w, ?_, rfl, (List.append_nil _).symm⟩
      simp only [wallet, hrefused, if_true]
      rfl
    | false =>
      refine ⟨conflict, { w with unrestored := w.unrestored ++ [utxo] }, ?_, rfl, rfl⟩
      simp only [wallet, hrefused, if_true, Bool.false_eq_true, if_false]
      rfl
  sweepMixdepth w destination mixdepth := by
    cases refusesSweep with
    | true => exact .inl ⟨conflict, rfl⟩
    | false =>
      refine .inr ⟨_, _, rfl, fun coin hcoin => (List.mem_filter.mp hcoin).1,
        fun coin hcoin hfrozen => List.mem_filter.mpr ⟨hcoin, ?_⟩, rfl⟩
      simp [JoinMarketCoin.sweepable, hfrozen]

def coinjoinCoin : JoinMarketCoin :=
  { utxo := ⟨"cj1", 0⟩, value := 300000, mixdepth := 0, confirmations := 1 }

/-- A coinjoin output and two coins that are not mixed in mixdepth 0. -/
def threeCoins : RefusingJmwalletd where
  coins := [coinjoinCoin, { utxo := ⟨"fresh1", 0⟩, value := 900000, mixdepth := 0 },
    { utxo := ⟨"fresh2", 0⟩, value := 150000, mixdepth := 0 }]

end RefusingJmwalletd

open RefusingJmwalletd

theorem sweep_restores_iff_threeCoins :
    (refusesCleanly (fun _ _ => false) true).Restores threeCoins
      (stateAfter ((wallet (fun _ _ => false) true).sweep threeCoins.coins [coinjoinCoin]
        "bcrt1external" 0) threeCoins) :=
  ((refusesCleanly (fun _ _ => false) true).sweep_restores_iff (w := threeCoins) (by decide)
    (fun _ h => h) (fun _ h _ => h) "bcrt1external").mpr fun _ _ => rfl

/-- Only the unfreeze request of `fresh1` is refused, and `fresh2` stays frozen. -/
theorem sweep_leaves_coin_frozen :
    ¬(refusesCleanly (fun utxo freeze => utxo.txid = "fresh1" && !freeze) false).Restores threeCoins
      (stateAfter ((wallet (fun utxo freeze => utxo.txid = "fresh1" && !freeze) false).sweep
        threeCoins.coins [coinjoinCoin] "bcrt1external" 0) threeCoins) := by
  rintro ⟨refused, hrefused, hflags⟩
  have hrefused : [⟨"fresh1", 0⟩] = refused := hrefused
  subst hrefused
  have hflag := hflags { utxo := ⟨"fresh2", 0⟩, value := 150000, mixdepth := 0 } (by decide)
    { utxo := ⟨"fresh2", 0⟩, value := 150000, mixdepth := 0, frozen := true } (by decide) rfl
    (by decide)
  cases hflag

end CoinjoinEmulator.Postmix
