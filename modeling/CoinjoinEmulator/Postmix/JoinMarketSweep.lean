import CoinjoinEmulator.Postmix.JoinMarket
import CoinjoinEmulator.ProofKit.Runs

/-! A JoinMarket spend moves exactly the selected coins: the sweep takes what is left unfrozen of a
mixdepth, so freezing the complement of a selection selects it. -/

namespace CoinjoinEmulator.Postmix

open ProofKit

/-- A coin after a freeze or unfreeze call. -/
def JoinMarketCoin.setFrozen (utxos : List Outpoint) (freeze : Bool) (coin : JoinMarketCoin) :
    JoinMarketCoin :=
  if coin.utxo ∈ utxos then { coin with frozen := freeze } else coin

@[simp] theorem JoinMarketCoin.utxo_setFrozen (utxos : List Outpoint) (freeze : Bool)
    (coin : JoinMarketCoin) : (coin.setFrozen utxos freeze).utxo = coin.utxo := by
  unfold setFrozen
  split <;> rfl

theorem JoinMarketCoin.frozen_setFrozen (utxos : List Outpoint) (freeze : Bool)
    (coin : JoinMarketCoin) :
    (coin.setFrozen utxos freeze).frozen = if coin.utxo ∈ utxos then freeze else coin.frozen := by
  unfold setFrozen
  split <;> rfl

/-- Freezing one coin and then others. -/
theorem JoinMarketCoin.setFrozen_setFrozen (utxo : Outpoint) (rest : List Outpoint) (freeze : Bool)
    (coin : JoinMarketCoin) :
    (coin.setFrozen [utxo] freeze).setFrozen rest freeze = coin.setFrozen (utxo :: rest) freeze := by
  by_cases h : coin.utxo = utxo <;> by_cases h' : coin.utxo ∈ rest <;> simp [setFrozen, h, h']

theorem JoinMarketCoin.map_setFrozen_nil (freeze : Bool) (coins : List JoinMarketCoin) :
    coins.map (·.setFrozen [] freeze) = coins := by
  have hid : (fun coin : JoinMarketCoin => coin.setFrozen [] freeze) = id := by
    funext coin
    simp [setFrozen]
  rw [hid, List.map_id]

/-- What a sweep of the mixdepth takes. -/
def JoinMarketCoin.sweepable (mixdepth : Int) (coin : JoinMarketCoin) : Bool :=
  coin.mixdepth = mixdepth ∧ coin.frozen = false

/-- A wallet none of whose calls fails and whose sweep spends exactly the unfrozen coins of a
mixdepth. -/
structure SweepsUnfrozen {W : Type} (wallet : JoinMarketPostmixWallet W) where
  coins : W → List JoinMarketCoin
  broadcast : W → List TransactionInfo
  coinjoins : List String
  coinjoinTxids : ∀ w, wallet.coinjoinTxids.run w = .ok coinjoins w
  listUtxos : ∀ w, wallet.client.listUtxos.run w = .ok (coins w) w
  freezeUtxo : ∀ w utxo freeze, ∃ w', (wallet.client.freezeUtxo utxo freeze).run w = .ok () w' ∧
    coins w' = (coins w).map (·.setFrozen [utxo] freeze) ∧ broadcast w' = broadcast w
  sweepMixdepth : ∀ w destination mixdepth, ∃ txinfo w',
    (wallet.client.sweepMixdepth destination mixdepth).run w = .ok txinfo w' ∧
    (∀ utxo, utxo ∈ txinfo.inputs ↔ ∃ coin ∈ coins w, coin.sweepable mixdepth ∧ coin.utxo = utxo) ∧
    coins w' = (coins w).filter (fun coin => !coin.sweepable mixdepth) ∧
    broadcast w' = broadcast w ++ [txinfo]

/-- The sum of the coins of a listing that the transaction spends. -/
def inputAmount (coins : List JoinMarketCoin) (txinfo : TransactionInfo) : Nat :=
  totalWeight JoinMarketCoin.value (coins.filter fun coin => coin.utxo ∈ txinfo.inputs)

namespace SweepsUnfrozen

variable {W : Type} {wallet : JoinMarketPostmixWallet W} (laws : SweepsUnfrozen wallet)

theorem run_forM_freezeUtxo (utxos : List Outpoint) (freeze : Bool) (w : W) :
    ∃ w', (forM utxos fun utxo => wallet.client.freezeUtxo utxo freeze).run w = .ok () w' ∧
      laws.coins w' = (laws.coins w).map (·.setFrozen utxos freeze) ∧
      laws.broadcast w' = laws.broadcast w := by
  induction utxos generalizing w with
  | nil => exact ⟨w, rfl, (JoinMarketCoin.map_setFrozen_nil freeze _).symm, rfl⟩
  | cons utxo rest ih =>
    obtain ⟨w1, hrun, hcoins, hbroadcast⟩ := laws.freezeUtxo w utxo freeze
    obtain ⟨w2, hrest, hcoins', hbroadcast'⟩ := ih w1
    simp only [List.forM_cons, EStateM.run_bind, hrun]
    refine ⟨w2, hrest, ?_, hbroadcast'.trans hbroadcast⟩
    rw [hcoins', hcoins, List.map_map]
    exact List.map_congr_left fun coin _ => coin.setFrozen_setFrozen utxo rest freeze

section Sweep

variable {coins selected : List JoinMarketCoin} {mixdepth : Int}

theorem mem_toFreeze (hnodup : (coins.map JoinMarketCoin.utxo).Nodup) {coin : JoinMarketCoin}
    (hcoin : coin ∈ coins) :
    coin.utxo ∈ JoinMarketPostmixWallet.toFreeze coins selected mixdepth ↔
      coin.sweepable mixdepth ∧ coin.utxo ∉ selected.map JoinMarketCoin.utxo := by
  unfold JoinMarketPostmixWallet.toFreeze
  constructor
  · intro h
    obtain ⟨coin', hcoin', hutxo⟩ := List.mem_map.mp h
    obtain ⟨hmem, hp⟩ := List.mem_filter.mp hcoin'
    cases List.inj_on_of_nodup_map hnodup hmem hcoin hutxo
    simp only [decide_eq_true_eq] at hp
    exact ⟨by simp [JoinMarketCoin.sweepable, hp.1, hp.2.2], hp.2.1⟩
  · rintro ⟨hsweepable, hunchosen⟩
    simp only [JoinMarketCoin.sweepable, decide_eq_true_eq] at hsweepable
    refine List.mem_map_of_mem (List.mem_filter.mpr ⟨hcoin, ?_⟩)
    simpa using ⟨hsweepable.1, by simpa using hunchosen, hsweepable.2⟩

/-- With the complement frozen, what is left to sweep of the mixdepth are the selected coins. -/
theorem sweepable_setFrozen (hnodup : (coins.map JoinMarketCoin.utxo).Nodup)
    (hselected : ∀ coin ∈ selected, coin ∈ coins ∧ coin.sweepable mixdepth) {coin : JoinMarketCoin}
    (hcoin : coin ∈ coins) :
    (coin.setFrozen (JoinMarketPostmixWallet.toFreeze coins selected mixdepth) true).sweepable
        mixdepth ↔
      coin.utxo ∈ selected.map JoinMarketCoin.utxo := by
  have hfreeze := @mem_toFreeze coins selected mixdepth hnodup coin hcoin
  unfold JoinMarketCoin.setFrozen
  split
  · rename_i h
    have hunchosen := (hfreeze.mp h).2
    simpa [JoinMarketCoin.sweepable] using hunchosen
  · rename_i h
    constructor
    · intro hsweepable
      by_contra hunchosen
      exact h (hfreeze.mpr ⟨hsweepable, hunchosen⟩)
    · intro hchosen
      obtain ⟨coin', hcoin', hutxo⟩ := List.mem_map.mp hchosen
      obtain ⟨hmem, hsweepable⟩ := hselected coin' hcoin'
      cases List.inj_on_of_nodup_map hnodup hmem hcoin hutxo
      exact hsweepable

/-- A sweep spends the selected coins, and it leaves every other coin as it was. -/
theorem run_sweep (hnodup : (coins.map JoinMarketCoin.utxo).Nodup)
    (hselected : ∀ coin ∈ selected, coin ∈ coins ∧ coin.sweepable mixdepth) {w : W}
    (hold : ∀ coin ∈ laws.coins w, coin ∈ coins)
    (hall : ∀ coin ∈ coins, coin.mixdepth = mixdepth → coin ∈ laws.coins w)
    (destination : String) :
    ∃ txinfo w', (wallet.sweep coins selected destination mixdepth).run w =
        .ok (JoinMarketPostmixWallet.sweepRecord coins mixdepth txinfo) w' ∧
      (∀ utxo, utxo ∈ txinfo.inputs ↔ utxo ∈ selected.map JoinMarketCoin.utxo) ∧
      laws.coins w' = (laws.coins w).filter (fun coin => coin.utxo ∉ txinfo.inputs) ∧
      laws.broadcast w' = laws.broadcast w ++ [txinfo] := by
  set frozen := JoinMarketPostmixWallet.toFreeze coins selected mixdepth with hfrozen
  obtain ⟨w1, hfreeze, hcoins1, hbroadcast1⟩ := laws.run_forM_freezeUtxo frozen true w
  obtain ⟨txinfo, w2, hsweep, hinputs, hcoins2, hbroadcast2⟩ :=
    laws.sweepMixdepth w1 destination mixdepth
  obtain ⟨w3, hunfreeze, hcoins3, hbroadcast3⟩ := laws.run_forM_freezeUtxo frozen false w2
  have hspent : ∀ utxo, utxo ∈ txinfo.inputs ↔ utxo ∈ selected.map JoinMarketCoin.utxo := by
    intro utxo
    rw [hinputs, hcoins1]
    constructor
    · rintro ⟨coin, hcoin, hsweepable, rfl⟩
      obtain ⟨coin', hcoin', rfl⟩ := List.mem_map.mp hcoin
      have hchosen := (sweepable_setFrozen hnodup hselected (hold coin' hcoin')).mp hsweepable
      unfold JoinMarketCoin.setFrozen
      split <;> exact hchosen
    · intro hchosen
      obtain ⟨coin, hcoin, rfl⟩ := List.mem_map.mp hchosen
      obtain ⟨hmem, hsweepable⟩ := hselected coin hcoin
      have hmixdepth : coin.mixdepth = mixdepth := by
        simp only [JoinMarketCoin.sweepable, decide_eq_true_eq] at hsweepable
        exact hsweepable.1
      refine ⟨_, List.mem_map_of_mem (hall coin hmem hmixdepth),
        (sweepable_setFrozen hnodup hselected hmem).mpr hchosen, ?_⟩
      unfold JoinMarketCoin.setFrozen
      split <;> rfl
  refine ⟨txinfo, w3, ?_, hspent, ?_, ?_⟩
  · simp only [JoinMarketPostmixWallet.sweep, EStateM.run_bind, run_tryFinally, ← hfrozen, hfreeze,
      hsweep, hunfreeze]
    rfl
  · rw [hcoins3, hcoins2, hcoins1]
    apply map_filter_map
    · intro coin hcoin hkept
      have hunchosen : coin.utxo ∉ selected.map JoinMarketCoin.utxo := by
        rw [← hspent]
        simpa using hkept
      have hsweepable := sweepable_setFrozen hnodup hselected (hold coin hcoin)
      refine ⟨by simpa [← hfrozen] using mt hsweepable.mp hunchosen, ?_⟩
      -- A frozen coin was not frozen before, so unfreezing it restores it.
      have hwas := @mem_toFreeze _ selected mixdepth hnodup coin (hold coin hcoin)
      by_cases h : coin.utxo ∈ frozen
      · have hunfrozen := (hwas.mp h).1
        simp only [JoinMarketCoin.sweepable, decide_eq_true_eq] at hunfrozen
        simp [JoinMarketCoin.setFrozen, h, ← hunfrozen.2]
      · simp [JoinMarketCoin.setFrozen, h]
    · intro coin hcoin hdropped
      have hchosen : coin.utxo ∈ selected.map JoinMarketCoin.utxo := by
        rw [← hspent]
        simpa using hdropped
      have hsweepable := (sweepable_setFrozen hnodup hselected (hold coin hcoin)).mpr hchosen
      simpa [← hfrozen] using hsweepable
  · rw [hbroadcast3, hbroadcast2, hbroadcast1]

/-- The sweeps of several mixdepths share one listing: each spends its selection. -/
theorem run_mapM_sweep (hnodup : (coins.map JoinMarketCoin.utxo).Nodup)
    {groups : Groups Int JoinMarketCoin} (hkeys : (groups.map Prod.fst).Nodup)
    (hgroups : ∀ group ∈ groups, ∀ coin ∈ group.2, coin ∈ coins ∧ coin.sweepable group.1) {w : W}
    (hold : ∀ coin ∈ laws.coins w, coin ∈ coins)
    (hall : ∀ coin ∈ coins, coin.mixdepth ∈ groups.map Prod.fst → coin ∈ laws.coins w)
    (destination : String) :
    ∃ records txinfos w',
      (groups.mapM fun group => wallet.sweep coins group.2 destination group.1).run w =
        .ok records w' ∧
      List.Forall₂ (fun group (txinfo : TransactionInfo) =>
        ∀ utxo, utxo ∈ txinfo.inputs ↔ utxo ∈ group.2.map JoinMarketCoin.utxo) groups txinfos ∧
      records.map Sweep.amountSats = txinfos.map (inputAmount coins) ∧
      laws.coins w' =
        (laws.coins w).filter (fun coin => ∀ txinfo ∈ txinfos, coin.utxo ∉ txinfo.inputs) ∧
      laws.broadcast w' = laws.broadcast w ++ txinfos := by
  induction groups generalizing w with
  | nil => exact ⟨[], [], w, rfl, .nil, rfl, by simp, by simp⟩
  | cons group rest ih =>
    obtain ⟨hnew, hrestKeys⟩ := List.nodup_cons.mp hkeys
    have hgroup := hgroups group List.mem_cons_self
    obtain ⟨txinfo, w1, hrun, hinputs, hcoins1, hbroadcast1⟩ :=
      laws.run_sweep hnodup hgroup hold
        (fun coin hcoin hmixdepth => hall coin hcoin (by simp [hmixdepth])) destination
    have hold1 : ∀ coin ∈ laws.coins w1, coin ∈ coins := by
      intro coin hcoin
      rw [hcoins1] at hcoin
      exact hold coin (List.mem_of_mem_filter hcoin)
    -- A coin of a later mixdepth is no input of this sweep.
    have hall1 : ∀ coin ∈ coins, coin.mixdepth ∈ rest.map Prod.fst → coin ∈ laws.coins w1 := by
      intro coin hcoin hmixdepth
      rw [hcoins1, List.mem_filter]
      refine ⟨hall coin hcoin (List.mem_cons_of_mem _ hmixdepth), ?_⟩
      rw [decide_eq_true_eq, hinputs]
      intro hchosen
      obtain ⟨coin', hcoin', hutxo⟩ := List.mem_map.mp hchosen
      obtain ⟨hmem, hsweepable⟩ := hgroup coin' hcoin'
      cases List.inj_on_of_nodup_map hnodup hmem hcoin hutxo
      simp only [JoinMarketCoin.sweepable, decide_eq_true_eq] at hsweepable
      exact hnew (hsweepable.1 ▸ hmixdepth)
    obtain ⟨records, txinfos, w2, hrest, hspent, hamounts, hcoins2, hbroadcast2⟩ :=
      ih hrestKeys (fun group' hgroup' => hgroups group' (List.mem_cons_of_mem _ hgroup')) hold1 hall1
    refine ⟨JoinMarketPostmixWallet.sweepRecord coins group.1 txinfo :: records, txinfo :: txinfos,
      w2, ?_, .cons hinputs hspent, ?_, ?_, ?_⟩
    · simp only [List.mapM_cons, EStateM.run_bind, hrun, hrest]
      rfl
    · rw [List.map_cons, List.map_cons, hamounts]
      rfl
    · rw [hcoins2, hcoins1, List.filter_filter]
      apply List.filter_congr
      intro coin _
      simp only [List.mem_cons, forall_eq_or_imp]
      rw [Bool.decide_and, Bool.and_comm]
    · rw [hbroadcast2, hbroadcast1, List.append_assoc]
      rfl

end Sweep

/-! ### Selection -/

section Select

/-- The mixed coins of a listing, by a predicate that needs no call. -/
def mixedCoin (coinjoins : List String) (unspent : Option (String → Nat → Bool))
    (coin : JoinMarketCoin) : Bool :=
  decide (0 < coin.confirmations ∧ coin.frozen = false ∧ coin.utxo.txid ∈ coinjoins) &&
    unspent.all fun isUnspent => isUnspent coin.utxo.txid coin.utxo.index

def liftUnspent (unspent : Option (String → Nat → Bool)) : Option (Unspent W) :=
  unspent.map fun isUnspent txid index => pure (isUnspent txid index)

/-- No mixed coin is there for `none`, and no mixdepth with mixed coins covers a value. -/
def Uncovered (mixed : List JoinMarketCoin) : Option Int → Prop
  | none => mixed = []
  | some value => ∀ coin ∈ mixed,
      (totalWeight JoinMarketCoin.value
        (mixed.filter fun coin' => coin'.mixdepth = coin.mixdepth) : Int) < value

/-- What a selection has: mixed coins of each of its mixdepths, all of them for `none` and one
covering mixdepth for a value. -/
structure Selects (mixed : List JoinMarketCoin) (value : Option Int)
    (groups : Groups Int JoinMarketCoin) : Prop where
  nodup_keys : (groups.map Prod.fst).Nodup
  of_mixed : ∀ group ∈ groups, ∀ coin ∈ group.2, coin ∈ mixed ∧ coin.mixdepth = group.1
  nonempty : groups ≠ []
  all : value = none → ∀ coin ∈ mixed, ∃ group ∈ groups, coin ∈ group.2
  covers : ∀ v, value = some v → ∃ mixdepth selected, groups = [(mixdepth, selected)] ∧
    selected.Nodup ∧ v ≤ totalWeight JoinMarketCoin.value selected

theorem run_isMixed (coinjoins : List String) (unspent : Option (String → Nat → Bool))
    (coin : JoinMarketCoin) (w : W) :
    (JoinMarketPostmixWallet.isMixed coinjoins (liftUnspent unspent) coin).run w =
      .ok (mixedCoin coinjoins unspent coin) w := by
  unfold JoinMarketPostmixWallet.isMixed mixedCoin
  split
  · rename_i h
    cases unspent <;> simp [h, liftUnspent]
  · rename_i h
    simp [h]

variable {mixed : List JoinMarketCoin}

/-- The groups of a listing by mixdepth. -/
theorem exists_mem_groupBy_mixdepth {coin : JoinMarketCoin} (hcoin : coin ∈ mixed) :
    ∃ candidates, (coin.mixdepth, candidates) ∈ groupBy (fun coin => some coin.mixdepth) mixed ∧
      coin ∈ candidates := exists_mem_groupBy hcoin rfl

theorem mem_groupBy_mixdepth {mixdepth : Int} {candidates : List JoinMarketCoin}
    (h : (mixdepth, candidates) ∈ groupBy (fun coin => some coin.mixdepth) mixed) :
    candidates = mixed.filter fun coin => coin.mixdepth = mixdepth := by
  rw [mem_groupBy h]
  simp

theorem selects_all (hmixed : mixed ≠ []) :
    Selects mixed none (groupBy (fun coin => some coin.mixdepth) mixed) where
  nodup_keys := nodup_keys_groupBy _ _
  of_mixed := by
    rintro ⟨mixdepth, candidates⟩ hgroup coin hcoin
    rw [mem_groupBy_mixdepth hgroup] at hcoin
    simpa using List.mem_filter.mp hcoin
  nonempty := by
    obtain ⟨coin, hcoin⟩ := List.exists_mem_of_ne_nil _ hmixed
    obtain ⟨group, hgroup, -⟩ := exists_mem_groupBy_mixdepth hcoin
    exact List.ne_nil_of_mem hgroup
  all _ coin hcoin := by
    obtain ⟨group, hgroup, hmem⟩ := exists_mem_groupBy_mixdepth hcoin
    exact ⟨_, hgroup, hmem⟩
  covers := by simp

theorem mem_covering_iff {groups : Groups Int JoinMarketCoin} {value : Int} {total : Nat}
    {mixdepth : Int} {selected : List JoinMarketCoin} :
    (total, mixdepth, selected) ∈ JoinMarketPostmixWallet.covering groups value ↔
      ∃ candidates, (mixdepth, candidates) ∈ groups ∧ value ≤ total ∧
        cover JoinMarketCoin.value candidates value = (selected, total) := by
  simp only [JoinMarketPostmixWallet.covering, List.mem_filterMap, Prod.exists,
    Option.ite_none_right_eq_some, Option.some.injEq, Prod.mk.injEq]
  constructor
  · rintro ⟨mixdepth', candidates, hgroup, hvalue, htotal, rfl, hselected⟩
    exact ⟨candidates, hgroup, htotal ▸ hvalue, Prod.ext hselected htotal⟩
  · rintro ⟨candidates, hgroup, hvalue, hcover⟩
    refine ⟨mixdepth, candidates, hgroup, ?_, ?_, rfl, ?_⟩ <;> rw [hcover]
    exact hvalue

/-- What covers a value are coins of one mixdepth. -/
theorem selects_covering (hnodup : mixed.Nodup) {value : Int} {total : Nat} {mixdepth : Int}
    {selected : List JoinMarketCoin}
    (h : (total, mixdepth, selected) ∈ JoinMarketPostmixWallet.covering
      (groupBy (fun coin => some coin.mixdepth) mixed) value) :
    Selects mixed (some value) [(mixdepth, selected)] := by
  obtain ⟨candidates, hgroup, hvalue, hcover⟩ := mem_covering_iff.mp h
  have hcandidates := mem_groupBy_mixdepth hgroup
  obtain ⟨hweight, left, hperm, -⟩ :=
    cover_spec candidates value
  rw [hcover] at hweight hperm
  have hmem : ∀ coin ∈ selected, coin ∈ mixed ∧ coin.mixdepth = mixdepth := by
    intro coin hcoin
    have hcandidate := hperm.subset (List.mem_append_left left hcoin)
    rw [hcandidates] at hcandidate
    simpa using List.mem_filter.mp hcandidate
  have hdistinct : candidates.Nodup := by
    rw [hcandidates]
    exact hnodup.filter _
  refine ⟨by simp, by simpa using hmem, by simp, by simp, ?_⟩
  rintro v ⟨⟩
  exact ⟨mixdepth, selected, rfl, (hperm.nodup_iff.mpr hdistinct).of_append_left, hweight ▸ hvalue⟩

theorem covering_eq_nil_iff {value : Int} :
    JoinMarketPostmixWallet.covering (groupBy (fun coin => some coin.mixdepth) mixed) value = [] ↔
      Uncovered mixed (some value) := by
  have hgroup : ∀ coin ∈ mixed, (coin.mixdepth, mixed.filter fun coin' =>
      coin'.mixdepth = coin.mixdepth) ∈ groupBy (fun coin => some coin.mixdepth) mixed := by
    intro coin hcoin
    obtain ⟨candidates, hmem, -⟩ := exists_mem_groupBy_mixdepth hcoin
    rwa [← mem_groupBy_mixdepth hmem]
  constructor
  · intro hnil coin hcoin
    by_contra hcovered
    have hcover := (le_cover_iff _ value).mpr (not_lt.mp hcovered)
    have hmem := mem_covering_iff.mpr ⟨_, hgroup coin hcoin, hcover, rfl⟩
    rw [hnil] at hmem
    cases hmem
  · intro huncovered
    rw [List.eq_nil_iff_forall_not_mem]
    rintro ⟨total, mixdepth, selected⟩ hmem
    obtain ⟨candidates, hcandidates, hvalue, hcover⟩ := mem_covering_iff.mp hmem
    obtain ⟨coin, hcoin, hmixdepth⟩ :=
      exists_of_mem_keys_groupBy (List.mem_map_of_mem (f := Prod.fst) hcandidates)
    cases hmixdepth
    have hless := huncovered coin hcoin
    rw [← mem_groupBy_mixdepth hcandidates] at hless
    have hle := (le_cover_iff candidates value).mp
      (by rw [hcover]; exact hvalue)
    omega

/-- The selection fails if and only if the mixed coins do not cover the value. -/
theorem run_select {coins : List JoinMarketCoin} (hnodup : coins.Nodup) (value : Option Int)
    (unspent : Option (String → Nat → Bool)) (w : W) :
    let mixed := coins.filter (mixedCoin laws.coinjoins unspent)
    (Uncovered mixed value ∧
      ∃ error, (wallet.select coins value (liftUnspent unspent)).run w = .error error w) ∨
    (¬Uncovered mixed value ∧
      ∃ groups, (wallet.select coins value (liftUnspent unspent)).run w = .ok groups w ∧
        Selects mixed value groups) := by
  intro mixed
  have hmixed := run_selectM (fun coin => run_isMixed laws.coinjoins unspent coin w) coins
  simp only [JoinMarketPostmixWallet.select, EStateM.run_bind, laws.coinjoinTxids, hmixed]
  cases value with
  | none =>
    simp only [run_ite]
    by_cases h : mixed = []
    · have hnil : groupBy (fun coin : JoinMarketCoin => some coin.mixdepth) mixed = [] := by
        rw [h]
        rfl
      exact .inl ⟨h, _, by rw [if_pos hnil]; exact run_throw _ w⟩
    · have hselects := selects_all h
      refine .inr ⟨h, _, ?_, hselects⟩
      rw [if_neg hselects.nonempty]
      rfl
  | some value =>
    cases hmin : (JoinMarketPostmixWallet.covering
        (groupBy (fun coin => some coin.mixdepth) mixed) value).argmin
          fun item => toLex (item.1, item.2.1) with
    | none =>
      have huncovered := covering_eq_nil_iff.mp (List.argmin_eq_none.mp hmin)
      simp only [mixed] at hmin
      exact .inl ⟨huncovered, _, by simp only [hmin]; exact run_throw _ w⟩
    | some item =>
      obtain ⟨total, mixdepth, selected⟩ := item
      have hmem := List.argmin_mem hmin
      refine .inr ⟨?_, [(mixdepth, selected)], ?_, selects_covering (hnodup.filter _) hmem⟩
      · intro huncovered
        rw [covering_eq_nil_iff.mpr huncovered] at hmem
        cases hmem
      · simp only [mixed] at hmin
        simp only [hmin]
        rfl

end Select

/-! ### The spend -/

/-- What a spend did: its transactions spend mixed coins, each from one mixdepth; together all of
them for `none` and in one transaction enough for a value; and every other coin is as it was. -/
structure Moves (w w' : W) (mixed : List JoinMarketCoin) (value : Option Int) (result : SentSweeps)
    (txinfos : List TransactionInfo) : Prop where
  broadcast : laws.broadcast w' = laws.broadcast w ++ txinfos
  inputs : ∀ txinfo ∈ txinfos, ∃ mixdepth, ∀ input ∈ txinfo.inputs,
    ∃ coin ∈ mixed, coin.utxo = input ∧ coin.mixdepth = mixdepth
  all : value = none → ∀ coin ∈ mixed, ∃ txinfo ∈ txinfos, coin.utxo ∈ txinfo.inputs
  covers : ∀ v, value = some v →
    ∃ txinfo, txinfos = [txinfo] ∧ v ≤ inputAmount (laws.coins w) txinfo
  amount : result.amountSats = (txinfos.map (inputAmount (laws.coins w))).sum
  others : laws.coins w' =
    (laws.coins w).filter fun coin => ∀ txinfo ∈ txinfos, coin.utxo ∉ txinfo.inputs

/-- The inputs of a transaction that spends a selection sum to it. -/
theorem inputAmount_eq {coins selected : List JoinMarketCoin} {txinfo : TransactionInfo}
    (hnodup : (coins.map JoinMarketCoin.utxo).Nodup) (hselected : selected.Nodup)
    (hsub : ∀ coin ∈ selected, coin ∈ coins)
    (hinputs : ∀ utxo, utxo ∈ txinfo.inputs ↔ utxo ∈ selected.map JoinMarketCoin.utxo) :
    inputAmount coins txinfo = totalWeight JoinMarketCoin.value selected := by
  refine totalWeight_perm ((List.perm_ext_iff_of_nodup (hnodup.of_map _ |>.filter _) hselected).mpr ?_)
  intro coin
  rw [List.mem_filter, decide_eq_true_eq, hinputs, List.mem_map]
  constructor
  · rintro ⟨hcoin, coin', hcoin', hutxo⟩
    cases List.inj_on_of_nodup_map hnodup (hsub coin' hcoin') hcoin hutxo
    exact hcoin'
  · intro hcoin
    exact ⟨hsub coin hcoin, coin, hcoin, rfl⟩

/-- A spend moves exactly the selected coins, and it fails without a transaction if and only if the
mixed coins do not cover the value. -/
theorem sendMixedCoins_moves_selected (w : W)
    (hnodup : ((laws.coins w).map JoinMarketCoin.utxo).Nodup) (destination : String)
    (value : Option Int) (unspent : Option (String → Nat → Bool)) :
    let mixed := (laws.coins w).filter (mixedCoin laws.coinjoins unspent)
    match (wallet.sendMixedCoins destination value (liftUnspent unspent) "amount").run w with
    | .error _ w' => Uncovered mixed value ∧ laws.broadcast w' = laws.broadcast w ∧
        laws.coins w' = laws.coins w
    | .ok result w' => ¬Uncovered mixed value ∧
        ∃ txinfos, laws.Moves w w' mixed value result txinfos := by
  intro mixed
  rcases laws.run_select hnodup.of_map value unspent w with
    ⟨huncovered, error, hselect⟩ | ⟨hcovered, groups, hselect, hselects⟩
  · have hrun : (wallet.sendMixedCoins destination value (liftUnspent unspent) "amount").run w =
        .error error w := by
      simp only [JoinMarketPostmixWallet.sendMixedCoins, ne_eq, not_true_eq_false, if_false,
        EStateM.run_bind, laws.listUtxos, hselect]
    rw [hrun]
    exact ⟨huncovered, rfl, rfl⟩
  · have hperm : (groups.insertionSort fun group group' => group.1 ≤ group'.1).Perm groups :=
      List.perm_insertionSort _ _
    set sorted := groups.insertionSort fun group group' => group.1 ≤ group'.1 with hsorted
    have hmixed : ∀ group ∈ sorted, ∀ coin ∈ group.2, coin ∈ mixed ∧ coin.mixdepth = group.1 :=
      fun group hgroup => hselects.of_mixed group (hperm.subset hgroup)
    have hgroups : ∀ group ∈ sorted, ∀ coin ∈ group.2,
        coin ∈ laws.coins w ∧ coin.sweepable group.1 := by
      intro group hgroup coin hcoin
      obtain ⟨hmem, hmixdepth⟩ := hmixed group hgroup coin hcoin
      obtain ⟨hlisted, hp⟩ := List.mem_filter.mp hmem
      simp only [mixedCoin, Bool.and_eq_true, decide_eq_true_eq] at hp
      exact ⟨hlisted, by simp [JoinMarketCoin.sweepable, hmixdepth, hp.1.2.1]⟩
    obtain ⟨records, txinfos, w', hsweeps, hspent, hamounts, hcoins, hbroadcast⟩ :=
      laws.run_mapM_sweep hnodup ((hperm.map Prod.fst).nodup_iff.mpr hselects.nodup_keys) hgroups
        (fun _ hcoin => hcoin) (fun _ hcoin _ => hcoin) destination
    have hlength : records.length = groups.length := by
      have h := congrArg List.length hamounts
      rw [List.length_map, List.length_map, ← hspent.length_eq, hperm.length_eq] at h
      exact h
    cases records with
    | nil => exact absurd (List.length_eq_zero_iff.mp hlength.symm) hselects.nonempty
    | cons first rest =>
      have hrun : (wallet.sendMixedCoins destination value (liftUnspent unspent) "amount").run w =
          .ok { txid := first.txid, txids := (first :: rest).map Sweep.txid,
                amountSats := ((first :: rest).map Sweep.amountSats).sum,
                coins := (first :: rest).flatMap Sweep.coins } w' := by
        simp only [JoinMarketPostmixWallet.sendMixedCoins, ne_eq, not_true_eq_false, if_false,
          EStateM.run_bind, laws.listUtxos, hselect, JoinMarketPostmixWallet.sweeps, ← hsorted,
          hsweeps]
        rfl
      rw [hrun]
      refine ⟨hcovered, txinfos, hbroadcast, ?_, ?_, ?_, by rw [hamounts], hcoins⟩
      · intro txinfo htxinfo
        obtain ⟨group, hgroup, hinputs⟩ := forall₂_mem_right hspent htxinfo
        refine ⟨group.1, fun input hinput => ?_⟩
        obtain ⟨coin, hcoin, hutxo⟩ := List.mem_map.mp ((hinputs input).mp hinput)
        obtain ⟨hmem, hmixdepth⟩ := hmixed group hgroup coin hcoin
        exact ⟨coin, hmem, hutxo, hmixdepth⟩
      · intro hvalue coin hcoin
        obtain ⟨group, hgroup, hmem⟩ := hselects.all hvalue coin hcoin
        obtain ⟨txinfo, htxinfo, hinputs⟩ := forall₂_mem hspent (hperm.symm.subset hgroup)
        exact ⟨txinfo, htxinfo, (hinputs _).mpr (List.mem_map_of_mem hmem)⟩
      · intro v hvalue
        obtain ⟨mixdepth, selected, hone, hdistinct, hcovers⟩ := hselects.covers v hvalue
        have hsingle : sorted = [(mixdepth, selected)] := by rw [hsorted, hone]; rfl
        rw [hsingle] at hspent hgroups
        obtain ⟨txinfo, others, hinputs, hnone, rfl⟩ := List.forall₂_cons_left_iff.mp hspent
        cases List.forall₂_nil_left_iff.mp hnone
        refine ⟨txinfo, rfl, ?_⟩
        rw [inputAmount_eq hnodup hdistinct (fun coin hcoin =>
          (hgroups _ List.mem_cons_self coin hcoin).1) hinputs]
        exact hcovers

end SweepsUnfrozen

/-! ### A jmwalletd -/

/-- A jmwalletd with its coins, the transactions that it broadcast, and the number of freeze and
sweep calls that it got. -/
structure Jmwalletd where
  coins : List JoinMarketCoin
  broadcast : List TransactionInfo := []
  calls : Nat := 0
deriving DecidableEq, Repr

namespace Jmwalletd

/-- The freeze and sweep calls whose numbers `refuses` names are refused. -/
def answer (refuses : Nat → Bool) : EStateM PyError Jmwalletd Unit := do
  let call := (← get).calls
  modify fun daemon => { daemon with calls := call + 1 }
  if refuses call then throw (.exception "Error 409: Conflict") else pure ()

def sweptCoins (mixdepth : Int) (daemon : Jmwalletd) : TransactionInfo where
  txid := some ("sweep-" ++ toString mixdepth)
  inputs := (daemon.coins.filter (·.sweepable mixdepth)).map JoinMarketCoin.utxo

def wallet (name : String) (type : ClientType) (coinjoins : List String) (refuses : Nat → Bool) :
    JoinMarketPostmixWallet Jmwalletd where
  client := {
    name
    type
    session := pure (some { makerRunning := false, coinjoinInProcess := false })
    stopMaker := pure ()
    listUtxos := do return (← get).coins
    freezeUtxo := fun utxo freeze => do
      answer refuses
      modify fun daemon => { daemon with coins := daemon.coins.map (·.setFrozen [utxo] freeze) }
    sweepMixdepth := fun _ mixdepth => do
      answer refuses
      let txinfo := (← get).sweptCoins mixdepth
      modify fun daemon => { daemon with
        coins := daemon.coins.filter (fun coin => !coin.sweepable mixdepth)
        broadcast := daemon.broadcast ++ [txinfo] }
      return txinfo }
  coinjoinTxids := pure coinjoins

/-- A jmwalletd that refuses nothing sweeps the unfrozen coins. -/
def sweepsUnfrozen (name : String) (type : ClientType) (coinjoins : List String) :
    SweepsUnfrozen (wallet name type coinjoins fun _ => false) where
  coins := Jmwalletd.coins
  broadcast := Jmwalletd.broadcast
  coinjoins
  coinjoinTxids _ := rfl
  listUtxos _ := rfl
  freezeUtxo _ _ _ := ⟨_, rfl, rfl, rfl⟩
  sweepMixdepth daemon _ mixdepth := by
    refine ⟨_, _, rfl, fun utxo => ?_, rfl, rfl⟩
    show utxo ∈ (daemon.coins.filter (·.sweepable mixdepth)).map JoinMarketCoin.utxo ↔ _
    simp [and_assoc]

/-- Mixdepth 1 covers 200000 with a coin that is not mixed beside it; mixdepth 0 does not
cover it. -/
def twoMixdepths : Jmwalletd where
  coins := [
    { utxo := ⟨"cj1", 0⟩, value := 300000, mixdepth := 1, confirmations := 1 },
    { utxo := ⟨"fresh", 0⟩, value := 900000, mixdepth := 1, confirmations := 1 },
    { utxo := ⟨"cj2", 0⟩, value := 150000, mixdepth := 0, confirmations := 1 }]

end Jmwalletd

theorem sendMixedCoins_moves_selected_twoMixdepths :
    let laws := Jmwalletd.sweepsUnfrozen "jcs-000" .maker ["cj1", "cj2"]
    ∃ result daemon txinfos,
      ((Jmwalletd.wallet "jcs-000" .maker ["cj1", "cj2"] fun _ => false).sendMixedCoins
        "bcrt1external" (some 200000) none "amount").run Jmwalletd.twoMixdepths =
          .ok result daemon ∧
      laws.Moves Jmwalletd.twoMixdepths daemon
        (Jmwalletd.twoMixdepths.coins.filter (SweepsUnfrozen.mixedCoin ["cj1", "cj2"] none))
        (some 200000) result txinfos := by
  intro laws
  have hmoves := laws.sendMixedCoins_moves_selected Jmwalletd.twoMixdepths (by decide)
    "bcrt1external" (some 200000) none
  rw [show SweepsUnfrozen.liftUnspent none = (none : Option (Unspent Jmwalletd)) from rfl] at hmoves
  cases hrun : ((Jmwalletd.wallet "jcs-000" .maker ["cj1", "cj2"] fun _ => false).sendMixedCoins
      "bcrt1external" (some 200000) none "amount").run Jmwalletd.twoMixdepths with
  | error error daemon =>
    rw [hrun] at hmoves
    have hcovered : ¬SweepsUnfrozen.Uncovered (Jmwalletd.twoMixdepths.coins.filter
        (SweepsUnfrozen.mixedCoin ["cj1", "cj2"] none)) (some 200000) := by
      unfold SweepsUnfrozen.Uncovered
      decide
    exact absurd hmoves.1 hcovered
  | ok result daemon =>
    rw [hrun] at hmoves
    obtain ⟨txinfos, h⟩ := hmoves.2
    exact ⟨result, daemon, txinfos, rfl, h⟩

end CoinjoinEmulator.Postmix
