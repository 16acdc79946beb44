import CoinjoinEmulator.Postmix.JoinMarket
import CoinjoinEmulator.Postmix.Wasabi

/-! The coin selections of postmix spends.  The one by amount takes the fewest coins and none that
it could do without; a Wasabi wallet's check and its send cover the same values. -/

namespace CoinjoinEmulator.Postmix

open ProofKit

/-! ### By amount -/

/-- `_select_by_amount` of the JoinMarket wallet. -/
def JoinMarketPostmixWallet.selectByAmount (candidates : List JoinMarketCoin) (value : Int) :
    List JoinMarketCoin × Nat :=
  cover JoinMarketCoin.value candidates value

def WasabiClient.selectCoinsByAmount (candidates : List WasabiCoin) (value : Int) :
    List WasabiCoin × Nat :=
  cover WasabiCoin.amount candidates value

theorem JoinMarketPostmixWallet.covering_eq (byMixdepth : Groups Int JoinMarketCoin) (value : Int) :
    covering byMixdepth value = byMixdepth.filterMap fun group =>
      let selection := selectByAmount group.2 value
      if value ≤ selection.2 then some (selection.2, group.1, selection.1) else none := rfl

theorem WasabiClient.selectFrom_amount (candidates : List WasabiCoin) (value : Int) :
    selectFrom candidates (some value) "amount" = .ok (selectCoinsByAmount candidates value) := rfl

/-- What a selection by amount promises. -/
structure IsAmountSelection {α : Type} [DecidableEq α] (amount : α → Nat) (candidates : List α)
    (value : Int) (selection : List α × Nat) : Prop where
  subperm : selection.1.Subperm candidates
  total : selection.2 = totalWeight amount selection.1
  covers_iff : value ≤ selection.2 ↔ value ≤ totalWeight amount candidates
  irredundant : value ≤ selection.2 → ∀ coin ∈ selection.1,
    (totalWeight amount (selection.1.erase coin) : Int) < value
  overshoot : value ≤ selection.2 → ∀ coin ∈ selection.1, selection.2 - value < amount coin
  fewest : value ≤ selection.2 → ∀ coins : List α, coins.Subperm candidates →
    value ≤ totalWeight amount coins → selection.1.length ≤ coins.length

theorem isAmountSelection_cover {α : Type} [DecidableEq α] (amount : α → Nat)
    (candidates : List α) (value : Int) :
    IsAmountSelection amount candidates value (cover amount candidates value) where
  subperm := by
    obtain ⟨-, left, hperm, -⟩ := @cover_spec _ amount _ candidates value
    exact (List.sublist_append_left _ left).subperm.trans hperm.subperm
  total := (cover_spec candidates value).1
  covers_iff := le_cover_iff candidates value
  irredundant hcovers _ := totalWeight_erase_cover_lt hcovers
  overshoot hcovers coin hcoin := by
    have hless := totalWeight_erase_cover_lt hcovers hcoin
    have herase := @totalWeight_perm _ amount _ _ (List.perm_cons_erase hcoin)
    rw [totalWeight_cons] at herase
    rw [(@cover_spec _ amount _ candidates value).1]
    omega
  fewest hcovers _ := length_cover_le hcovers

/-- Both selections by amount, of any coins and for any value. -/
theorem selectByAmount_fewest :
    (∀ candidates value, IsAmountSelection JoinMarketCoin.value candidates value
      (JoinMarketPostmixWallet.selectByAmount candidates value)) ∧
    ∀ candidates value, IsAmountSelection WasabiCoin.amount candidates value
      (WasabiClient.selectCoinsByAmount candidates value) :=
  ⟨isAmountSelection_cover _, isAmountSelection_cover _⟩

/-! ### By anonymity score -/

namespace WasabiClient

/-- The loop takes a leading part of the candidates: all of them, or as many as it needs to cover
the value.  By induction on the candidates. -/
theorem selectCoinsByAnonScore_spec (value : Int) (candidates selected : List WasabiCoin) :
    let result := selectCoinsByAnonScore value candidates selected
      (totalWeight WasabiCoin.amount selected)
    ∃ first left, candidates = first ++ left ∧ result.1 = selected ++ first ∧
      result.2 = totalWeight WasabiCoin.amount (selected ++ first) ∧
      (value ≤ result.2 ∨ left = []) ∧
      (first ≠ [] → (totalWeight WasabiCoin.amount (selected ++ first.dropLast) : Int) < value) := by
  induction candidates generalizing selected with
  | nil => exact ⟨[], [], rfl, by simp [selectCoinsByAnonScore]⟩
  | cons coin rest ih =>
    simp only [selectCoinsByAnonScore]
    by_cases hcovers : value ≤ (totalWeight WasabiCoin.amount selected : Int)
    · rw [if_pos hcovers]
      exact ⟨[], coin :: rest, rfl, by simp, by simp, .inl hcovers, by simp⟩
    · rw [if_neg hcovers]
      have htotal : totalWeight WasabiCoin.amount selected + coin.amount =
          totalWeight WasabiCoin.amount (selected ++ [coin]) := by simp [totalWeight]
      rw [htotal]
      obtain ⟨first, left, rfl, hresult, htotal', hends, hless⟩ := ih (selected ++ [coin])
      refine ⟨coin :: first, left, rfl, by simpa using hresult, by simpa using htotal', hends,
        fun _ => ?_⟩
      cases first with
      | nil => simpa using hcovers
      | cons second first =>
        rw [List.dropLast_cons_cons]
        simpa using hless (by simp)

theorem pairwise_sortByScore (candidates : List WasabiCoin) :
    (sortByScore candidates).Pairwise fun coin coin' =>
      coin'.anonymityScore.getD 0 ≤ coin.anonymityScore.getD 0 := by
  have : Std.Total fun coin coin' : WasabiCoin =>
    coin'.anonymityScore.getD 0 ≤ coin.anonymityScore.getD 0 := ⟨fun _ _ => le_total _ _⟩
  have : IsTrans WasabiCoin fun coin coin' : WasabiCoin =>
    coin'.anonymityScore.getD 0 ≤ coin.anonymityScore.getD 0 := ⟨fun _ _ _ h h' => h'.trans h⟩
  exact List.pairwise_insertionSort _ candidates

/-! ### The check and the send -/

/-- The coins cover the value; all of them are spent when it is `none`. -/
def Covers (eligible : List WasabiCoin) : Option Int → Prop
  | none => eligible ≠ []
  | some value => value ≤ totalWeight WasabiCoin.amount eligible

/-- What a selection that was made promises about the coins that it chose from.  The most private
coins come first if it is by anonymity score. -/
structure IsSelection (eligible : List WasabiCoin) (value : Option Int) (coinSelection : String)
    (selected : List WasabiCoin) (total : Nat) (left : List WasabiCoin) : Prop where
  perm : (selected ++ left).Perm eligible
  total_eq : total = totalWeight WasabiCoin.amount selected
  mostPrivate : coinSelection = "anon_score" → ∀ coin ∈ selected, ∀ coin' ∈ left,
    coin'.anonymityScore.getD 0 ≤ coin.anonymityScore.getD 0
  needed : coinSelection = "anon_score" → ∀ v ∈ value,
    (totalWeight WasabiCoin.amount selected.dropLast : Int) < v

/-- The two selections that a scenario may name. -/
def IsCoinSelection (coinSelection : String) : Prop :=
  coinSelection = "anon_score" ∨ coinSelection = "amount"

theorem perm_sortByScore (candidates : List WasabiCoin) :
    (sortByScore candidates).Perm candidates := List.perm_insertionSort _ candidates

theorem isSelection_anonScore (eligible : List WasabiCoin) {value : Int} (hvalue : 0 < value) :
    let result := selectCoinsByAnonScore value (sortByScore eligible) [] 0
    ∃ left, IsSelection eligible (some value) "anon_score" result.1 result.2 left ∧
      (value ≤ result.2 ∨ left = []) := by
  intro result
  obtain ⟨first, left, hsplit, hfirst, htotal, hends, hless⟩ :=
    selectCoinsByAnonScore_spec value (sortByScore eligible) []
  rw [List.nil_append] at hfirst htotal
  have hfirst : result.1 = first := hfirst
  refine ⟨left, ⟨?_, by rw [hfirst]; exact htotal, fun _ => ?_, fun _ v hv => ?_⟩, hends⟩
  · rw [hfirst, ← hsplit]
    exact perm_sortByScore eligible
  · have hsorted := pairwise_sortByScore eligible
    rw [hsplit, List.pairwise_append] at hsorted
    rw [hfirst]
    exact hsorted.2.2
  · cases hv
    rw [hfirst]
    cases first with
    | nil => simpa using hvalue
    | cons coin first => exact hless (by simp)

theorem isSelection_amount (eligible : List WasabiCoin) (value : Int) :
    let result := selectCoinsByAmount (sortByScore eligible) value
    ∃ left, IsSelection eligible (some value) "amount" result.1 result.2 left ∧
      (value ≤ result.2 ∨ left = []) := by
  intro result
  obtain ⟨htotal, left, hperm, hends⟩ :=
    @cover_spec _ WasabiCoin.amount _ (sortByScore eligible) value
  exact ⟨left, ⟨hperm.trans (perm_sortByScore eligible), htotal, fun h => absurd h (by decide),
    fun h => absurd h (by decide)⟩, hends⟩

/-- A selection that ended covers a positive value exactly if all coins do, and then it is
not empty. -/
theorem IsSelection.covers_iff {eligible selected left : List WasabiCoin} {value : Int}
    {coinSelection : String} {total : Nat}
    (h : IsSelection eligible (some value) coinSelection selected total left)
    (hends : value ≤ total ∨ left = []) (hvalue : 0 < value) :
    ¬(selected = [] ∨ (some value).any fun value => (total : Int) < value) ↔
      Covers eligible (some value) := by
  have heligible := @totalWeight_perm _ WasabiCoin.amount _ _ h.perm
  rw [totalWeight_append, ← h.total_eq] at heligible
  have hempty : selected = [] → total = 0 := by
    rintro rfl
    exact h.total_eq
  have hleft : left = [] → totalWeight WasabiCoin.amount left = 0 := by
    rintro rfl
    rfl
  simp only [Option.any_some, decide_eq_true_eq, not_or, not_lt, Covers]
  constructor
  · rintro ⟨-, hcovers⟩
    omega
  · intro hcovers
    have htotal : value ≤ total := by
      obtain hends | hends := hends
      · exact hends
      · have := hleft hends
        omega
    refine ⟨fun hselected => ?_, htotal⟩
    have := hempty hselected
    omega

/-- Either selection succeeds exactly if the eligible coins cover the value. -/
theorem selectFrom_spec (eligible : List WasabiCoin) {value : Option Int} {coinSelection : String}
    (hvalue : ∀ v ∈ value, 0 < v) (hselection : IsCoinSelection coinSelection) :
    ∃ selected total left,
      selectFrom (sortByScore eligible) value coinSelection = .ok (selected, total) ∧
      IsSelection eligible value coinSelection selected total left ∧
      (¬(selected = [] ∨ value.any fun value => (total : Int) < value) ↔
        Covers eligible value) := by
  cases value with
  | none =>
    have hperm := perm_sortByScore eligible
    refine ⟨sortByScore eligible, _, [], rfl, ⟨by rwa [List.append_nil], rfl, by simp, by simp⟩, ?_⟩
    simp only [Option.any_none, Bool.false_eq_true, or_false, Covers]
    apply not_congr
    constructor
    · intro hsorted
      rw [hsorted] at hperm
      exact hperm.symm.eq_nil
    · rintro rfl
      exact hperm.eq_nil
  | some value =>
    have hpositive : 0 < value := hvalue value rfl
    obtain rfl | rfl := hselection
    · obtain ⟨left, hresult, hends⟩ := isSelection_anonScore eligible hpositive
      exact ⟨_, _, left, rfl, hresult, hresult.covers_iff hends hpositive⟩
    · obtain ⟨left, hresult, hends⟩ := isSelection_amount eligible value
      exact ⟨_, _, left, rfl, hresult, hresult.covers_iff hends hpositive⟩

variable {W : Type} (client : WasabiClient W)

/-- The client while it lists these coins. -/
def listing (coins : List WasabiCoin) : WasabiClient W := { client with listUnspentCoins := pure coins }

/-- A node that gives these answers. -/
def answering (answer : String → Nat → Bool) : Unspent W := fun txid index => pure (answer txid index)

/-- Confirmed, mixed and unspent. -/
def isEligible (minAnonScore : Option Rat) (answer : Option (String → Nat → Bool))
    (coin : WasabiCoin) : Bool :=
  coin.confirmed && isMixed minAnonScore coin && answer.all fun answer => answer coin.txid coin.index

variable {minAnonScore : Option Rat} {answer : Option (String → Nat → Bool)}

theorem run_isCandidate (coin : WasabiCoin) (s : W) :
    (isCandidate minAnonScore (answer.map answering) coin).run s =
      .ok (isEligible minAnonScore answer coin) s := by
  unfold isCandidate isEligible
  by_cases h : coin.confirmed = true ∧ isMixed minAnonScore coin = true
  · rw [if_pos h, h.1, h.2]
    cases answer <;> rfl
  · rw [if_neg h, show (coin.confirmed && isMixed minAnonScore coin) = false by simpa using h]
    rfl

/-- A mixed coin has a score. -/
theorem isSome_of_isEligible (hmin : ∀ score ∈ minAnonScore, 0 < score) {coin : WasabiCoin}
    (h : isEligible minAnonScore answer coin = true) : coin.anonymityScore.isSome = true := by
  have hmixed : isMixed minAnonScore coin = true := by
    unfold isEligible at h
    simp only [Bool.and_eq_true] at h
    exact h.1.2
  cases hscore : coin.anonymityScore with
  | some score => rfl
  | none =>
    unfold isMixed at hmixed
    rw [hscore] at hmixed
    cases minAnonScore with
    | none => exact absurd hmixed (by decide +kernel)
    | some score =>
      have hpositive := hmin score rfl
      exact absurd (of_decide_eq_true hmixed) (not_le.mpr hpositive)

/-- The error that names what was found and what was requested. -/
def shortOfCoins (total : Nat) (value : Option Int) : PyError :=
  .runtimeError (client.name ++ " has " ++ toString total ++ " sats of mixed coins, "
    ++ requestedText value ++ " sats requested")

variable (answer) in
theorem run_selectMixedCoins (hmin : ∀ score ∈ minAnonScore, 0 < score) {value : Option Int}
    (hvalue : ∀ v ∈ value, 0 < v) {coinSelection : String}
    (hselection : IsCoinSelection coinSelection) (coins : List WasabiCoin) (s : W) :
    let eligible := coins.filter (isEligible minAnonScore answer)
    let result := ((client.listing coins).selectMixedCoins value minAnonScore
      (answer.map answering) coinSelection).run s
    (∃ selected total left, Covers eligible value ∧ result = .ok (selected, total) s ∧
      IsSelection eligible value coinSelection selected total left) ∨
    ∃ total, ¬Covers eligible value ∧ result = .error (shortOfCoins client total value) s := by
  intro eligible result
  obtain ⟨selected, total, left, hselect, hspec, hcovers⟩ :=
    selectFrom_spec eligible hvalue hselection
  have hscored : ¬eligible.any (fun coin => coin.anonymityScore.isNone) = true := by
    simp only [List.any_eq_true, not_exists, not_and]
    intro coin hcoin
    have := isSome_of_isEligible hmin (List.mem_filter.mp hcoin).2
    simpa using Option.isSome_iff_ne_none.mp this
  have hresult : result = if selected = [] ∨ value.any fun value => (total : Int) < value then
      .error (shortOfCoins client total value) s else .ok (selected, total) s := by
    simp only [result, selectMixedCoins, EStateM.run_bind]
    rw [show (client.listing coins).listUnspentCoins.run s = .ok coins s from rfl]
    dsimp only
    rw [run_selectM fun coin => run_isCandidate coin s]
    dsimp only
    rw [if_neg hscored, EStateM.run_bind, run_ofExcept, hselect]
    dsimp only
    rw [run_ite]
    rfl
  by_cases hshort : selected = [] ∨ value.any fun value => (total : Int) < value
  · rw [if_pos hshort] at hresult
    exact .inr ⟨total, fun h => hcovers.mpr h hshort, hresult⟩
  · rw [if_neg hshort] at hresult
    exact .inl ⟨selected, total, left, hcovers.mp hshort, hresult, hspec⟩

variable (answer) in
theorem run_checkMixedCoins (hmin : ∀ score ∈ minAnonScore, 0 < score) {value : Option Int}
    (hvalue : ∀ v ∈ value, 0 < v) (coins : List WasabiCoin) (s : W) :
    let eligible := coins.filter (isEligible minAnonScore answer)
    let result := ((client.listing coins).checkMixedCoins value minAnonScore
      (answer.map answering)).run s
    Covers eligible value ∧ result = .ok () s ∨
    ∃ total, ¬Covers eligible value ∧ result = .error (shortOfCoins client total value) s := by
  intro eligible result
  simp only [result, checkMixedCoins, EStateM.run_bind]
  obtain ⟨selected, total, left, hcovers, hselect, -⟩ | ⟨total, hshort, hselect⟩ :=
    run_selectMixedCoins client answer hmin hvalue (.inl rfl) coins s
  · exact .inl ⟨hcovers, by rw [hselect]; rfl⟩
  · exact .inr ⟨total, hshort, by rw [hselect]⟩

end WasabiClient

section Agree

variable {σ E : Type} {n : Nat} (clock : Clock σ) (client : WasabiClient (World σ E))

open WasabiClient

/-- A Wasabi wallet's check passes exactly if its send finds coins, by either selection, and exactly
if the eligible coins cover the value.  Otherwise the spend fails without a call that stops
the wallet. -/
theorem selectMixedCoins_agree (coins : List WasabiCoin) (answer : Option (String → Nat → Bool))
    {minAnonScore : Option Rat} (hmin : ∀ score ∈ minAnonScore, 0 < score)
    {value : Option Int} (hvalue : ∀ v ∈ value, 0 < v) (s : World σ E) :
    let wallet := client.listing coins
    let eligible := coins.filter (isEligible minAnonScore answer)
    let select coinSelection := (wallet.selectMixedCoins value minAnonScore (answer.map answering)
      coinSelection).run s
    (∀ coinSelection, IsCoinSelection coinSelection →
      ((∃ selection s', select coinSelection = .ok selection s') ↔ Covers eligible value) ∧
      ∀ selected total s', select coinSelection = .ok (selected, total) s' →
        ∃ left, IsSelection eligible value coinSelection selected total left) ∧
    ((∃ s', (wallet.checkMixedCoins value minAnonScore (answer.map answering)).run s = .ok () s') ↔
      Covers eligible value) ∧
    ∀ (spend : PostmixSpend n SentCoins) (node : FundingNode (World σ E)),
      answer.map answering = some node.isUnspent → spend.minAnonScore = minAnonScore →
      (if spend.all then none else spend.value) = value → ¬Covers eligible value →
      ∃ error, (payOut (wallet.spendingClient clock) spend node).run s = .error error s := by
  intro wallet eligible select
  refine ⟨fun coinSelection hselection => ?_, ?_, fun spend node hnode hscore hall hshort => ?_⟩
  · obtain ⟨selected, total, left, hcovers, hselect, hspec⟩ | ⟨total, hshort, hselect⟩ :=
      run_selectMixedCoins client answer hmin hvalue hselection coins s
    · refine ⟨iff_of_true ⟨_, _, hselect⟩ hcovers, fun selected' total' s' hselect' => ?_⟩
      have hsame := hselect.symm.trans hselect'
      cases hsame
      exact ⟨left, hspec⟩
    · refine ⟨iff_of_false ?_ hshort, fun selected' total' s' hselect' => ?_⟩
      · rintro ⟨selection, s', hselect'⟩
        cases hselect.symm.trans hselect'
      · cases hselect.symm.trans hselect'
  · obtain ⟨hcovers, hcheck⟩ | ⟨total, hshort, hcheck⟩ :=
      run_checkMixedCoins client answer hmin hvalue coins s
    · exact iff_of_true ⟨s, hcheck⟩ hcovers
    · refine iff_of_false ?_ hshort
      rintro ⟨s', hcheck'⟩
      cases hcheck.symm.trans hcheck'
  · obtain ⟨hcovers, -⟩ | ⟨total, -, hcheck⟩ :=
      run_checkMixedCoins client answer hmin hvalue coins s
    · exact absurd hcovers hshort
    · refine ⟨shortOfCoins client total value, ?_⟩
      unfold payOut
      rw [hscore, hall, ← hnode, EStateM.run_bind]
      rw [show (wallet.spendingClient clock).checkMixedCoins = wallet.checkMixedCoins from rfl, hcheck]

/-- Two coins cover a value that neither of them covers. -/
theorem selectMixedCoins_agree_two :
    let client : WasabiClient (World Unit Unit) := {
      name := "wasabi", version := "2.6.0", listUnspentCoins := pure [], coinjoinStatus := pure none,
      stopCoinjoin := pure (), rpcSend := fun _ => pure none }
    let coins : List WasabiCoin := [⟨"a", 0, 5, some 3, true⟩, ⟨"b", 1, 4, some 2, true⟩]
    let s : World Unit Unit := ⟨(), 0, []⟩
    ∃ s', ((client.listing coins).checkMixedCoins (some 7) (some 2)
      (some (answering fun _ _ => true))).run s = .ok () s' :=
  ((selectMixedCoins_agree (n := 1) ⟨fun _ => 0, fun _ => le_refl _, id⟩ _ _
    (some fun _ _ => true) (by simp) (by simp) _).2.1).mpr
    (show (7 : Int) ≤ _ by decide +kernel)

end Agree

end CoinjoinEmulator.Postmix
