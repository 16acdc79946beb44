import CoinjoinEmulator.Postmix.Spends

/-! Runs of the schedule: the turns of its updates in their order, and what each turn can do. -/

namespace CoinjoinEmulator.Postmix

open ProofKit

/-- The turn of one spend in an update: the spend and the world before it and after it. -/
structure Turn (σ E R : Type) (n : Nat) where
  index : Nat
  currentBlock : Int
  currentRound : Int
  spend : PostmixSpend n R
  spend' : PostmixSpend n R
  world : World σ E
  world' : World σ E

variable {σ E R : Type} {n : Nat}

/-- What makes a spend due when the clock says `now`. -/
structure PostmixSpend.DueAt (spend : PostmixSpend n R) (currentBlock currentRound : Int)
    (now : Rat) : Prop where
  unsent : spend.status ≠ .sent
  blocks : spend.delayBlocks ≤ currentBlock
  rounds : spend.delayRounds ≤ currentRound
  retry : spend.nextAttemptAt ≤ now

/-- The spend after a failed attempt that ended at `now`. -/
def PostmixSpend.failedAt (spend : PostmixSpend n R) (error : PyError) (now : Rat) :
    PostmixSpend n R :=
  { spend with
    status := .failed
    attempts := spend.attempts + 1
    lastError := some error.message
    nextAttemptAt := now + postmixRetrySeconds }

/-- The spend after an attempt that was sent. -/
def PostmixSpend.sentAs (spend : PostmixSpend n R) (sent : Sent R) : PostmixSpend n R :=
  { spend with
    status := .sent
    attempts := spend.attempts + 1
    lastError := none
    sent := some sent }

section Turns

variable (clock : Clock σ) (clients : Fin n → SpendingClient (World σ E) R)
  (node : FundingNode (World σ E))

/-- What a turn can do: nothing, a failed attempt, or an attempt that is sent. -/
inductive Turn.Outcome (t : Turn σ E R n) : Prop
  | idle : ¬t.spend.DueAt t.currentBlock t.currentRound (t.world.waited clock).now →
      t.spend' = t.spend → World.Quiet t.world t.world' → Outcome t
  | failed (error : PyError) (w : World σ E) :
      t.spend.DueAt t.currentBlock t.currentRound (t.world.waited clock).now →
      (payOut (clients t.spend.walletIndex) t.spend node).run (t.world.waited clock) =
        .error error w →
      t.spend' = t.spend.failedAt error (w.waited clock).now → t.world' = w.waited clock →
      Outcome t
  | sent (result : R) (destination : String) :
      t.spend.DueAt t.currentBlock t.currentRound (t.world.waited clock).now →
      (payOut (clients t.spend.walletIndex) t.spend node).run (t.world.waited clock) =
        .ok (result, destination) t.world' →
      t.spend' = t.spend.sentAs
        { result, destination, round := t.currentRound, block := t.currentBlock } →
      Outcome t

/-- The turn made an attempt, which the spend counts. -/
def Turn.Attempted (t : Turn σ E R n) : Prop := t.spend'.attempts ≠ t.spend.attempts

/-- What the turn added to the log. -/
def Turn.added (t : Turn σ E R n) : List E := t.world'.log.drop t.world.log.length

/-- When the turn looked at the clock to decide whether its spend is due. -/
def Turn.startedAt (t : Turn σ E R n) : Rat := (t.world.waited clock).now

variable {clock clients node}

theorem run_due (spend : PostmixSpend n R) (currentBlock currentRound : Int) (w : World σ E) :
    ∃ isDue w', (spend.due clock currentBlock currentRound).run w = .ok isDue w' ∧
      World.Quiet w w' ∧
      (isDue = true ↔ spend.DueAt currentBlock currentRound (w.waited clock).now) ∧
      (isDue = true → w' = w.waited clock) := by
  unfold PostmixSpend.due
  by_cases h : spend.status ≠ .sent ∧ spend.delayBlocks ≤ currentBlock ∧
      spend.delayRounds ≤ currentRound
  · rw [if_pos h]
    refine ⟨_, _, rfl, World.quiet_waited w, ?_, fun _ => rfl⟩
    rw [decide_eq_true_iff]
    exact ⟨fun hretry => ⟨h.1, h.2.1, h.2.2, hretry⟩, fun hdue => hdue.retry⟩
  · rw [if_neg h]
    refine ⟨false, w, rfl, refl_of World.Quiet w, ?_, by simp⟩
    constructor
    · intro hfalse
      cases hfalse
    · intro hdue
      exact absurd ⟨hdue.unsent, hdue.blocks, hdue.rounds⟩ h

/-- A turn never raises. -/
theorem run_updateSpend (currentBlock currentRound : Int) (spend : PostmixSpend n R)
    (w : World σ E) (index : Nat) :
    ∃ spend' w', (updateSpend clock clients node currentBlock currentRound spend).run w =
        .ok spend' w' ∧
      Turn.Outcome clock clients node
        ⟨index, currentBlock, currentRound, spend, spend', w, w'⟩ := by
  obtain ⟨isDue, w1, hrun, hquiet, hdue, hw1⟩ :=
    @run_due σ _ R n clock spend currentBlock currentRound w
  simp only [updateSpend, EStateM.run_bind, hrun, run_ite]
  cases isDue with
  | false =>
    refine ⟨spend, w1, rfl, .idle ?_ rfl hquiet⟩
    intro h
    exact absurd (hdue.mpr h) (by simp)
  | true =>
    have hat := hdue.mp rfl
    cases hw1 rfl
    have hsame : payOut (clients spend.walletIndex) { spend with attempts := spend.attempts + 1 }
        node = payOut (clients spend.walletIndex) spend node := rfl
    simp only [if_true, attemptSpend, EStateM.run_bind, run_observing, hsame]
    cases hpay : (payOut (clients spend.walletIndex) spend node).run (w.waited clock) with
    | error error w2 => exact ⟨_, _, rfl, .failed error w2 hat hpay rfl rfl⟩
    | ok paid w2 =>
      obtain ⟨result, destination⟩ := paid
      exact ⟨_, _, rfl, .sent result destination hat hpay rfl⟩

/-! ### Updates -/

variable (clock clients node)

/-- The turns of an update, from a position of the schedule on. -/
def turns (currentBlock currentRound : Int) :
    Nat → List (PostmixSpend n R) → World σ E → List (Turn σ E R n)
  | _, [], _ => []
  | index, spend :: rest, w =>
    match (updateSpend clock clients node currentBlock currentRound spend).run w with
    | .ok spend' w' =>
      ⟨index, currentBlock, currentRound, spend, spend', w, w'⟩ ::
        turns currentBlock currentRound (index + 1) rest w'
    | .error _ _ => []

/-- The turn is one of an update. -/
structure Turn.Made (currentBlock currentRound : Int) (t : Turn σ E R n) : Prop where
  block : t.currentBlock = currentBlock
  round : t.currentRound = currentRound
  outcome : t.Outcome clock clients node

variable {clock clients node}

/-- An update never raises, and its turns lead from the old spends to the new ones. -/
theorem run_update (currentBlock currentRound : Int) (index : Nat)
    (spends : List (PostmixSpend n R)) (w : World σ E) :
    let made := turns clock clients node currentBlock currentRound index spends w
    (∃ w', (update clock clients node currentBlock currentRound spends).run w =
      .ok (made.map Turn.spend') w') ∧
    made.map Turn.spend = spends ∧ ∀ t ∈ made, t.Made clock clients node currentBlock currentRound := by
  induction spends generalizing index w with
  | nil => exact ⟨⟨w, rfl⟩, rfl, by simp [turns]⟩
  | cons spend rest ih =>
    obtain ⟨spend', w1, hrun, houtcome⟩ :=
      @run_updateSpend σ E R n clock clients node currentBlock currentRound
        spend w index
    obtain ⟨⟨w2, hrest⟩, hspends, hmade⟩ := ih (index + 1) w1
    simp only [turns, hrun]
    refine ⟨⟨w2, ?_⟩, ?_, ?_⟩
    · rw [update] at hrest
      simp only [update, List.mapM_cons, EStateM.run_bind, hrun, hrest]
      rfl
    · rw [List.map_cons, hspends]
    · intro t ht
      rcases List.mem_cons.mp ht with rfl | ht
      · exact ⟨rfl, rfl, houtcome⟩
      · exact hmade t ht

theorem le_index_of_mem_turns {currentBlock currentRound : Int} {index : Nat}
    {spends : List (PostmixSpend n R)} {w : World σ E} {t : Turn σ E R n}
    (h : t ∈ turns clock clients node currentBlock currentRound index spends w) :
    index ≤ t.index := by
  induction spends generalizing index w with
  | nil => simp [turns] at h
  | cons spend rest ih =>
    simp only [turns] at h
    split at h
    · rcases List.mem_cons.mp h with rfl | h
      · exact Nat.le_refl _
      · exact Nat.le_of_succ_le (ih h)
    · simp at h

/-- A spend has one turn in each update. -/
theorem filter_turns {currentBlock currentRound : Int} (index i : Nat)
    (spends : List (PostmixSpend n R)) (w : World σ E) :
    (turns clock clients node currentBlock currentRound index spends w).filter
        (fun t => t.index = index + i) =
      ((turns clock clients node currentBlock currentRound index spends w)[i]?).toList := by
  induction spends generalizing index i w with
  | nil => rfl
  | cons spend rest ih =>
    obtain ⟨spend', w1, hrun, -⟩ :=
      @run_updateSpend σ E R n clock clients node currentBlock currentRound
        spend w index
    simp only [turns, hrun]
    cases i with
    | zero =>
      have hrest : (turns clock clients node currentBlock currentRound (index + 1) rest w1).filter
          (fun t => t.index = index) = [] := by
        rw [List.filter_eq_nil_iff]
        intro t ht
        have hle := le_index_of_mem_turns ht
        simp only [decide_eq_true_eq]
        omega
      simp [hrest]
    | succ i =>
      have hstep : index + (i + 1) = index + 1 + i := by omega
      rw [List.filter_cons_of_neg (by simp), List.getElem?_cons_succ, hstep]
      exact ih (index + 1) i w1

/-! ### Runs -/

variable (clock clients node)

/-- The worlds, spends and turns that any sequence of updates leads to, for any time between them
and anything else happening to the wallets and the node there. -/
inductive Reach (walletPostmixSpends : Fin n → List PostmixSpendConfig) :
    World σ E → List (PostmixSpend n R) → List (Turn σ E R n) → Prop
  | start (w : World σ E) :
      Reach walletPostmixSpends w (initialSpends clients walletPostmixSpends) []
  | update {w w' : World σ E} {spends spends' : List (PostmixSpend n R)}
      {history : List (Turn σ E R n)} {currentBlock currentRound : Int} :
      Reach walletPostmixSpends w spends history →
      (update clock clients node currentBlock currentRound spends).run w = .ok spends' w' →
      Reach walletPostmixSpends w' spends'
        (history ++ turns clock clients node currentBlock currentRound 0 spends w)
  | between {w w' : World σ E} {spends : List (PostmixSpend n R)}
      {history : List (Turn σ E R n)} :
      Reach walletPostmixSpends w spends history → World.Quiet w w' →
      Reach walletPostmixSpends w' spends history

variable {clock clients node}

/-- One more update, whose outcome its turns tell. -/
theorem Reach.next {walletPostmixSpends : Fin n → List PostmixSpendConfig} {w : World σ E}
    {spends : List (PostmixSpend n R)} {history : List (Turn σ E R n)}
    (h : Reach clock clients node walletPostmixSpends w spends history)
    (currentBlock currentRound : Int) :
    let made := turns clock clients node currentBlock currentRound 0 spends w
    Reach clock clients node walletPostmixSpends
      (stateAfter (Postmix.update clock clients node currentBlock currentRound spends) w)
      (made.map Turn.spend') (history ++ made) := by
  intro made
  obtain ⟨⟨w', hrun⟩, -⟩ :=
    run_update currentBlock currentRound 0
      spends w
  rw [stateAfter_of_ok hrun]
  exact h.update hrun

/-- What holds of every scheduled spend and is kept by each of its turns holds of it in every run,
with the turns that it had. -/
theorem Reach.spend_invariant {P : PostmixSpend n R → List (Turn σ E R n) → Prop}
    (hstart : ∀ wallet index config, P (.fromConfig wallet index config) [])
    (hturn : ∀ (t : Turn σ E R n) history, P t.spend history → t.Outcome clock clients node →
      P t.spend' (history ++ [t]))
    {walletPostmixSpends : Fin n → List PostmixSpendConfig} {w : World σ E}
    {spends : List (PostmixSpend n R)} {history : List (Turn σ E R n)}
    (h : Reach clock clients node walletPostmixSpends w spends history) {i : Nat}
    {spend : PostmixSpend n R} (hi : spends[i]? = some spend) :
    P spend (history.filter fun t => t.index = i) := by
  induction h generalizing spend with
  | start w =>
    obtain ⟨index, -, hspend⟩ := List.mem_flatMap.mp (List.mem_of_getElem? hi)
    obtain ⟨config, -, rfl⟩ := List.mem_map.mp hspend
    exact hstart _ _ _
  | between _ _ ih => exact ih hi
  | @update w w' spends spends' history currentBlock currentRound _ hrun ih =>
    obtain ⟨⟨w'', hrun'⟩, hspends, hmade⟩ :=
      run_update currentBlock currentRound 0
        spends w
    rw [hrun'] at hrun
    cases hrun
    rw [List.getElem?_map, Option.map_eq_some_iff] at hi
    obtain ⟨t, ht, rfl⟩ := hi
    have hthis := @filter_turns σ E R n clock clients node currentBlock currentRound 0 i spends w
    rw [ht, Nat.zero_add] at hthis
    rw [List.filter_append, hthis]
    have hbefore : spends[i]? = some t.spend := by
      rw [← hspends, List.getElem?_map, ht]
      rfl
    exact hturn t _ (ih hbefore) (hmade t (List.mem_of_getElem? ht)).outcome

theorem getElem?_of_mem_turns {currentBlock currentRound : Int} {index : Nat}
    {spends : List (PostmixSpend n R)} {w : World σ E} {t : Turn σ E R n}
    (h : t ∈ turns clock clients node currentBlock currentRound index spends w) :
    spends[t.index - index]? = some t.spend := by
  induction spends generalizing index w with
  | nil => simp [turns] at h
  | cons spend rest ih =>
    simp only [turns] at h
    split at h
    · rcases List.mem_cons.mp h with rfl | h
      · simp
      · have hle := le_index_of_mem_turns h
        have hstep : t.index - index = t.index - (index + 1) + 1 := by omega
        rw [hstep, List.getElem?_cons_succ]
        exact ih h
    · simp at h

/-- A spend keeps its wallet, its amount and its delays. -/
def PostmixSpend.asScheduled (spend : PostmixSpend n R) : PostmixSpend n R :=
  { spend with status := .notDue, attempts := 0, lastError := none, nextAttemptAt := 0, sent := none }

theorem Turn.Outcome.asScheduled {t : Turn σ E R n} (h : t.Outcome clock clients node) :
    t.spend'.asScheduled = t.spend.asScheduled := by
  cases h with
  | idle _ hspend _ => rw [hspend]
  | failed _ _ _ _ hspend _ => rw [hspend]; rfl
  | sent _ _ _ _ hspend => rw [hspend]; rfl

/-- Every turn of a run is one of a scheduled spend. -/
theorem Reach.scheduled {walletPostmixSpends : Fin n → List PostmixSpendConfig} {w : World σ E}
    {spends : List (PostmixSpend n R)} {history : List (Turn σ E R n)}
    (h : Reach clock clients node walletPostmixSpends w spends history) :
    spends.map PostmixSpend.asScheduled = initialSpends clients walletPostmixSpends ∧
      ∀ t ∈ history, t.Outcome clock clients node ∧
        (initialSpends clients walletPostmixSpends)[t.index]? = some t.spend.asScheduled := by
  induction h with
  | start w =>
    refine ⟨?_, by simp⟩
    rw [initialSpends, List.map_flatMap]
    simp only [List.map_map]
    rfl
  | between _ _ ih => exact ih
  | @update w w' spends spends' history currentBlock currentRound _ hrun ih =>
    obtain ⟨⟨w'', hrun'⟩, hspends, hmade⟩ :=
      run_update currentBlock currentRound 0
        spends w
    rw [hrun'] at hrun
    cases hrun
    constructor
    · have hsame : ∀ t ∈ turns clock clients node currentBlock currentRound 0 spends w,
          (PostmixSpend.asScheduled ∘ Turn.spend') t = (PostmixSpend.asScheduled ∘ Turn.spend) t :=
        fun t ht => (hmade t ht).outcome.asScheduled
      rw [List.map_map, List.map_congr_left hsame, ← List.map_map, hspends]
      exact ih.1
    · intro t ht
      rcases List.mem_append.mp ht with hold | hnew
      · exact ih.2 t hold
      · refine ⟨(hmade t hnew).outcome, ?_⟩
        rw [← ih.1, List.getElem?_map, ← Nat.sub_zero t.index, getElem?_of_mem_turns hnew]
        rfl

theorem Turn.Outcome.attempted_iff {t : Turn σ E R n} (h : t.Outcome clock clients node) :
    t.Attempted ↔ t.spend.DueAt t.currentBlock t.currentRound (t.startedAt clock) := by
  unfold Turn.Attempted Turn.startedAt
  cases h with
  | idle hidle hspend _ => simpa [hspend] using hidle
  | failed _ _ hdue _ hspend _ => simpa [hspend, PostmixSpend.failedAt] using hdue
  | sent _ _ hdue _ hspend => simpa [hspend, PostmixSpend.sentAs] using hdue

/-! ### Logs -/

/-- What a turn adds to the log, when `Q` tells it of the attempts of a spend. -/
inductive Turn.Logged (Q : PostmixSpend n R → List E → Except PyError (R × String) → List E → Prop)
    (t : Turn σ E R n) : Prop
  | idle : t.spend' = t.spend → t.added = [] → Logged Q t
  | failed (error : PyError) (now : Rat) : t.spend.status ≠ .sent →
      t.spend' = t.spend.failedAt error now → Q t.spend t.world.log (.error error) t.added →
      Logged Q t
  | sent (result : R) (destination : String) : t.spend.status ≠ .sent →
      t.spend' = t.spend.sentAs
        { result, destination, round := t.currentRound, block := t.currentBlock } →
      Q t.spend t.world.log (.ok (result, destination)) t.added → Logged Q t

theorem Turn.Outcome.logged {t : Turn σ E R n} (h : t.Outcome clock clients node)
    {Q : PostmixSpend n R → List E → Except PyError (R × String) → List E → Prop}
    (hpay : ∀ spend, Emits World.log (payOut (clients spend.walletIndex) spend node) (Q spend)) :
    t.Logged Q := by
  obtain ⟨added, hlog, hadded⟩ := hpay t.spend (t.world.waited clock)
  rw [(World.quiet_waited t.world).log] at hlog hadded
  cases h with
  | idle _ hspend hworld =>
    refine .idle hspend ?_
    rw [Turn.added, hworld.log, List.drop_length]
  | failed error w hdue hrun hspend hworld =>
    rw [stateAfter_of_error hrun] at hlog
    have hthis : t.added = added := by
      rw [Turn.added, hworld, (World.quiet_waited w).log, hlog, List.drop_left]
    rw [hrun, ← hthis] at hadded
    exact .failed error _ hdue.unsent hspend hadded
  | sent result destination hdue hrun hspend =>
    rw [stateAfter_of_ok hrun] at hlog
    have hthis : t.added = added := by
      rw [Turn.added, hlog, List.drop_left]
    rw [hrun, ← hthis] at hadded
    exact .sent result destination hdue.unsent hspend hadded

/-! ### Times -/

variable (hlater : ∀ spend : PostmixSpend n R,
  Keeps World.Later (payOut (clients spend.walletIndex) spend node))

include hlater

theorem Turn.Outcome.later {t : Turn σ E R n} (h : t.Outcome clock clients node) :
    World.Later t.world t.world' ∧ (t.Attempted → t.startedAt clock ≤ t.world'.now) := by
  have hwait : World.Later t.world (t.world.waited clock) := (World.quiet_waited _).later
  have hpay := hlater t.spend (t.world.waited clock)
  cases h with
  | idle hidle hspend hworld => exact ⟨hworld.later, fun h => absurd (congrArg _ hspend) h⟩
  | failed _ w _ hrun _ hworld =>
    rw [stateAfter_of_error hrun] at hpay
    have hend : World.Later (t.world.waited clock) t.world' :=
      trans_of World.Later hpay (hworld ▸ (World.quiet_waited w).later)
    exact ⟨trans_of World.Later hwait hend, fun _ => hend.now_le⟩
  | sent _ _ _ hrun _ =>
    rw [stateAfter_of_ok hrun] at hpay
    exact ⟨trans_of World.Later hwait hpay, fun _ => hpay.now_le⟩

/-- What the next turn of a spend has to look back on: none follows a sent one, and a failed one is
followed after the pause. -/
structure Paced (spend : PostmixSpend n R) (attempts : List (Turn σ E R n)) : Prop where
  sent : ∀ t ∈ attempts, t.spend'.status = .sent → spend.status = .sent
  failed : ∀ t ∈ attempts, t.Attempted → t.spend'.status = .failed → spend.status ≠ .sent →
    t.world'.now + postmixRetrySeconds ≤ spend.nextAttemptAt
  unsent : attempts.Pairwise fun t t' => t.spend'.status = .sent → ¬t'.Attempted
  pause : attempts.Pairwise fun t t' => t.Attempted → t.spend'.status = .failed → t'.Attempted →
    t.world'.now + postmixRetrySeconds ≤ t'.startedAt clock

theorem Paced.turn {t : Turn σ E R n} {attempts : List (Turn σ E R n)}
    (h : @Paced σ E R n clock t.spend attempts) (houtcome : t.Outcome clock clients node) :
    @Paced σ E R n clock t.spend' (attempts ++ [t]) := by
  have hend := (houtcome.later hlater).2
  have hattempted := houtcome.attempted_iff
  -- An attempt comes after no sent turn, and after the pause of every failed one.
  have hunsent : ∀ t' ∈ attempts, t'.spend'.status = .sent → ¬t.Attempted := by
    intro t' ht' hsent hnow
    exact (hattempted.mp hnow).unsent (h.sent t' ht' hsent)
  have hpause : ∀ t' ∈ attempts, t'.Attempted → t'.spend'.status = .failed → t.Attempted →
      t'.world'.now + postmixRetrySeconds ≤ t.startedAt clock := by
    intro t' ht' hmade hfailed hnow
    have hdue := hattempted.mp hnow
    exact (h.failed t' ht' hmade hfailed hdue.unsent).trans hdue.retry
  refine ⟨?_, ?_, ?_, ?_⟩
  · intro t' ht' hsent
    rcases List.mem_append.mp ht' with hold | hnew
    · have hbefore := h.sent t' hold hsent
      cases houtcome with
      | idle _ hspend _ => rw [hspend, hbefore]
      | failed _ _ hdue _ _ _ => exact absurd hbefore hdue.unsent
      | sent _ _ hdue _ _ => exact absurd hbefore hdue.unsent
    · rw [List.mem_singleton.mp hnew] at hsent
      exact hsent
  · intro t' ht' hmade hfailed hstatus
    rcases List.mem_append.mp ht' with hold | hnew
    · cases houtcome with
      | idle _ hspend _ =>
        rw [hspend] at hstatus ⊢
        exact h.failed t' hold hmade hfailed hstatus
      | failed _ w hdue _ hspend hworld =>
        have hnow := hattempted.mpr hdue
        have hlast := (hpause t' hold hmade hfailed hnow).trans (hend hnow)
        rw [hspend, PostmixSpend.failedAt]
        rw [hworld] at hlast
        have hpositive : (0 : Rat) ≤ postmixRetrySeconds := by norm_num [postmixRetrySeconds]
        exact hlast.trans (le_add_of_nonneg_right hpositive)
      | sent _ _ _ _ hspend =>
        rw [hspend] at hstatus
        exact absurd rfl hstatus
    · cases List.mem_singleton.mp hnew
      cases houtcome with
      | idle _ hspend _ => exact absurd (congrArg _ hspend) hmade
      | failed _ w _ _ hspend hworld => rw [hspend, hworld]; exact le_refl _
      | sent _ _ _ _ hspend =>
        rw [hspend] at hstatus
        exact absurd rfl hstatus
  · rw [List.pairwise_append]
    exact ⟨h.unsent, List.pairwise_singleton _ _, by simpa using hunsent⟩
  · rw [List.pairwise_append]
    exact ⟨h.pause, List.pairwise_singleton _ _, by simpa using hpause⟩

theorem Reach.paced {walletPostmixSpends : Fin n → List PostmixSpendConfig} {w : World σ E}
    {spends : List (PostmixSpend n R)} {history : List (Turn σ E R n)}
    (h : Reach clock clients node walletPostmixSpends w spends history) {i : Nat}
    {spend : PostmixSpend n R} (hi : spends[i]? = some spend) :
    @Paced σ E R n clock spend (history.filter fun t => t.index = i) :=
  h.spend_invariant (fun _ _ _ => ⟨by simp, by simp, .nil, .nil⟩)
    (fun _ _ hspend houtcome => hspend.turn hlater houtcome) hi

/-- The turns of an update happen one after the other. -/
theorem turns_chronological (currentBlock currentRound : Int) (index : Nat)
    (spends : List (PostmixSpend n R)) (w : World σ E) :
    let made := turns clock clients node currentBlock currentRound index spends w
    let w' := stateAfter (update clock clients node currentBlock currentRound spends) w
    World.Later w w' ∧ (∀ t ∈ made, World.Later w t.world ∧ World.Later t.world' w') ∧
      made.Pairwise fun t t' => World.Later t.world' t'.world := by
  induction spends generalizing index w with
  | nil => exact ⟨refl_of World.Later w, by simp [turns], .nil⟩
  | cons spend rest ih =>
    obtain ⟨spend', w1, hrun, houtcome⟩ :=
      @run_updateSpend σ E R n clock clients node currentBlock currentRound
        spend w index
    have hfirst := (houtcome.later hlater).1
    obtain ⟨hrest, hmade, hpairs⟩ := ih (index + 1) w1
    have hend : stateAfter (update clock clients node currentBlock currentRound (spend :: rest)) w =
        stateAfter (update clock clients node currentBlock currentRound rest) w1 := by
      simp only [update, stateAfter, List.mapM_cons, EStateM.run_bind, hrun]
      cases (rest.mapM (updateSpend clock clients node currentBlock currentRound)).run w1 <;> rfl
    simp only [turns, hrun, hend]
    refine ⟨trans_of World.Later hfirst hrest, ?_, ?_⟩
    · intro t ht
      rcases List.mem_cons.mp ht with rfl | ht
      · exact ⟨refl_of World.Later w, hrest⟩
      · exact ⟨trans_of World.Later hfirst (hmade t ht).1, (hmade t ht).2⟩
    · exact List.pairwise_cons.mpr ⟨fun t ht => (hmade t ht).1, hpairs⟩

/-- The turns of a run happen one after the other. -/
theorem Reach.chronological {walletPostmixSpends : Fin n → List PostmixSpendConfig}
    {w : World σ E} {spends : List (PostmixSpend n R)} {history : List (Turn σ E R n)}
    (h : Reach clock clients node walletPostmixSpends w spends history) :
    (∀ t ∈ history, World.Later t.world' w) ∧
      history.Pairwise fun t t' => World.Later t.world' t'.world := by
  induction h with
  | start w => exact ⟨by simp, .nil⟩
  | between _ hquiet ih =>
    exact ⟨fun t ht => trans_of World.Later (ih.1 t ht) hquiet.later, ih.2⟩
  | @update w w' spends spends' history currentBlock currentRound _ hrun ih =>
    obtain ⟨hend, hmade, hpairs⟩ := turns_chronological hlater currentBlock currentRound 0 spends w
    rw [stateAfter_of_ok hrun] at hend hmade
    refine ⟨?_, List.pairwise_append.mpr ⟨ih.2, hpairs, ?_⟩⟩
    · intro t ht
      rcases List.mem_append.mp ht with hold | hnew
      · exact trans_of World.Later (ih.1 t hold) hend
      · exact (hmade t hnew).2
    · intro t ht t' ht'
      exact trans_of World.Later (ih.1 t ht) (hmade t' ht').1

/-- A spend that is due when an update begins is attempted in it, whatever becomes of the others. -/
theorem due_attempted {currentBlock currentRound : Int} {spends : List (PostmixSpend n R)}
    {w : World σ E} {i : Nat} {spend : PostmixSpend n R} (hi : spends[i]? = some spend)
    (hdue : spend.DueAt currentBlock currentRound w.now) :
    ∃ t, (turns clock clients node currentBlock currentRound 0 spends w)[i]? = some t ∧
      t.spend = spend ∧ t.Attempted := by
  obtain ⟨-, hspends, hmade⟩ :=
    run_update currentBlock currentRound 0
      spends w
  rw [← hspends, List.getElem?_map, Option.map_eq_some_iff] at hi
  obtain ⟨t, ht, rfl⟩ := hi
  have hmem := List.mem_of_getElem? ht
  obtain ⟨hblock, hround, houtcome⟩ := hmade t hmem
  have hlate := ((turns_chronological hlater currentBlock currentRound 0 spends w).2.1 t hmem).1
  have hstarted : w.now ≤ t.startedAt clock :=
    hlate.now_le.trans (World.quiet_waited t.world).now_le
  refine ⟨t, ht, rfl, houtcome.attempted_iff.mpr ?_⟩
  rw [hblock, hround]
  exact ⟨hdue.unsent, hdue.blocks, hdue.rounds, hdue.retry.trans hstarted⟩

end Turns

end CoinjoinEmulator.Postmix
