import CoinjoinEmulator.ProofKit.Phases
import CoinjoinEmulator.WasabiEngine.Run

/-! While the chain and the log of the rounds only grow, a client that skips no round mixes in one
stretch of each run of the Wasabi engine. -/

namespace CoinjoinEmulator.WasabiEngine

open ProofKit Postmix

variable {σ : Type} {n : Nat}

/-- Whether the engine asks a client to mix, if it asks the client for something. -/
def Request.askedOf (i : Fin n) : Request n → Option Bool
  | .start client _ => if client = i then some true else none
  | .stop client _ => if client = i then some false else none
  | .refresh _ => none
  | .pay _ _ => none
  | .pause _ => none
  | .mine _ => none

theorem filterMap_started (i : Fin n) (counts : Counts) (clients : List (Fin n)) :
    (clients.map (Request.start · counts)).filterMap (Request.askedOf i) =
      List.replicate (clients.count i) true := by
  induction clients with
  | nil => rfl
  | cons client rest ih =>
    by_cases hclient : client = i <;>
      simp [Request.askedOf, hclient, List.replicate_succ, ih]

theorem filterMap_stopped (i : Fin n) (counts : Counts) (clients : List (Fin n)) :
    (clients.map (Request.stop · counts)).filterMap (Request.askedOf i) =
      List.replicate (clients.count i) false := by
  induction clients with
  | nil => rfl
  | cons client rest ih =>
    by_cases hclient : client = i <;>
      simp [Request.askedOf, hclient, List.replicate_succ, ih]

theorem filterMap_paid (i : Fin n) (counts : Counts) (batches : List (List Invoice)) :
    (batches.map (Request.pay (n := n) · counts)).filterMap (Request.askedOf i) = [] := by
  simp [List.filterMap_eq_nil_iff, Request.askedOf]

theorem filterMap_paused (i : Fin n) (clients : List (Fin n)) :
    (clients.map Request.pause).filterMap (Request.askedOf i) = [] := by
  simp [List.filterMap_eq_nil_iff, Request.askedOf]

section Rounds

variable {parties : Parties σ n} {limits : Limits}

theorem count_filter_finRange (i : Fin n) (p : Fin n → Bool) :
    ((List.finRange n).filter p).count i = if p i then 1 else 0 := by
  have hnodup := (List.nodup_finRange n).filter p
  by_cases hp : p i = true
  · rw [if_pos hp]
    exact List.count_eq_one_of_mem hnodup (List.mem_filter.mpr ⟨List.mem_finRange i, hp⟩)
  · rw [if_neg hp, List.count_eq_zero]
    exact fun hmem => hp (List.mem_filter.mp hmem).2

/-- A round asks a client at most once, for what its start condition says. -/
theorem Turn.Fits.asked {turn : Turn n} (h : turn.Fits parties limits) (i : Fin n) :
    turn.requests.filterMap (Request.askedOf i) = [] ∨
      turn.requests.filterMap (Request.askedOf i) =
        [startCondition limits (parties.clients i) turn.counts] := by
  have hstarted := h.started.count_le i
  have hstopped := h.stopped.count_le i
  rw [mixing, count_filter_finRange] at hstarted
  rw [resting, count_filter_finRange] at hstopped
  have hasked : turn.requests.filterMap (Request.askedOf i) =
      turn.asked.filterMap (Request.askedOf i) := rfl
  rw [hasked, Turn.asked, List.filterMap_append, List.filterMap_append, List.filterMap_append,
    filterMap_paid, filterMap_paused, filterMap_started, filterMap_stopped, List.nil_append,
    List.nil_append]
  cases hcondition : startCondition limits (parties.clients i) turn.counts with
  | true =>
    simp only [hcondition, if_true, Bool.not_true, Bool.false_eq_true, if_false]
      at hstarted hstopped
    rw [Nat.le_zero.mp hstopped, List.replicate_zero, List.append_nil]
    rcases Nat.le_one_iff_eq_zero_or_eq_one.mp hstarted with hzero | hone
    · exact .inl (by rw [hzero]; rfl)
    · exact .inr (by rw [hone]; rfl)
  | false =>
    simp only [hcondition, if_true, Bool.not_false, Bool.false_eq_true, if_false]
      at hstarted hstopped
    rw [Nat.le_zero.mp hstarted, List.replicate_zero, List.nil_append]
    rcases Nat.le_one_iff_eq_zero_or_eq_one.mp hstopped with hzero | hone
    · exact .inl (by rw [hzero]; rfl)
    · exact .inr (by rw [hone]; rfl)

/-- What a client is asked for in some rounds is the start condition in those that ask it. -/
theorem exists_asked_rounds {turns : List (Turn n)} (h : ∀ turn ∈ turns, turn.Fits parties limits)
    (i : Fin n) : ∃ asked : List (Turn n), asked.Sublist turns ∧
      (turns.flatMap Turn.requests).filterMap (Request.askedOf i) =
        (asked.map Turn.counts).map (startCondition limits (parties.clients i)) := by
  induction turns with
  | nil => exact ⟨[], List.Sublist.refl [], rfl⟩
  | cons turn rest ih =>
    obtain ⟨asked, hasked, hrest⟩ := ih fun turn' hturn' => h turn' (List.mem_cons_of_mem _ hturn')
    rw [List.flatMap_cons, List.filterMap_append, hrest]
    rcases (h turn List.mem_cons_self).asked i with hnone | hone
    · exact ⟨asked, hasked.cons turn, by rw [hnone, List.nil_append]⟩
    · exact ⟨turn :: asked, hasked.cons_cons turn, by rw [hone]; rfl⟩

end Rounds

/-! ### One stretch -/

/-- The delays of a client have passed. -/
def begun (client : MixingClient σ) (counts : Counts) : Bool :=
  decide (client.delay.1 ≤ counts.block) && decide (client.delay.2 ≤ counts.round)

/-- A limit of the run, or one of a client's own stops, is reached. -/
def ended (limits : Limits) (client : MixingClient σ) (counts : Counts) : Bool :=
  limits.reached counts || ((decide (0 < client.stop.1) && decide (client.stop.1 ≤ counts.block)) ||
    (decide (0 < client.stop.2) && decide (client.stop.2 ≤ counts.round)))

theorem monotone_begun (client : MixingClient σ) : Monotone (begun client) := by
  rintro counts counts' ⟨hblock, hround⟩
  rw [Bool.le_iff_imp]
  simp only [begun, Bool.and_eq_true, decide_eq_true_eq]
  omega

theorem monotone_ended (limits : Limits) (client : MixingClient σ) :
    Monotone (ended limits client) := by
  rintro counts counts' ⟨hblock, hround⟩
  rw [Bool.le_iff_imp]
  simp only [ended, Limits.reached, Bool.or_eq_true, Bool.and_eq_true, decide_eq_true_eq]
  omega

theorem startCondition_eq {limits : Limits} {client : MixingClient σ}
    (hskip : client.skipRounds = []) (counts : Counts) :
    startCondition limits client counts = (begun client counts && !ended limits client counts) := by
  rw [Bool.eq_iff_iff, startCondition_iff]
  simp only [begun, ended, Bool.and_eq_true, Bool.not_eq_true', Bool.or_eq_false_iff,
    Bool.and_eq_false_iff, decide_eq_true_eq, decide_eq_false_iff_not, reached_eq_false_iff]
  constructor
  · intro h
    have hstopBlock := h.before_stop_block
    have hstopRound := h.before_stop_round
    exact ⟨⟨h.after_delay_blocks, h.after_delay_rounds⟩, ⟨h.below_rounds, h.below_blocks⟩,
      by omega, by omega⟩
  · rintro ⟨⟨hblocks, hrounds⟩, hreached, hstopBlock, hstopRound⟩
    exact ⟨hreached.1, hreached.2, by omega, by omega, hblocks, hrounds, by simp [hskip]⟩

/-- A chain that grows by a block at each look, without coinjoins: the state is its height. -/
def miningParties : Parties Nat 1 where
  clients _ := {
    wallet := {
      name := "wasabi-client-000"
      version := "2.0.4"
      listUnspentCoins := pure []
      coinjoinStatus := pure (some "Idle")
      stopCoinjoin := pure ()
      rpcSend := fun _ => throw (.rpcError "no coins") }
    host := "localhost"
    port := 37132
    delay := (2, 0)
    stop := (5, 0)
    skipRounds := []
    startCoinjoin := pure none }
  node := some {
    getNewAddress := pure "address"
    isUnspent := fun _ _ => pure true
    getBlockCount := do
      modify (· + 1)
      return (← get)
    mineBlock := fun blocks => do
      modify (· + blocks)
      return true }
  distributor := none
  architecture := .legacy
  peek _ _ := pure ""
  containerState _ := pure none

def instantClock : Clock Nat where
  elapsed _ := 0
  elapsed_nonneg _ := le_refl _
  wait s := s

theorem steady_miningParties :
    Steady instantClock miningParties (fun s => (s : Int)) fun _ => "" where
  keep := by
    have hpure : ∀ {α : Type} (a : α), Keeps (Grown (fun s : Nat => (s : Int)) fun _ => "")
        (pure a : EStateM PyError Nat α) := fun a => .pure a
    have hmine : ∀ blocks : Nat, Keeps (Grown (fun s : Nat => (s : Int)) fun _ => "")
        (modify (· + blocks) : EStateM PyError Nat Unit) := by
      refine fun blocks => .modify fun s => ⟨?_, List.prefix_refl _⟩
      show (s : Int) ≤ ((s + blocks : Nat) : Int)
      omega
    constructor
    · exact fun s => refl_of (Grown _ _) s
    · exact fun _ => hpure _
    · exact fun _ => hpure _
    · exact fun _ => hpure _
    · exact fun _ _ => .throw _
    · exact fun _ => hpure _
    · rintro _ ⟨⟩
      exact hpure _
    · rintro _ ⟨⟩ _ _
      exact hpure _
    · rintro _ ⟨⟩
      exact (hmine 1).bind fun _ => Keeps.get.bind fun _ => hpure _
    · rintro _ ⟨⟩ blocks
      exact (hmine blocks).bind fun _ => hpure _
    · rintro _ ⟨⟩
    · exact fun _ _ => hpure _
    · exact fun _ => hpure _
  blockCount := by
    rintro _ ⟨⟩ s count s' hrun
    cases hrun
    rfl
  peeked := by
    intro s answer s' hrun
    cases hrun
    rfl

/-- The client waits at height 1, mixes from 2 to 4, and stops from 5 to the limit of 8. -/
example : (stateAfter (runEngine instantClock miningParties ⟨1, fun _ => []⟩ ⟨0, 8⟩ 10)
      ⟨⟨⟨0, 0, []⟩, [], .nil⟩, none⟩).world.log.filterMap (Request.askedOf 0) =
    [false, true, true, true, false, false, false, false] := by
  decide +kernel

end CoinjoinEmulator.WasabiEngine
