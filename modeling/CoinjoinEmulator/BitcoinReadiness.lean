import CoinjoinEmulator.Errors
import CoinjoinEmulator.ProofKit.Document
import CoinjoinEmulator.ProofKit.Streak
import Mathlib.Data.Rat.Floor
import Mathlib.Tactic.Linarith

/-! `_wait_for_quiet_chain_tip` of bitcoin_readiness.py: start-up goes on at a tip that stood still
for six samples. -/

namespace CoinjoinEmulator.BitcoinReadiness

open ProofKit

def quietSampleCount : Nat := 6

def quietSampleIntervalSeconds : Rat := 1 / 2

/-- The number that a value is for Python's comparisons. -/
def number : Json → Option (WithBot (WithTop Rat))
  | .bool b => some ((if b then 1 else 0 : Rat) : WithTop Rat)
  | .int i => some ((i : Rat) : WithTop Rat)
  | .float x => some x
  | _ => none

/-- The integer that a value is, if `isinstance(value, int)`. -/
def asInt : Json → Option Int
  | .bool b => some (if b then 1 else 0)
  | .int i => some i
  | _ => none

def isSynchronized (info : Members) (blockCount : Json) : Bool :=
  let progress := number (info.get "verificationprogress")
  (asInt blockCount).isSome
    && number (info.get "headers") = number blockCount
    && (match info.get "initialblockdownload" with
        | .bool false => true
        | _ => false)
    && progress.any fun progress => 1 ≤ progress

/-- The samples of the node.  Each is the blockchain info, or the message of a request that failed
or of an RPC error; `monotonic` is the clock before it.  The loop sleeps after each sample. -/
structure Samples where
  monotonic : Nat → Rat
  sample : Nat → Except String Members
  sleeps : ∀ i, monotonic i + quietSampleIntervalSeconds ≤ monotonic (i + 1)

/-- The local variables of the loop. -/
structure Quiet where
  streak : Nat
  quietHeight : Option Int

/-- The body of the loop up to its sleep. -/
def Quiet.next (state : Quiet) : Except String Members → Quiet
  | .error _ => { quietHeight := none, streak := 0 }
  | .ok info =>
    let blocks := info.get "blocks"
    if isSynchronized info blocks = false then { quietHeight := none, streak := 0 }
    else if asInt blocks = state.quietHeight then { state with streak := state.streak + 1 }
    else { quietHeight := asInt blocks, streak := 1 }

namespace Samples

variable (w : Samples) (deadline : Rat)

def quietTimeout (timeout : String) : PyError :=
  .timeoutError ("btc-node did not become quietly synchronized after " ++ timeout ++ "s")

/-- The loop with a number of rounds left; the state counts the samples taken. -/
def quietLoop (timeout : String) : Nat → Quiet → EStateM PyError Nat Unit
  | 0, _ => throw (quietTimeout timeout)
  | rounds + 1, state => do
    let taken ← get
    if w.monotonic taken < deadline then do
      set (taken + 1)
      let state := state.next (w.sample taken)
      if quietSampleCount ≤ state.streak then return ()
      else quietLoop timeout rounds state
    else throw (quietTimeout timeout)

/-- The deadline and the sleeps bound the rounds.  `timeout` is formatted in the message only. -/
def waitForQuietChainTip (timeout : String) : EStateM PyError Nat Unit :=
  quietLoop w deadline timeout (⌈(deadline - w.monotonic 0) / quietSampleIntervalSeconds⌉.toNat + 1)
    { streak := 0, quietHeight := none }

/-! ### When the loop ends -/

/-- The height of a sample that answered and is synchronised. -/
def synchronizedHeight (i : Nat) : Option Int :=
  match w.sample i with
  | .error _ => none
  | .ok info =>
    if isSynchronized info (info.get "blocks") = true then asInt (info.get "blocks") else none

/-- The sample ends a run of six that are synchronised at one height. -/
def EndsQuietRun (i : Nat) : Prop :=
  ∃ height, ∀ j < quietSampleCount, j ≤ i ∧ w.synchronizedHeight (i - j) = some height

/-- The sample is taken before the deadline. -/
def Timely (i : Nat) : Prop := w.monotonic i < deadline

variable {w deadline}

/-- The variables of the loop count a streak of synchronised heights. -/
theorem next_eq_observe (state : Streak Int) (i : Nat) :
    (Quiet.mk state.count state.last).next (w.sample i) =
      let streak := state.observe (w.synchronizedHeight i)
      ⟨streak.count, streak.last⟩ := by
  unfold Quiet.next synchronizedHeight
  cases w.sample i with
  | error message => rfl
  | ok info =>
    dsimp only
    by_cases hsync : isSynchronized info (info.get "blocks") = true
    · obtain ⟨height, hheight⟩ : ∃ height, asInt (info.get "blocks") = some height := by
        unfold isSynchronized at hsync
        simp only [Bool.and_eq_true] at hsync
        exact Option.isSome_iff_exists.mp hsync.1.1.1
      rw [if_neg (by simp [hsync]), if_pos hsync, hheight, Streak.observe]
      by_cases hlast : state.last = some height
      · rw [if_pos hlast.symm, if_pos hlast]
      · rw [if_neg fun h => hlast h.symm, if_neg hlast]
    · rw [if_pos (by simpa using hsync), if_neg hsync]
      rfl

theorem endsQuietRun_iff (i : Nat) :
    w.EndsQuietRun i ↔ quietSampleCount ≤ (Streak.after w.synchronizedHeight (i + 1)).count := by
  rw [← Streak.endsRun_iff _ (by decide)]
  unfold EndsQuietRun Streak.EndsRun
  simp only [Nat.add_sub_cancel, Nat.lt_succ_iff]

theorem monotonic_add (i k : Nat) :
    w.monotonic i + k * quietSampleIntervalSeconds ≤ w.monotonic (i + k) := by
  induction k with
  | zero => simp
  | succ k ih =>
    have hsleep := w.sleeps (i + k)
    rw [← Nat.add_assoc]
    push_cast
    linarith

theorem Timely.of_le {i j : Nat} (h : w.Timely deadline j) (hle : i ≤ j) :
    w.Timely deadline i := by
  obtain ⟨k, rfl⟩ := Nat.exists_eq_add_of_le hle
  have hstep := w.monotonic_add i k
  have hnonneg : (0 : Rat) ≤ k * quietSampleIntervalSeconds := by
    unfold quietSampleIntervalSeconds
    positivity
  unfold Timely at h ⊢
  linarith

/-- No sample is left for the last round. -/
theorem not_timely_rounds (w : Samples) (deadline : Rat) :
    ¬w.Timely deadline ⌈(deadline - w.monotonic 0) / quietSampleIntervalSeconds⌉.toNat := by
  have hstep := w.monotonic_add 0 ⌈(deadline - w.monotonic 0) / quietSampleIntervalSeconds⌉.toNat
  have hceil : (deadline - w.monotonic 0) / quietSampleIntervalSeconds ≤
      (⌈(deadline - w.monotonic 0) / quietSampleIntervalSeconds⌉.toNat : Rat) :=
    Int.ceil_le.mp (Int.self_le_toNat _)
  rw [div_le_iff₀ (by unfold quietSampleIntervalSeconds; norm_num)] at hceil
  rw [Nat.zero_add] at hstep
  unfold Timely
  linarith

theorem run_quietLoop_late (timeout : String) {rounds taken : Nat} {state : Quiet}
    (h : ¬w.Timely deadline taken) :
    (w.quietLoop deadline timeout (rounds + 1) state).run taken =
      .error (quietTimeout timeout) taken := by
  simp only [quietLoop, EStateM.run_bind, EStateM.run_get]
  rw [if_neg (show ¬w.monotonic taken < deadline from h)]
  rfl

theorem run_quietLoop_timely (timeout : String) {rounds taken : Nat}
    (h : w.Timely deadline taken) :
    let streak := Streak.after w.synchronizedHeight
    (w.quietLoop deadline timeout (rounds + 1) ⟨(streak taken).count, (streak taken).last⟩).run
        taken =
      if quietSampleCount ≤ (streak (taken + 1)).count then .ok () (taken + 1)
      else (w.quietLoop deadline timeout rounds
        ⟨(streak (taken + 1)).count, (streak (taken + 1)).last⟩).run (taken + 1) := by
  intro streak
  have hnext : Quiet.next ⟨(streak taken).count, (streak taken).last⟩ (w.sample taken) =
      ⟨(streak (taken + 1)).count, (streak (taken + 1)).last⟩ := next_eq_observe _ taken
  simp only [quietLoop, EStateM.run_bind, EStateM.run_get]
  rw [if_pos (show w.monotonic taken < deadline from h), EStateM.run_bind, EStateM.run_set]
  dsimp only
  rw [hnext, apply_ite (fun loop : EStateM PyError Nat Unit => loop.run (taken + 1))]
  rfl

/-- The loop returns at the first timely sample that ends a quiet run, and times out if there is
none, by induction on the rounds.  The rounds suffice to pass the deadline. -/
theorem run_quietLoop (timeout : String) {rounds taken : Nat}
    (hrounds : ¬w.Timely deadline (taken + rounds)) :
    let streak := Streak.after w.synchronizedHeight taken
    let result := (w.quietLoop deadline timeout (rounds + 1) ⟨streak.count, streak.last⟩).run taken
    (∃ i, taken ≤ i ∧ result = .ok () (i + 1) ∧ w.Timely deadline i ∧ w.EndsQuietRun i ∧
      ∀ j < i, taken ≤ j → ¬w.EndsQuietRun j) ∨
    (∃ taken', result = .error (quietTimeout timeout) taken') ∧
      ∀ i, taken ≤ i → w.Timely deadline i → ¬w.EndsQuietRun i := by
  intro streak result
  induction rounds generalizing taken with
  | zero =>
    refine .inr ⟨⟨taken, run_quietLoop_late timeout hrounds⟩, fun i hi htimely => ?_⟩
    exact absurd (htimely.of_le hi) hrounds
  | succ rounds ih =>
    by_cases htimely : w.Timely deadline taken
    · have hstep : result = _ := run_quietLoop_timely timeout htimely
      rw [hstep]
      by_cases hquiet : w.EndsQuietRun taken
      · rw [if_pos ((w.endsQuietRun_iff taken).mp hquiet)]
        exact .inl ⟨taken, le_refl _, rfl, htimely, hquiet, fun j hlt hle => by omega⟩
      · rw [if_neg (mt (w.endsQuietRun_iff taken).mpr hquiet)]
        have hlater {i : Nat} (hi : taken ≤ i) : i = taken ∨ taken + 1 ≤ i := by omega
        obtain ⟨i, hi, hresult, hbefore, hends, hfirst⟩ | ⟨herror, hnone⟩ := ih
            (show ¬w.Timely deadline (taken + 1 + rounds) by rwa [show taken + 1 + rounds =
              taken + (rounds + 1) by omega])
        · refine .inl ⟨i, by omega, hresult, hbefore, hends, fun j hj hle => ?_⟩
          obtain rfl | hle := hlater hle
          · exact hquiet
          · exact hfirst j hj hle
        · refine .inr ⟨herror, fun i hi hi' => ?_⟩
          obtain rfl | hi := hlater hi
          · exact hquiet
          · exact hnone i hi hi'
    · refine .inr ⟨⟨taken, run_quietLoop_late timeout htimely⟩, fun i hi hi' => ?_⟩
      exact absurd (hi'.of_le hi) htimely

/-- The wait returns right after the first timely sample that ends a quiet run, with no sample taken
later, and raises `TimeoutError` exactly if there is none. -/
theorem waitForQuietChainTip_spec (w : Samples) (deadline : Rat) (timeout : String) :
    let result := (w.waitForQuietChainTip deadline timeout).run 0
    (∀ taken, result = .ok () taken ↔ ∃ i, taken = i + 1 ∧ w.Timely deadline i ∧
      w.EndsQuietRun i ∧ ∀ j < i, ¬w.EndsQuietRun j) ∧
    ((∃ taken, result = .error (quietTimeout timeout) taken) ↔
      ∀ i, w.Timely deadline i → ¬w.EndsQuietRun i) ∧
    ∀ error taken, result = .error error taken → error = quietTimeout timeout := by
  intro result
  obtain ⟨i, -, hresult, htimely, hends, hfirst⟩ | ⟨⟨taken', hresult⟩, hnone⟩ :=
    @run_quietLoop w deadline timeout _ 0 (by
      rw [Nat.zero_add]
      exact not_timely_rounds w deadline)
  · have hresult : result = .ok () (i + 1) := hresult
    refine ⟨fun taken => ⟨fun h => ?_, ?_⟩, ⟨?_, fun h => absurd hends (h i htimely)⟩, ?_⟩
    · rw [hresult] at h
      cases h
      exact ⟨i, rfl, htimely, hends, fun j hj => hfirst j hj (Nat.zero_le j)⟩
    · rintro ⟨i', rfl, -, hends', hfirst'⟩
      -- two first samples are one
      obtain hlt | rfl | hlt := Nat.lt_trichotomy i i'
      · exact absurd hends (hfirst' i hlt)
      · exact hresult
      · exact absurd hends' (hfirst i' hlt (Nat.zero_le i'))
    · rintro ⟨taken, h⟩
      rw [hresult] at h
      cases h
    · intro error taken h
      rw [hresult] at h
      cases h
  · have hresult : result = .error (quietTimeout timeout) taken' := hresult
    refine ⟨fun taken => ⟨fun h => ?_, ?_⟩, ⟨fun _ i => hnone i (Nat.zero_le i), fun _ => ?_⟩, ?_⟩
    · rw [hresult] at h
      cases h
    · rintro ⟨i, -, htimely, hends, -⟩
      exact absurd hends (hnone i (Nat.zero_le i) htimely)
    · exact ⟨taken', hresult⟩
    · intro error taken h
      rw [hresult] at h
      cases h
      rfl

end Samples

/-- A synchronised chain at height 5. -/
def synchronizedInfo : Members :=
  [("blocks", .int 5), ("headers", .int 5), ("initialblockdownload", .bool false),
    ("verificationprogress", .int 1)]

theorem sleeps_halfSeconds (i : Nat) :
    (i : Rat) / 2 + quietSampleIntervalSeconds ≤ ((i + 1 : Nat) : Rat) / 2 := by
  unfold quietSampleIntervalSeconds
  push_cast
  linarith

/-- A sample each half second; the third one fails. -/
def interruptedSamples : Samples where
  monotonic i := i / 2
  sample i := if i = 2 then .error "connection refused" else .ok synchronizedInfo
  sleeps := sleeps_halfSeconds

theorem synchronizedHeight_interrupted {i : Nat} (h : i ≠ 2) :
    interruptedSamples.synchronizedHeight i = some 5 := by
  have hsample : interruptedSamples.sample i = .ok synchronizedInfo := if_neg h
  rw [Samples.synchronizedHeight, hsample]
  decide +kernel

/-- An earlier run has the failed sample in it. -/
theorem eight_le_of_endsQuietRun {i : Nat} (h : interruptedSamples.EndsQuietRun i) : 8 ≤ i := by
  obtain ⟨height, hrun⟩ := h
  have hfive := (hrun 5 (by decide)).1
  by_contra hearly
  have hfailed := (hrun (i - 2) (by unfold quietSampleCount; omega)).2
  rw [show i - (i - 2) = 2 by omega] at hfailed
  cases hfailed

/-- Six samples are quiet after the failed one; before the fourth second there are fewer. -/
theorem waitForQuietChainTip_spec_interrupted :
    (interruptedSamples.waitForQuietChainTip 60 "60").run 0 = .ok () 9 ∧
      ∃ taken, (interruptedSamples.waitForQuietChainTip 4 "4").run 0 =
        .error (Samples.quietTimeout "4") taken := by
  refine ⟨((Samples.waitForQuietChainTip_spec interruptedSamples 60 "60").1 9).mpr
    ⟨8, rfl, ?_, ⟨5, fun j hj => ?_⟩, fun i hi hends => ?_⟩,
    (Samples.waitForQuietChainTip_spec interruptedSamples 4 "4").2.1.mpr fun i htimely hends => ?_⟩
  · show ((8 : Nat) : Rat) / 2 < 60
    norm_num
  · unfold quietSampleCount at hj
    exact ⟨by omega, synchronizedHeight_interrupted (by omega)⟩
  · have hlate := eight_le_of_endsQuietRun hends
    omega
  · have hlate : ((8 : Nat) : Rat) ≤ i := Nat.cast_le.mpr (eight_le_of_endsQuietRun hends)
    have hearly : (i : Rat) / 2 < 4 := htimely
    push_cast at hlate
    linarith

end CoinjoinEmulator.BitcoinReadiness
