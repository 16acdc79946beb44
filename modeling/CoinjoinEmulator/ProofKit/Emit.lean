import CoinjoinEmulator.ProofKit.Effect

/-! A logic for programs that append to a log: what a program appends, by its outcome. -/

namespace ProofKit

variable {ε σ E α β : Type}

/-- The value or the exception of a result. -/
def outcome : EStateM.Result ε σ α → Except ε α
  | .ok a _ => .ok a
  | .error error _ => .error error

/-- The outcome of `try ... finally ...`: an exception of the final program replaces what came
before. -/
def finallyOutcome (body : Except ε α) : Except ε Unit → Except ε α
  | .ok _ => body
  | .error error => .error error

section Emits

variable (log : σ → List E)

/-- The program appends to the log.  `Q` relates the log before it, its outcome and what it
appends. -/
def Emits (program : EStateM ε σ α) (Q : List E → Except ε α → List E → Prop) : Prop :=
  ∀ s, ∃ added, log (stateAfter program s) = log s ++ added ∧
    Q (log s) (outcome (program.run s)) added

/-- The program appends nothing to the log.  `P` relates the log to its value. -/
def Reads (program : EStateM ε σ α) (P : List E → α → Prop) : Prop :=
  ∀ s, log (stateAfter program s) = log s ∧ ∀ a, outcome (program.run s) = .ok a → P (log s) a

/-- The two states have the same log. -/
def SameLog (s s' : σ) : Prop := log s' = log s

end Emits

variable {log : σ → List E} {Q T : List E → Except ε α → List E → Prop}

theorem Emits.mono {program : EStateM ε σ α} (h : Emits log program Q)
    (himp : ∀ old r added, Q old r added → T old r added) : Emits log program T := by
  intro s
  obtain ⟨added, hlog, hQ⟩ := h s
  exact ⟨added, hlog, himp _ _ _ hQ⟩

theorem Emits.silent {program : EStateM ε σ α} (h : Keeps (SameLog log) program)
    (hQ : ∀ old r, Q old r []) : Emits log program Q := by
  intro s
  refine ⟨[], ?_, hQ _ _⟩
  rw [List.append_nil]
  exact h s

theorem Emits.pure {a : α} (hQ : ∀ old, Q old (.ok a) []) :
    Emits log (pure a : EStateM ε σ α) Q := fun _ => ⟨[], (List.append_nil _).symm, hQ _⟩

theorem Emits.throw {error : ε} (hQ : ∀ old, Q old (.error error) []) :
    Emits log (throw error : EStateM ε σ α) Q := fun _ => ⟨[], (List.append_nil _).symm, hQ _⟩

theorem Emits.modify {f : σ → σ} {Q : List E → Except ε Unit → List E → Prop} {added : List E}
    (hf : ∀ s, log (f s) = log s ++ added) (hQ : ∀ old, Q old (.ok ()) added) :
    Emits log (modify f : EStateM ε σ Unit) Q := fun s => ⟨added, hf s, hQ _⟩

/-- The second program runs on what the first one appended, unless the first one raises. -/
theorem Emits.bind {program : EStateM ε σ α} {next : α → EStateM ε σ β}
    {N : α → List E → Except ε β → List E → Prop} {T : List E → Except ε β → List E → Prop}
    (h : Emits log program Q) (hnext : ∀ a, Emits log (next a) (N a))
    (herror : ∀ old error added, Q old (.error error) added → T old (.error error) added)
    (hok : ∀ old a added r added', Q old (.ok a) added → N a (old ++ added) r added' →
      T old r (added ++ added')) :
    Emits log (program >>= next) T := by
  intro s
  obtain ⟨added, hlog, hQ⟩ := h s
  simp only [stateAfter, EStateM.run_bind] at hlog hQ ⊢
  cases hrun : program.run s with
  | error error s' =>
    rw [hrun] at hlog hQ
    exact ⟨added, hlog, herror _ _ _ hQ⟩
  | ok a s' =>
    rw [hrun] at hlog hQ
    obtain ⟨added', hlog', hN⟩ := hnext a s'
    have hold : log s' = log s ++ added := hlog
    refine ⟨added ++ added', ?_, hok _ _ _ _ _ hQ (hold ▸ hN)⟩
    rw [← List.append_assoc, ← hold]
    exact hlog'

theorem Emits.bind_silent {program : EStateM ε σ α} {next : α → EStateM ε σ β}
    {T : List E → Except ε β → List E → Prop} (h : Keeps (SameLog log) program)
    (herror : ∀ old error, T old (.error error) []) (hnext : ∀ a, Emits log (next a) T) :
    Emits log (program >>= next) T := by
  have hprogram : Emits log program fun _ _ added => added = [] := .silent h fun _ _ => rfl
  refine hprogram.bind hnext ?_ ?_
  · rintro old error added rfl
    exact herror old error
  · rintro old a added r added' rfl hT
    simpa using hT

/-- An entry is appended before the rest of the program runs. -/
theorem emits_bind_append {f : σ → σ} {next : Unit → EStateM ε σ β} (added : List E)
    {T : Except ε β → List E → Prop} (hf : ∀ s, log (f s) = log s ++ added)
    (hnext : Emits log (next ()) fun _ r added' => T r (added ++ added')) :
    Emits log (modify f >>= next) fun _ r added => T r added := by
  have hmodify : Emits log (modify f : EStateM ε σ Unit) fun _ r appended =>
      r = .ok () ∧ appended = added := Emits.modify hf fun _ => ⟨rfl, rfl⟩
  refine hmodify.bind (fun _ => hnext) ?_ ?_
  · rintro old error appended ⟨hr, -⟩
    cases hr
  · rintro old a appended r added' ⟨-, rfl⟩ hT
    exact hT

theorem Emits.tryFinally {program : EStateM ε σ α} {final : EStateM ε σ Unit}
    {F : List E → Except ε Unit → List E → Prop} (h : Emits log program Q)
    (hfinal : Emits log final F)
    (hT : ∀ old r added r' added', Q old r added → F (old ++ added) r' added' →
      T old (finallyOutcome r r') (added ++ added')) :
    Emits log (tryFinally program final) T := by
  intro s
  obtain ⟨added, hlog, hQ⟩ := h s
  obtain ⟨added', hlog', hF⟩ := hfinal (stateAfter program s)
  rw [hlog] at hlog' hF
  refine ⟨added ++ added', ?_, ?_⟩
  · rw [← List.append_assoc, ← hlog']
    simp only [stateAfter, run_tryFinally]
    cases hrun : program.run s <;> simp only [resultState]
    all_goals
      rename_i s'
      cases hfinally : final.run s' <;> rfl
  · have hall := hT _ _ _ _ _ hQ hF
    simp only [stateAfter, run_tryFinally] at hall ⊢
    cases hrun : program.run s <;> rw [hrun] at hall <;> simp only [resultState] at hall ⊢
    all_goals
      rename_i s'
      cases hfinally : final.run s' <;> rw [hfinally] at hall <;> exact hall

/-- What the program appends is kept, and its exception becomes a value. -/
theorem Emits.observing {program : EStateM ε σ α} (h : Emits log program Q) :
    Emits log (observing program) fun old r added =>
      ∃ result, r = .ok result ∧ Q old result added := by
  intro s
  obtain ⟨added, hlog, hQ⟩ := h s
  refine ⟨added, by rw [stateAfter_observing]; exact hlog, outcome (program.run s), ?_, hQ⟩
  rw [run_observing]
  cases program.run s <;> rfl

/-- A program on the part of the state that has the log. -/
theorem Emits.zoom {τ : Type} {part : τ → σ} {put : τ → σ → τ} {program : EStateM ε σ α}
    (h : Emits log program Q) (hput : ∀ t s, part (put t s) = s) :
    Emits (fun t => log (part t)) (ProofKit.zoom part put program) Q := by
  intro t
  obtain ⟨added, hlog, hQ⟩ := h (part t)
  refine ⟨added, ?_⟩
  rw [stateAfter] at hlog ⊢
  rw [run_zoom]
  cases hrun : program.run (part t) <;> rw [hrun] at hlog hQ <;>
    exact ⟨(congrArg log (hput _ _)).trans hlog, hQ⟩

/-- A loop whose bodies compose. -/
theorem Emits.forM {Q : List E → Except ε Unit → List E → Prop} {items : List α}
    {body : α → EStateM ε σ Unit} (hbody : ∀ a ∈ items, Emits log (body a) Q)
    (hnil : ∀ old, Q old (.ok ()) [])
    (hcons : ∀ old added r added', Q old (.ok ()) added → Q (old ++ added) r added' →
      Q old r (added ++ added')) :
    Emits log (forM items body) Q := by
  induction items with
  | nil => exact .pure hnil
  | cons a rest ih =>
    rw [List.forM_cons]
    refine (hbody a (by simp)).bind (fun _ => ih fun b hb => hbody b (List.mem_cons_of_mem _ hb))
      (fun _ _ _ hQ => hQ) ?_
    rintro old ⟨⟩ added r added' hQ hQ'
    exact hcons old added r added' hQ hQ'

/-! ### Programs that only read the log -/

section Reads

variable {P : List E → α → Prop} {P' : List E → β → Prop}

theorem Reads.of_keeps {program : EStateM ε σ α} (h : Keeps (SameLog log) program) :
    Reads log program fun _ _ => True := fun s => ⟨h s, fun _ _ => trivial⟩

theorem Reads.pure {a : α} (hP : ∀ old, P old a) : Reads log (pure a : EStateM ε σ α) P := by
  refine fun s => ⟨rfl, fun b hrun => ?_⟩
  cases hrun
  exact hP _

theorem Reads.throw {error : ε} : Reads log (throw error : EStateM ε σ α) P :=
  fun _ => ⟨rfl, fun _ hrun => nomatch hrun⟩

theorem Reads.ite (c : Prop) [Decidable c] {program program' : EStateM ε σ α}
    (h : c → Reads log program P) (h' : ¬c → Reads log program' P) :
    Reads log (if c then program else program') P := by
  split
  · exact h ‹_›
  · exact h' ‹_›

theorem Reads.bind {program : EStateM ε σ α} {next : α → EStateM ε σ β}
    (h : Reads log program P)
    (hnext : ∀ a, Reads log (next a) fun old b => P old a → P' old b) :
    Reads log (program >>= next) P' := by
  intro s
  obtain ⟨hlog, hP⟩ := h s
  simp only [stateAfter, EStateM.run_bind] at hlog ⊢
  cases hrun : program.run s with
  | error error s' =>
    rw [hrun] at hlog
    refine ⟨hlog, fun b hvalue => ?_⟩
    cases hvalue
  | ok a s' =>
    rw [hrun] at hlog hP
    obtain ⟨hlog', hP'⟩ := hnext a s'
    have hsame : log s' = log s := hlog
    refine ⟨hlog'.trans hsame, fun b hvalue => ?_⟩
    have hb := hP' b hvalue
    rw [hsame] at hb
    exact hb (hP a rfl)

/-- What the program reads before the rest runs. -/
theorem Reads.bind_emits {program : EStateM ε σ α} {next : α → EStateM ε σ β}
    {T : List E → Except ε β → List E → Prop} (h : Reads log program P)
    (herror : ∀ old error, T old (.error error) [])
    (hnext : ∀ a, Emits log (next a) fun old r added => P old a → T old r added) :
    Emits log (program >>= next) T := by
  have hprogram : Emits log program fun old r added =>
      added = [] ∧ ∀ a, r = .ok a → P old a :=
    fun s => ⟨[], (h s).1.trans (List.append_nil _).symm, rfl, (h s).2⟩
  refine hprogram.bind hnext ?_ ?_
  · rintro old error added ⟨rfl, -⟩
    exact herror old error
  · rintro old a added r added' ⟨rfl, hP⟩ hT
    rw [List.append_nil] at hT
    exact hT (hP a rfl)

/-- What an effectful test reads holds of the items that it keeps. -/
theorem Reads.selectM {keep : α → EStateM ε σ Bool}
    (h : ∀ a, Reads log (keep a) fun old kept => kept = true → P old a) (items : List α) :
    Reads log (selectM keep items) fun old kept => ∀ a ∈ kept, P old a := by
  induction items with
  | nil => exact .pure (by simp)
  | cons a rest ih =>
    refine (h a).bind fun kept => ih.bind fun others => .pure ?_
    intro old hothers hkept
    cases kept with
    | false => simpa using hothers
    | true => simpa using ⟨hkept rfl, hothers⟩

end Reads

end ProofKit
