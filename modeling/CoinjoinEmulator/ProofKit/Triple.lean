import CoinjoinEmulator.ProofKit.Effect

/-! Pre- and postconditions of programs that change a state and may raise an exception. -/

namespace ProofKit

variable {ε σ α β : Type}

/-- From a state with `P` the program returns a value and a state that satisfy `Q`, or it raises an
exception in a state with `E`. -/
def Triple (P : σ → Prop) (program : EStateM ε σ α) (Q : α → σ → Prop) (E : σ → Prop) : Prop :=
  ∀ s, P s →
    match program.run s with
    | .ok a s' => Q a s'
    | .error _ s' => E s'

variable {P P' E E' : σ → Prop} {Q Q' : α → σ → Prop} {program : EStateM ε σ α}

theorem Triple.mono (h : Triple P program Q E) (hpre : ∀ s, P' s → P s)
    (hpost : ∀ a s, Q a s → Q' a s) (herror : ∀ s, E s → E' s) : Triple P' program Q' E' := by
  intro s hs
  have hrun := h s (hpre s hs)
  cases hresult : program.run s with
  | ok a s' =>
    rw [hresult] at hrun
    exact hpost a s' hrun
  | error error s' =>
    rw [hresult] at hrun
    exact herror s' hrun

theorem Triple.pure {a : α} (h : ∀ s, P s → Q a s) :
    Triple P (pure a : EStateM ε σ α) Q E := h

theorem Triple.throw {error : ε} (h : ∀ s, P s → E s) :
    Triple P (throw error : EStateM ε σ α) Q E := h

theorem Triple.modify {f : σ → σ} {Q : Unit → σ → Prop} (h : ∀ s, P s → Q () (f s)) :
    Triple P (modify f : EStateM ε σ Unit) Q E := h

theorem Triple.bind {next : α → EStateM ε σ β} {T : β → σ → Prop} (h : Triple P program Q E)
    (hnext : ∀ a, Triple (Q a) (next a) T E) : Triple P (program >>= next) T E := by
  intro s hs
  have hrun := h s hs
  rw [EStateM.run_bind]
  cases hresult : program.run s with
  | ok a s' =>
    rw [hresult] at hrun
    exact hnext a s' hrun
  | error error s' =>
    rw [hresult] at hrun
    exact hrun

/-- What follows may use the state that was read. -/
theorem Triple.get_bind {next : σ → EStateM ε σ α} (h : ∀ s, P s → Triple (· = s) (next s) Q E) :
    Triple P (MonadState.get >>= next) Q E := fun s hs => h s hs s rfl

theorem Triple.ite (c : Prop) [Decidable c] {program' : EStateM ε σ α}
    (h : c → Triple P program Q E) (h' : ¬c → Triple P program' Q E) :
    Triple P (if c then program else program') Q E := by
  split
  · exact h ‹_›
  · exact h' ‹_›

/-- Beside what the program returns, it keeps a relation from a state with the precondition. -/
theorem Triple.and_keeps {R : σ → σ → Prop} (h : Triple P program Q E) (hkeeps : Keeps R program) :
    Triple P program (fun a s' => Q a s' ∧ ∃ s, P s ∧ R s s')
      (fun s' => E s' ∧ ∃ s, P s ∧ R s s') := by
  intro s hs
  have hrun := h s hs
  have hR := hkeeps s
  rw [ProofKit.stateAfter] at hR
  cases hresult : program.run s <;> rw [hresult] at hrun hR <;> exact ⟨hrun, s, hs, hR⟩

/-- What holds after the program, whether or not it raised. -/
theorem Triple.stateAfter (h : Triple P program (fun _ => E) E) {s : σ} (hs : P s) :
    E (stateAfter program s) := by
  have hrun := h s hs
  rw [ProofKit.stateAfter]
  cases hresult : program.run s <;> rw [hresult] at hrun <;> exact hrun

end ProofKit
