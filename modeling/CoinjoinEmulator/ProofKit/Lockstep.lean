import CoinjoinEmulator.ProofKit.Triple

/-! Two programs side by side: from related states they return the same value or raise the same
exception, in related states. -/

namespace ProofKit

variable {ε σ α β : Type}

/-- From states with `R` the programs return one value in states with `Q`, or raise one exception in
states with `E`. -/
def Lockstep (R : σ → σ → Prop) (program program' : EStateM ε σ α) (Q : α → σ → σ → Prop)
    (E : σ → σ → Prop) : Prop :=
  ∀ s s', R s s' →
    (∃ a t t', program.run s = .ok a t ∧ program'.run s' = .ok a t' ∧ Q a t t') ∨
    ∃ error t t', program.run s = .error error t ∧ program'.run s' = .error error t' ∧ E t t'

variable {R R' E E' : σ → σ → Prop} {Q Q' : α → σ → σ → Prop} {program program' : EStateM ε σ α}

theorem Lockstep.mono (h : Lockstep R program program' Q E) (hpre : ∀ s s', R' s s' → R s s')
    (hpost : ∀ a s s', Q a s s' → Q' a s s') (herror : ∀ s s', E s s' → E' s s') :
    Lockstep R' program program' Q' E' := by
  intro s s' hs
  obtain ⟨a, t, t', hrun, hrun', hQ⟩ | ⟨error, t, t', hrun, hrun', hE⟩ := h s s' (hpre s s' hs)
  · exact .inl ⟨a, t, t', hrun, hrun', hpost a t t' hQ⟩
  · exact .inr ⟨error, t, t', hrun, hrun', herror t t' hE⟩

theorem Lockstep.pure {a : α} (h : ∀ s s', R s s' → Q a s s') :
    Lockstep R (pure a : EStateM ε σ α) (pure a) Q E := fun s s' hs =>
  .inl ⟨a, s, s', rfl, rfl, h s s' hs⟩

theorem Lockstep.throw {error : ε} (h : ∀ s s', R s s' → E s s') :
    Lockstep R (throw error : EStateM ε σ α) (throw error) Q E := fun s s' hs =>
  .inr ⟨error, s, s', rfl, rfl, h s s' hs⟩

theorem Lockstep.modify {f f' : σ → σ} {Q : Unit → σ → σ → Prop}
    (h : ∀ s s', R s s' → Q () (f s) (f' s')) :
    Lockstep R (modify f : EStateM ε σ Unit) (modify f') Q E := fun s s' hs =>
  .inl ⟨(), f s, f' s', rfl, rfl, h s s' hs⟩

theorem Lockstep.bind {next next' : α → EStateM ε σ β} {T : β → σ → σ → Prop}
    (h : Lockstep R program program' Q E)
    (hnext : ∀ a, Lockstep (Q a) (next a) (next' a) T E) :
    Lockstep R (program >>= next) (program' >>= next') T E := by
  intro s s' hs
  simp only [EStateM.run_bind]
  obtain ⟨a, t, t', hrun, hrun', hQ⟩ | ⟨error, t, t', hrun, hrun', hE⟩ := h s s' hs
  · simp only [hrun, hrun']
    exact hnext a t t' hQ
  · simp only [hrun, hrun']
    exact .inr ⟨error, t, t', rfl, rfl, hE⟩

/-- It is enough to look at two states that are related. -/
theorem Lockstep.of_states
    (h : ∀ s s', R s s' → Lockstep (fun t t' => t = s ∧ t' = s') program program' Q E) :
    Lockstep R program program' Q E := fun s s' hs => h s s' hs s s' ⟨rfl, rfl⟩

/-- What follows may use the states that were read. -/
theorem Lockstep.get_bind {next next' : σ → EStateM ε σ α}
    (h : ∀ s s', R s s' → Lockstep (fun t t' => t = s ∧ t' = s') (next s) (next' s') Q E) :
    Lockstep R (MonadState.get >>= next) (MonadState.get >>= next') Q E := fun s s' hs =>
  h s s' hs s s' ⟨rfl, rfl⟩

theorem Lockstep.ite (c : Prop) [Decidable c] {other other' : EStateM ε σ α}
    (h : c → Lockstep R program program' Q E) (h' : ¬c → Lockstep R other other' Q E) :
    Lockstep R (if c then program else other) (if c then program' else other') Q E := by
  split
  · exact h ‹_›
  · exact h' ‹_›

/-- What the second program leaves on its own holds, too. -/
theorem Lockstep.and_right {P' : σ → Prop} {Q' : α → σ → Prop} {E' : σ → Prop}
    (h : Lockstep R program program' Q E) (h' : Triple P' program' Q' E') :
    Lockstep (fun s s' => R s s' ∧ P' s') program program' (fun a t t' => Q a t t' ∧ Q' a t')
      (fun t t' => E t t' ∧ E' t') := by
  rintro s s' ⟨hs, hs'⟩
  have halone := h' s' hs'
  obtain ⟨a, t, t', hrun, hrun', hQ⟩ | ⟨error, t, t', hrun, hrun', hE⟩ := h s s' hs
  · rw [hrun'] at halone
    exact .inl ⟨a, t, t', hrun, hrun', hQ, halone⟩
  · rw [hrun'] at halone
    exact .inr ⟨error, t, t', hrun, hrun', hE, halone⟩

/-- From two fixed states, the post-relation may use the run of the first program. -/
theorem Lockstep.and_run {s s' : σ} (h : Lockstep R program program' Q E) (hs : R s s') :
    Lockstep (fun t t' => t = s ∧ t' = s') program program'
      (fun a t t' => Q a t t' ∧ program.run s = .ok a t) E := by
  rintro _ _ ⟨rfl, rfl⟩
  obtain ⟨a, t, t', hrun, hrun', hQ⟩ | herror := h _ _ hs
  · exact .inl ⟨a, t, t', hrun, hrun', hQ, hrun⟩
  · exact .inr herror

theorem Lockstep.stateAfter (h : Lockstep R program program' (fun _ => E) E) {s s' : σ}
    (hs : R s s') : E (stateAfter program s) (stateAfter program' s') := by
  obtain ⟨a, t, t', hrun, hrun', hQ⟩ | ⟨error, t, t', hrun, hrun', hE⟩ := h s s' hs
  · rwa [stateAfter_of_ok hrun, stateAfter_of_ok hrun']
  · rwa [stateAfter_of_error hrun, stateAfter_of_error hrun']

end ProofKit
