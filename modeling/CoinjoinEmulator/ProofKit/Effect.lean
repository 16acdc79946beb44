import Mathlib.Order.Defs.Unbundled

/-! Programs that change a state and may raise an exception.  An exception keeps the state that it
was raised in. -/

namespace ProofKit

variable {ε σ α β : Type}

/-- The state that a result leaves, whether it is a value or an exception. -/
def resultState : EStateM.Result ε σ α → σ
  | .ok _ s => s
  | .error _ s => s

/-- The state that a program leaves. -/
def stateAfter (program : EStateM ε σ α) (s : σ) : σ := resultState (program.run s)

theorem stateAfter_of_ok {program : EStateM ε σ α} {s s' : σ} {a : α}
    (h : program.run s = .ok a s') : stateAfter program s = s' := by
  rw [stateAfter, h]
  rfl

theorem stateAfter_of_error {program : EStateM ε σ α} {s s' : σ} {error : ε}
    (h : program.run s = .error error s') : stateAfter program s = s' := by
  rw [stateAfter, h]
  rfl

/-! ### Runs of the control structures -/

@[simp] theorem run_ofExcept (value : Except ε α) (s : σ) :
    (ofExcept value : EStateM ε σ α).run s =
      match value with
      | .ok a => .ok a s
      | .error error => .error error s := by
  cases value <;> rfl

theorem run_ite (c : Prop) [Decidable c] (program program' : EStateM ε σ α) (s : σ) :
    (if c then program else program').run s = if c then program.run s else program'.run s := by
  split <;> rfl

theorem run_throw (error : ε) (s : σ) :
    (throw error : EStateM ε σ α).run s = .error error s := rfl

theorem run_tryCatch (program : EStateM ε σ α) (handler : ε → EStateM ε σ α) (s : σ) :
    (tryCatch program handler).run s =
      match program.run s with
      | .ok a s' => .ok a s'
      | .error error s' => (handler error).run s' := by
  show EStateM.tryCatch program handler s =
    match program s with
    | .ok a s' => .ok a s'
    | .error error s' => handler error s'
  delta EStateM.tryCatch
  cases program s <;> rfl

theorem run_observing (program : EStateM ε σ α) (s : σ) :
    (observing program).run s =
      match program.run s with
      | .ok a s' => .ok (.ok a) s'
      | .error error s' => .ok (.error error) s' := by
  unfold observing
  rw [run_tryCatch, EStateM.run_bind]
  cases program.run s <;> rfl

theorem exists_run_observing (program : EStateM ε σ α) (s : σ) :
    ∃ r, (observing program).run s = .ok r (stateAfter program s) := by
  rw [run_observing, stateAfter]
  cases program.run s with
  | ok a s' => exact ⟨.ok a, rfl⟩
  | error error s' => exact ⟨.error error, rfl⟩

theorem stateAfter_observing (program : EStateM ε σ α) (s : σ) :
    stateAfter (observing program) s = stateAfter program s := by
  rw [stateAfter, stateAfter, run_observing]
  cases program.run s <;> rfl

theorem run_tryFinally (program : EStateM ε σ α) (final : EStateM ε σ Unit) (s : σ) :
    (tryFinally program final).run s =
      match program.run s with
      | .ok a s' =>
        match final.run s' with
        | .ok _ s'' => .ok a s''
        | .error error s'' => .error error s''
      | .error error s' =>
        match final.run s' with
        | .ok _ s'' => .error error s''
        | .error error' s'' => .error error' s'' := by
  show (EStateM.map _ (tryFinally' program fun _ => final)).run s = _
  simp only [EStateM.run, EStateM.map, tryFinally']
  cases program s with
  | ok a s' =>
    simp only
    cases final s' <;> rfl
  | error error s' =>
    simp only
    cases final s' <;> rfl

/-- A sequence that returns is one in which both programs return. -/
theorem of_run_bind_eq_ok {program : EStateM ε σ α} {next : α → EStateM ε σ β} {s s'' : σ} {b : β}
    (h : (program >>= next).run s = .ok b s'') :
    ∃ a s', program.run s = .ok a s' ∧ (next a).run s' = .ok b s'' := by
  rw [EStateM.run_bind] at h
  cases hrun : program.run s with
  | ok a s' =>
    rw [hrun] at h
    exact ⟨a, s', rfl, h⟩
  | error error s' =>
    rw [hrun] at h
    cases h

theorem of_run_tryFinally_eq_ok {program : EStateM ε σ α} {final : EStateM ε σ Unit} {s s'' : σ}
    {a : α} (h : (tryFinally program final).run s = .ok a s'') :
    ∃ s', program.run s = .ok a s' ∧ final.run s' = .ok () s'' := by
  rw [run_tryFinally] at h
  cases hrun : program.run s with
  | ok a' s' =>
    rw [hrun] at h
    cases hfinal : final.run s' with
    | ok _ s₁ =>
      simp only [hfinal] at h
      cases h
      exact ⟨s', rfl, hfinal⟩
    | error error s₁ =>
      simp only [hfinal] at h
      cases h
  | error error s' =>
    rw [hrun] at h
    cases hfinal : final.run s' <;> simp only [hfinal] at h <;> cases h

/-- The last block runs in the state that the program leaves, whether or not it raised. -/
theorem stateAfter_tryFinally (program : EStateM ε σ α) (final : EStateM ε σ Unit) (s : σ) :
    stateAfter (tryFinally program final) s = stateAfter final (stateAfter program s) := by
  simp only [stateAfter, run_tryFinally]
  cases program.run s with
  | ok a s' =>
    simp only [resultState]
    cases final.run s' <;> rfl
  | error error s' =>
    simp only [resultState]
    cases final.run s' <;> rfl

theorem stateAfter_bind_pure (program : EStateM ε σ α) (f : α → β) (s : σ) :
    stateAfter (program >>= fun a => pure (f a)) s = stateAfter program s := by
  simp only [stateAfter, EStateM.run_bind]
  cases program.run s <;> rfl

/-- A program on a part of the state. -/
def zoom {τ : Type} (part : τ → σ) (put : τ → σ → τ) (program : EStateM ε σ α) : EStateM ε τ α :=
  fun t =>
    match program.run (part t) with
    | .ok a s => .ok a (put t s)
    | .error error s => .error error (put t s)

theorem run_zoom {τ : Type} (part : τ → σ) (put : τ → σ → τ) (program : EStateM ε σ α) (t : τ) :
    (zoom part put program).run t =
      match program.run (part t) with
      | .ok a s => .ok a (put t s)
      | .error error s => .error error (put t s) := rfl

/-- The items of a loop that an effectful test keeps. -/
def selectM (keep : α → EStateM ε σ Bool) : List α → EStateM ε σ (List α)
  | [] => pure []
  | a :: rest => do
    let kept ← keep a
    let others ← selectM keep rest
    return if kept then a :: others else others

theorem run_selectM {keep : α → EStateM ε σ Bool} {p : α → Bool} {s : σ}
    (h : ∀ a, (keep a).run s = .ok (p a) s) (items : List α) :
    (selectM keep items).run s = .ok (items.filter p) s := by
  induction items with
  | nil => rfl
  | cons a rest ih =>
    simp only [selectM, EStateM.run_bind, h, ih, EStateM.run_pure, List.filter_cons]

/-! ### Relations that a program keeps -/

/-- The state before a program is related to the state that it leaves. -/
def Keeps (R : σ → σ → Prop) (program : EStateM ε σ α) : Prop := ∀ s, R s (stateAfter program s)

section Keeps

variable {R : σ → σ → Prop}

theorem Keeps.modify {f : σ → σ} (h : ∀ s, R s (f s)) :
    Keeps R (modify f : EStateM ε σ Unit) := h

theorem Keeps.pure [Std.Refl R] (a : α) : Keeps R (pure a : EStateM ε σ α) := refl_of R

theorem Keeps.throw [Std.Refl R] (error : ε) : Keeps R (throw error : EStateM ε σ α) := refl_of R

theorem Keeps.get [Std.Refl R] : Keeps R (get : EStateM ε σ σ) := refl_of R

theorem Keeps.ofExcept [Std.Refl R] (value : Except ε α) :
    Keeps R (ofExcept value : EStateM ε σ α) := by
  cases value with
  | ok a => exact .pure a
  | error error => exact .throw error

theorem Keeps.bind [IsTrans σ R] {program : EStateM ε σ α} {next : α → EStateM ε σ β}
    (h : Keeps R program) (hnext : ∀ a, Keeps R (next a)) : Keeps R (program >>= next) := by
  intro s
  have hs := h s
  simp only [stateAfter, EStateM.run_bind] at hs ⊢
  cases hrun : program.run s with
  | ok a s' =>
    rw [hrun] at hs
    exact trans_of R hs (hnext a s')
  | error error s' =>
    rw [hrun] at hs
    exact hs

/-- What follows a program keeps the relation from the state that the program leaves. -/
theorem Keeps.stateAfter_bind [Std.Refl R] {program : EStateM ε σ α} {next : α → EStateM ε σ β}
    (hnext : ∀ a, Keeps R (next a)) (s : σ) :
    R (stateAfter program s) (stateAfter (program >>= next) s) := by
  simp only [stateAfter, EStateM.run_bind]
  cases program.run s with
  | ok a s' => exact hnext a s'
  | error error s' => exact refl_of R s'

/-- A program that reads the state first keeps the relation from the state that it read. -/
theorem Keeps.get_bind {next : σ → EStateM ε σ α} (h : ∀ s, R s (stateAfter (next s) s)) :
    Keeps R (MonadState.get >>= next) := h

theorem Keeps.ite (c : Prop) [Decidable c] {program program' : EStateM ε σ α} (h : Keeps R program)
    (h' : Keeps R program') : Keeps R (if c then program else program') := by
  split
  · exact h
  · exact h'

theorem Keeps.tryCatch [IsTrans σ R] {program : EStateM ε σ α} {handler : ε → EStateM ε σ α}
    (h : Keeps R program) (hhandler : ∀ error, Keeps R (handler error)) :
    Keeps R (tryCatch program handler) := by
  intro s
  have hs := h s
  simp only [stateAfter, run_tryCatch] at hs ⊢
  cases hrun : program.run s with
  | ok a s' =>
    rw [hrun] at hs
    exact hs
  | error error s' =>
    rw [hrun] at hs
    exact trans_of R hs (hhandler error s')

theorem Keeps.observing {program : EStateM ε σ α} (h : Keeps R program) :
    Keeps R (observing program) := by
  intro s
  have hs := h s
  simp only [stateAfter, run_observing] at hs ⊢
  cases hrun : program.run s <;> rw [hrun] at hs <;> exact hs

theorem Keeps.tryFinally [IsTrans σ R] {program : EStateM ε σ α} {final : EStateM ε σ Unit}
    (h : Keeps R program) (hfinal : Keeps R final) : Keeps R (tryFinally program final) := by
  intro s
  have hs := h s
  have hrest := hfinal (stateAfter program s)
  simp only [stateAfter, run_tryFinally] at hs hrest ⊢
  cases hrun : program.run s <;> rw [hrun] at hs hrest <;> simp only [resultState] at hs hrest ⊢
  all_goals
    rename_i s'
    cases hfinally : final.run s' <;> rw [hfinally] at hrest <;> exact trans_of R hs hrest

theorem Keeps.zoom {τ : Type} {Q : τ → τ → Prop} {part : τ → σ} {put : τ → σ → τ}
    (h : ∀ t s, Q t (put t s)) (program : EStateM ε σ α) : Keeps Q (zoom part put program) := by
  intro t
  rw [stateAfter, run_zoom]
  cases program.run (part t) <;> exact h t _

/-- A program on a part of the state keeps what follows from what it keeps of the part. -/
theorem Keeps.zoom_of_keeps {τ : Type} {Q : τ → τ → Prop} {part : τ → σ} {put : τ → σ → τ}
    {program : EStateM ε σ α} (h : Keeps R program) (hput : ∀ t s, R (part t) s → Q t (put t s)) :
    Keeps Q (ProofKit.zoom part put program) := by
  intro t
  have hs := h (part t)
  rw [stateAfter, run_zoom]
  rw [stateAfter] at hs
  cases hrun : program.run (part t) <;> rw [hrun] at hs <;> exact hput t _ hs

theorem Keeps.mapM [Std.Refl R] [IsTrans σ R] {f : α → EStateM ε σ β}
    (h : ∀ a, Keeps R (f a)) (items : List α) : Keeps R (items.mapM f) := by
  induction items with
  | nil => exact .pure []
  | cons a rest ih =>
    rw [List.mapM_cons]
    exact (h a).bind fun b => ih.bind fun others => .pure _

theorem Keeps.forM [Std.Refl R] [IsTrans σ R] {body : α → EStateM ε σ Unit}
    (h : ∀ a, Keeps R (body a)) (items : List α) : Keeps R (forM items body) := by
  induction items with
  | nil => exact .pure ()
  | cons a rest ih =>
    rw [List.forM_cons]
    exact (h a).bind fun _ => ih

theorem Keeps.selectM [Std.Refl R] [IsTrans σ R] {keep : α → EStateM ε σ Bool}
    (h : ∀ a, Keeps R (keep a)) (items : List α) : Keeps R (selectM keep items) := by
  induction items with
  | nil => exact .pure []
  | cons a rest ih => exact (h a).bind fun b => ih.bind fun kept => .pure _

end Keeps

end ProofKit
