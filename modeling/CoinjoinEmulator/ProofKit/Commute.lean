import CoinjoinEmulator.ProofKit.Effect

/-! Programs that commute with a change of the state, and loops that can make such a change at once
or after all their rounds. -/

namespace ProofKit

variable {ε σ α β : Type}

/-- The result with its state changed. -/
def mapState (f : σ → σ) : EStateM.Result ε σ α → EStateM.Result ε σ α
  | .ok a s => .ok a (f s)
  | .error error s => .error error (f s)

/-- From the states of an invariant, changing the state before a program is changing the state that
it leaves. -/
def Commutes (inv : σ → Prop) (f : σ → σ) (program : EStateM ε σ α) : Prop :=
  ∀ s, inv s → program.run (f s) = mapState f (program.run s)

/-- From the states of an invariant, the program returns in a state of the invariant. -/
def Returns (inv : σ → Prop) (program : EStateM ε σ α) : Prop :=
  ∀ s, inv s → ∃ a s', program.run s = .ok a s' ∧ inv s'

/-- From this state, what the program returns and leaves is good, if it returns. -/
def IfReturns (program : EStateM ε σ α) (good : α → σ → Prop) (s : σ) : Prop :=
  ∀ a s', program.run s = .ok a s' → good a s'

theorem ifReturns_of_ok {program : EStateM ε σ α} {good : α → σ → Prop} {s s' : σ} {a : α}
    (h : program.run s = .ok a s') : good a s' ↔ IfReturns program good s := by
  refine ⟨fun hgood b s'' hrun => ?_, fun hreturns => hreturns a s' h⟩
  rw [h] at hrun
  cases hrun
  exact hgood

theorem ifReturns_of_error {program : EStateM ε σ α} {good : α → σ → Prop} {s s' : σ} {error : ε}
    (h : program.run s = .error error s') : IfReturns program good s := by
  intro a s'' hrun
  rw [h] at hrun
  cases hrun

instance decidableIfReturns (program : EStateM ε σ α) {good : α → σ → Prop}
    [∀ a s, Decidable (good a s)] (s : σ) : Decidable (IfReturns program good s) :=
  match h : program.run s with
  | .ok a s' => decidable_of_iff (good a s') (ifReturns_of_ok h)
  | .error _ _ => isTrue (ifReturns_of_error h)

section Returns

variable {inv : σ → Prop}

theorem Returns.pure (a : α) : Returns inv (pure a : EStateM ε σ α) := fun s hs => ⟨a, s, rfl, hs⟩

theorem Returns.bind {program : EStateM ε σ α} {next : α → EStateM ε σ β}
    (h : Returns inv program) (hnext : ∀ a, Returns inv (next a)) :
    Returns inv (program >>= next) := by
  intro s hs
  obtain ⟨a, s', hrun, hs'⟩ := h s hs
  simp only [EStateM.run_bind, hrun]
  exact hnext a s' hs'

theorem returns_observing {program : EStateM ε σ α}
    (h : ∀ s, inv s → inv (stateAfter program s)) : Returns inv (observing program) := by
  intro s hs
  obtain ⟨r, hrun⟩ := exists_run_observing program s
  exact ⟨r, _, hrun, h s hs⟩

theorem Returns.mapM {body : α → EStateM ε σ β} {items : List α}
    (h : ∀ a ∈ items, Returns inv (body a)) : Returns inv (items.mapM body) := by
  induction items with
  | nil => exact .pure []
  | cons a rest ih =>
    rw [List.mapM_cons]
    exact (h a List.mem_cons_self).bind fun b =>
      (ih fun b hb => h b (List.mem_cons_of_mem _ hb)).bind fun others => .pure _

end Returns

section Commutes

variable {inv : σ → Prop} {f : σ → σ}

theorem Commutes.pure (a : α) : Commutes inv f (pure a : EStateM ε σ α) := fun _ _ => rfl

/-- A change that leaves the state. -/
theorem Commutes.same (program : EStateM ε σ α) : Commutes inv (fun s => s) program := by
  intro s _
  cases hrun : program.run s <;> rfl

theorem Commutes.congr {g : σ → σ} {program : EStateM ε σ α} (h : Commutes inv f program)
    (hreturns : Returns inv program) (hfg : ∀ s, inv s → f s = g s) : Commutes inv g program := by
  intro s hs
  obtain ⟨a, s', hrun, hs'⟩ := hreturns s hs
  rw [← hfg s hs, h s hs, hrun, mapState, mapState, hfg s' hs']

theorem Commutes.bind {program : EStateM ε σ α} {next : α → EStateM ε σ β}
    (h : Commutes inv f program) (hreturns : Returns inv program)
    (hnext : ∀ a, Commutes inv f (next a)) : Commutes inv f (program >>= next) := by
  intro s hs
  obtain ⟨a, s', hrun, hs'⟩ := hreturns s hs
  simp only [EStateM.run_bind, h s hs, hrun]
  exact hnext a s' hs'

theorem Commutes.bind_pure {program : EStateM ε σ α} (h : Commutes inv f program) (g : α → β) :
    Commutes inv f (program >>= fun a => Pure.pure (g a)) := by
  intro s hs
  simp only [EStateM.run_bind, h s hs]
  cases program.run s <;> rfl

theorem Commutes.observing {program : EStateM ε σ α} (h : Commutes inv f program) :
    Commutes inv f (observing program) := by
  intro s hs
  rw [run_observing, run_observing, h s hs]
  cases program.run s <;> rfl

theorem Commutes.mapM {body : α → EStateM ε σ β} {items : List α}
    (h : ∀ a ∈ items, Commutes inv f (body a)) (hreturns : ∀ a ∈ items, Returns inv (body a)) :
    Commutes inv f (items.mapM body) := by
  induction items with
  | nil => exact .pure []
  | cons a rest ih =>
    rw [List.mapM_cons]
    have hrest := ih (fun b hb => h b (List.mem_cons_of_mem _ hb))
      (fun b hb => hreturns b (List.mem_cons_of_mem _ hb))
    exact (h a List.mem_cons_self).bind (hreturns a List.mem_cons_self) fun b =>
      hrest.bind_pure _

end Commutes

/-! ### A change after each round, or after all rounds -/

/-- What holds when a loop reaches each of its items. -/
def Along (good : α → σ → Prop) (body : α → EStateM ε σ β) : List α → σ → Prop
  | [], _ => True
  | a :: rest, s => good a s ∧ Along good body rest (stateAfter (body a) s)

instance decidableAlong {good : α → σ → Prop} [∀ a s, Decidable (good a s)]
    (body : α → EStateM ε σ β) : ∀ (items : List α) (s : σ), Decidable (Along good body items s)
  | [], _ => isTrue trivial
  | a :: rest, s =>
    have : Decidable (Along good body rest (stateAfter (body a) s)) := decidableAlong body rest _
    inferInstanceAs (Decidable (good a s ∧ Along good body rest (stateAfter (body a) s)))

section Later

variable {inv : σ → Prop} {good : α → σ → Prop} {now : α → EStateM ε σ Unit}
  {body : α → EStateM ε σ β} {later : α × β → EStateM ε σ Unit} {items : List α}

/-- A loop that ends each round with a change of the state agrees with the loop that makes all
changes after its rounds, if each change commutes with the rounds of the later items. -/
theorem run_mapM_later (hbody : ∀ a ∈ items, Returns inv (body a))
    (hlater : ∀ a ∈ items, ∀ b, Returns inv (later (a, b)))
    (hnow : ∀ a ∈ items, ∀ s, inv s → good a s →
      (now a).run s = (body a >>= fun b => later (a, b)).run s)
    (hcommutes : items.Pairwise fun a a' => ∀ b,
      Commutes inv (stateAfter (later (a, b))) (body a'))
    {s : σ} (hs : inv s) (hgood : Along good now items s) :
    (do
      let results ← items.mapM body
      forM (items.zip results) later).run s = (forM items now).run s := by
  induction items generalizing s with
  | nil => rfl
  | cons a rest ih =>
    obtain ⟨hfirst, hpairs⟩ := List.pairwise_cons.mp hcommutes
    obtain ⟨hgood, halong⟩ := hgood
    obtain ⟨b, s', hrun, hs'⟩ := hbody a List.mem_cons_self s hs
    obtain ⟨_, s₁, hmade, hs₁⟩ := hlater a List.mem_cons_self b s' hs'
    have hround : (now a).run s = .ok () s₁ := by
      simp only [hnow a List.mem_cons_self s hs hgood, EStateM.run_bind, hrun, hmade]
    rw [stateAfter_of_ok hround] at halong
    have hrest := ih (fun c hc => hbody c (List.mem_cons_of_mem _ hc))
      (fun c hc => hlater c (List.mem_cons_of_mem _ hc))
      (fun c hc => hnow c (List.mem_cons_of_mem _ hc)) hpairs hs₁ halong
    -- the rounds of the others run on the changed state as on the unchanged one
    have hbodies : ∀ c ∈ rest, Returns inv (body c) := fun c hc =>
      hbody c (List.mem_cons_of_mem _ hc)
    have hcommute := Commutes.mapM (fun c hc => hfirst c hc b) hbodies s' hs'
    obtain ⟨results, s'', hresults, hs''⟩ := Returns.mapM hbodies s' hs'
    obtain ⟨_, s₂, hmade', -⟩ := hlater a List.mem_cons_self b s'' hs''
    rw [stateAfter_of_ok hmade, hresults, mapState, stateAfter_of_ok hmade'] at hcommute
    simp only [EStateM.run_bind, hcommute] at hrest
    simp only [List.mapM_cons, List.forM_cons, EStateM.run_bind, hrun, hresults, hround,
      EStateM.run_pure, List.zip_cons_cons, hmade', hrest]

end Later

end ProofKit
