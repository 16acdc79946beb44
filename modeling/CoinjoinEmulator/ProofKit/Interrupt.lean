import CoinjoinEmulator.ProofKit.Effect

/-! Programs that append to a log and may be cut off: the exact condition under which a program
returns. -/

namespace ProofKit

variable {ε E α β : Type}

/-- The program appends `added` to the log and returns `value` when the condition holds.  It raises
an exception otherwise. -/
structure ReturnsWhen (program : EStateM ε (List E) α) (condition : Prop) (value : α)
    (added : List E) : Prop where
  returns : condition → ∀ log, program.run log = .ok value (log ++ added)
  raises : ¬condition → ∀ log, ∃ error log', program.run log = .error error log'

variable {program : EStateM ε (List E) α} {condition condition' : Prop} {value : α}
  {added added' : List E}

theorem ReturnsWhen.pure (value : α) :
    ReturnsWhen (pure value : EStateM ε (List E) α) True value [] where
  returns _ log := by
    rw [List.append_nil]
    rfl
  raises h := absurd trivial h

theorem ReturnsWhen.append (added : List E) :
    ReturnsWhen (modify (· ++ added) : EStateM ε (List E) Unit) True () added where
  returns _ _ := rfl
  raises h := absurd trivial h

/-- The second program runs, on what the first one returns, if the first one returns. -/
theorem ReturnsWhen.bind {next : α → EStateM ε (List E) β} {result : β}
    (h : ReturnsWhen program condition value added)
    (hnext : ReturnsWhen (next value) condition' result added') :
    ReturnsWhen (program >>= next) (condition ∧ condition') result (added ++ added') where
  returns := by
    rintro ⟨hc, hc'⟩ log
    rw [EStateM.run_bind, h.returns hc log]
    simpa only [List.append_assoc] using hnext.returns hc' (log ++ added)
  raises := by
    intro hnot log
    rw [EStateM.run_bind]
    by_cases hc : condition
    · rw [h.returns hc log]
      exact hnext.raises (fun hc' => hnot ⟨hc, hc'⟩) _
    · obtain ⟨error, log', hrun⟩ := h.raises hc log
      exact ⟨error, log', by rw [hrun]⟩

theorem ReturnsWhen.congr {value' : α} (h : ReturnsWhen program condition value added)
    (hcondition : condition' ↔ condition) (hvalue : value' = value) (hadded : added' = added) :
    ReturnsWhen program condition' value' added' where
  returns hc := hvalue ▸ hadded ▸ h.returns (hcondition.1 hc)
  raises hc := h.raises fun hc' => hc (hcondition.2 hc')

/-- The result that leaves this value or exception in this state. -/
def resultOf {σ : Type} : Except ε α → σ → EStateM.Result ε σ α
  | .ok a, s => .ok a s
  | .error error, s => .error error s

/-- The handler runs on what the body appended before it raised. -/
theorem ReturnsWhen.tryCatch {body : EStateM ε (List E) α} {handler : ε → EStateM ε (List E) α}
    {r : Except ε α} (hbody : ∀ log, body.run log = resultOf r (log ++ added))
    (h : ReturnsWhen (match r with | .ok a => Pure.pure a | .error error => handler error)
      condition value added') :
    ReturnsWhen (tryCatch body handler) condition value (added ++ added') := by
  have hrun : ∀ log, (MonadExcept.tryCatch body handler).run log =
      (match r with | .ok a => Pure.pure a | .error error => handler error).run
        (log ++ added) := by
    intro log
    rw [run_tryCatch, hbody log]
    cases r <;> rfl
  refine ⟨fun hc log => ?_, fun hc log => ?_⟩
  · rw [hrun, ← List.append_assoc]
    exact h.returns hc _
  · rw [hrun]
    exact h.raises hc _

/-- The exact condition under which a program returns with a property of its value and log. -/
theorem ReturnsWhen.result_iff (h : ReturnsWhen program condition value added)
    (Q : α → List E → Prop) :
    (∃ result log, program.run [] = .ok result log ∧ Q result log) ↔
      condition ∧ Q value added := by
  by_cases hc : condition
  · rw [h.returns hc [], List.nil_append]
    refine ⟨?_, fun hQ => ⟨value, added, rfl, hQ.2⟩⟩
    rintro ⟨result, log, hresult, hQ⟩
    cases hresult
    exact ⟨hc, hQ⟩
  · obtain ⟨error, log', hrun⟩ := h.raises hc []
    rw [hrun]
    exact ⟨fun ⟨_, _, hresult, _⟩ => (nomatch hresult), fun hboth => absurd hboth.1 hc⟩

end ProofKit
