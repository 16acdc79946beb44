import CoinjoinEmulator.Errors
import CoinjoinEmulator.ProofKit.Emit
import Mathlib.Algebra.Order.Ring.Rat
import Mathlib.Tactic.Linarith

/-! The world of the postmix spends: the wallets and the node behind their calls, a clock, and a log
of what the wallets did. -/

namespace CoinjoinEmulator.Postmix

open ProofKit

/-- `inner` is whatever decides the answers of the wallets and of the node. -/
structure World (σ E : Type) where
  inner : σ
  now : Rat
  log : List E

/-- How long the call took that led to a state, and what becomes of a state while nothing is
called. -/
structure Clock (σ : Type) where
  elapsed : σ → Rat
  elapsed_nonneg : ∀ s, 0 ≤ elapsed s
  wait : σ → σ

namespace World

variable {σ E : Type}

/-- Time does not run backwards, and the log only grows. -/
structure Later (w w' : World σ E) : Prop where
  now_le : w.now ≤ w'.now
  log_prefix : w.log <+: w'.log

instance : Std.Refl (Later (σ := σ) (E := E)) := ⟨fun _ => ⟨le_refl _, List.prefix_refl _⟩⟩

instance : IsTrans (World σ E) Later :=
  ⟨fun _ _ _ h h' => ⟨h.now_le.trans h'.now_le, h.log_prefix.trans h'.log_prefix⟩⟩

variable (clock : Clock σ)

/-- A call led to the state `inner`. -/
def reach (w : World σ E) (inner : σ) : World σ E :=
  { w with inner, now := w.now + clock.elapsed inner }

/-- A call to a wallet or to the node. -/
def call {α : Type} (program : EStateM PyError σ α) : EStateM PyError (World σ E) α :=
  zoom World.inner (reach clock) program

/-- The world when the clock is read next. -/
def waited (w : World σ E) : World σ E := w.reach clock (clock.wait w.inner)

/-- `time.time()`, and `time.monotonic()`. -/
def time : EStateM PyError (World σ E) Rat := do
  modify (waited clock)
  return (← get).now

def sleep (seconds : Rat) : EStateM PyError (World σ E) Unit :=
  modify fun w => { w with now := w.now + seconds }

def note (entry : E) : EStateM PyError (World σ E) Unit :=
  modify fun w => { w with log := w.log ++ [entry] }

/-! ### What the calls change -/

/-- Time passes and the log stays. -/
structure Quiet (w w' : World σ E) : Prop where
  now_le : w.now ≤ w'.now
  log : w'.log = w.log

instance : Std.Refl (Quiet (σ := σ) (E := E)) := ⟨fun _ => ⟨le_refl _, rfl⟩⟩

instance : IsTrans (World σ E) Quiet :=
  ⟨fun _ _ _ h h' => ⟨h.now_le.trans h'.now_le, h'.log.trans h.log⟩⟩

theorem Quiet.later {w w' : World σ E} (h : Quiet w w') : Later w w' :=
  ⟨h.now_le, h.log ▸ List.prefix_refl _⟩

variable {clock}

theorem quiet_reach (w : World σ E) (inner : σ) : Quiet w (w.reach clock inner) :=
  ⟨le_add_of_nonneg_right (clock.elapsed_nonneg inner), rfl⟩

theorem keeps_call {α : Type} (program : EStateM PyError σ α) :
    Keeps Quiet (call clock program : EStateM PyError (World σ E) α) :=
  Keeps.zoom quiet_reach program

theorem quiet_waited (w : World σ E) : Quiet w (w.waited clock) :=
  quiet_reach w (clock.wait w.inner)

theorem keeps_time : Keeps Quiet (time clock : EStateM PyError (World σ E) Rat) := quiet_waited

theorem keeps_sleep {seconds : Rat} (h : 0 ≤ seconds) :
    Keeps Quiet (sleep seconds : EStateM PyError (World σ E) Unit) :=
  fun _ => ⟨le_add_of_nonneg_right h, rfl⟩

theorem later_note (entry : E) : Keeps Later (note entry : EStateM PyError (World σ E) Unit) :=
  fun _ => ⟨le_refl _, List.prefix_append _ _⟩

/-- An entry is noted before the rest of the program runs. -/
theorem emits_note {β : Type} {entry : E} {next : Unit → EStateM PyError (World σ E) β}
    {T : Except PyError β → List E → Prop}
    (hnext : Emits World.log (next ()) fun _ r added => T r (entry :: added)) :
    Emits World.log (note entry >>= next) fun _ => T :=
  emits_bind_append _ (fun _ => rfl) hnext

/-- What keeps the world quiet appends nothing to the log. -/
theorem sameLog_of_quiet {α : Type} {program : EStateM PyError (World σ E) α}
    (h : Keeps Quiet program) : Keeps (SameLog World.log) program := fun w => (h w).log

theorem later_of_quiet {α : Type} {program : EStateM PyError (World σ E) α}
    (h : Keeps Quiet program) : Keeps Later program := fun w => (h w).later

end World

end CoinjoinEmulator.Postmix
