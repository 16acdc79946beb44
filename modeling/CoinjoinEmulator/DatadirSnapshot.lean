import CoinjoinEmulator.Errors
import CoinjoinEmulator.ProofKit.Emit
import Mathlib.Tactic.Set

/-! `snapshot_btc_datadir`: a copy of the running node's datadir, taken between two equal readings
of the chain tip. -/

namespace CoinjoinEmulator.DatadirSnapshot

open ProofKit

/-- A file by its path under the destination. -/
abbrev Path := List String

inductive Call where
  | getBlockCount
  | flushStateToDisk
  | pause
  | download
  | unpause
  | discardCopy
deriving DecidableEq, Repr

/-- What happens around the `n`-th call of a run: the blocks that arrive before it, the exception
that it raises, whether the node is frozen after a pause or an unpause that raised, the files that a
download unpacks, and those that a removal fails to delete. -/
structure Environment (Block : Type) where
  arrives : Nat → List Block
  raises : Nat → Option PyError
  pausedAfter : Nat → Bool
  unpacked : Nat → List Path
  undeletable : Nat → Path → Bool

/-- The blocks above the genesis block, the destination with the call that unpacked each file, and
the calls so far, each with the chain at that time. -/
structure World (Block : Type) where
  chain : List Block
  paused : Bool := false
  dest : Path → Option Nat := fun _ => none
  calls : List (Call × List Block) := []

variable {Block : Type}

abbrev Snapshot (Block : Type) := EStateM PyError (World Block)

/-- Blocks arrive unless the node is frozen, and then a call takes effect. -/
def World.after (env : Environment Block) (call : Call)
    (effect : Nat → World Block → World Block) (w : World Block) : World Block :=
  let chain := if w.paused then w.chain else w.chain ++ env.arrives w.calls.length
  effect w.calls.length { w with chain := chain, calls := w.calls ++ [(call, chain)] }

/-- One call of the node, the driver or the file system. -/
def perform (env : Environment Block) (call : Call) (effect : Nat → World Block → World Block) :
    Snapshot Block Unit := do
  let n := (← get).calls.length
  modify (World.after env call effect)
  match env.raises n with
  | some error => throw error
  | none => return ()

/-- The height of the chain tip. -/
def getBlockCount (env : Environment Block) : Snapshot Block Nat := do
  perform env .getBlockCount fun _ w => w
  return (← get).chain.length

def flushStateToDisk (env : Environment Block) : Snapshot Block Unit :=
  perform env .flushStateToDisk fun _ w => w

/-- Freeze every process of the container. -/
def pause (env : Environment Block) : Snapshot Block Unit :=
  perform env .pause fun n w => { w with paused := (env.raises n).isNone || env.pausedAfter n }

/-- Resume the frozen container. -/
def unpause (env : Environment Block) : Snapshot Block Unit :=
  perform env .unpause fun n w => { w with paused := (env.raises n).isSome && env.pausedAfter n }

/-- Unpack the container path into the destination. -/
def download (env : Environment Block) : Snapshot Block Unit :=
  perform env .download fun n w =>
    { w with dest := fun path => if path ∈ env.unpacked n then some n else w.dest path }

/-- `os.path.basename(src_path.rstrip("/"))`. -/
def copiedName (srcPath : String) : String :=
  String.ofList ((srcPath.toList.reverse.dropWhile (· = '/')).takeWhile (· ≠ '/')).reverse

/-- Whether the file is in the directory that is discarded; the names that stand for the destination
or its parent take the whole destination. -/
def inCopy (srcPath : String) (path : Path) : Bool :=
  decide (copiedName srcPath ∈ ["", ".", ".."]) || decide (path.head? = some (copiedName srcPath))

/-- Remove the unpacked archive; `shutil.rmtree(..., ignore_errors=True)` passes over what it cannot
delete. -/
def discardCopy (env : Environment Block) (srcPath : String) : Snapshot Block Unit :=
  perform env .discardCopy fun n w =>
    { w with dest := fun path =>
        if inCopy srcPath path && !env.undeletable n path then none else w.dest path }

def chainTipRaceRetries : Nat := 3

/-- The attempts that are left. -/
def snapshotAttempts (env : Environment Block) (name srcPath : String) :
    Nat → Snapshot Block Nat
  | 0 => throw (.runtimeError ("the chain tip kept moving during " ++
      toString chainTipRaceRetries ++ " copies of " ++ name ++ ":" ++ srcPath))
  | attempts + 1 => do
    let height ← getBlockCount env
    flushStateToDisk env
    tryFinally (do pause env; download env) (unpause env)
    if (← getBlockCount env) = height then
      return height
    else
      discardCopy env srcPath
      snapshotAttempts env name srcPath attempts

/-- Archive the node's datadir with nothing writing to it; return the snapshot height. -/
def snapshotBtcDatadir (env : Environment Block) (name srcPath : String) : Snapshot Block Nat :=
  snapshotAttempts env name srcPath chainTipRaceRetries

/-! ### One call -/

section Call

variable {env : Environment Block} {call : Call} {effect : Nat → World Block → World Block}

theorem run_perform (env : Environment Block) (call : Call)
    (effect : Nat → World Block → World Block) (w : World Block) :
    (perform env call effect).run w =
      match env.raises w.calls.length with
      | some error => .error error (w.after env call effect)
      | none => .ok () (w.after env call effect) := by
  simp only [perform, EStateM.run_bind, EStateM.run_get, EStateM.run_modify]
  cases env.raises w.calls.length <;> rfl

theorem run_getBlockCount (env : Environment Block) (w : World Block) :
    (getBlockCount env).run w =
      match env.raises w.calls.length with
      | some error => .error error (w.after env .getBlockCount fun _ w => w)
      | none => .ok (w.after env .getBlockCount fun _ w => w).chain.length
          (w.after env .getBlockCount fun _ w => w) := by
  simp only [getBlockCount, EStateM.run_bind, run_perform]
  cases env.raises w.calls.length <;> rfl

theorem emits_perform (heffect : ∀ n w, (effect n w).calls = w.calls) :
    Emits World.calls (perform env call effect) fun _ _ added => ∃ c, added = [(call, c)] := by
  intro w
  refine ⟨[(call, if w.paused then w.chain else w.chain ++ env.arrives w.calls.length)], ?_, _, rfl⟩
  rw [stateAfter, run_perform]
  cases env.raises w.calls.length <;> exact heffect _ _

end Call

/-! ### Every pause is followed by an unpause -/

/-- Each attempted pause is followed by an attempted unpause. -/
def Resumed (calls : List (Call × List Block)) : Prop :=
  ∀ (i : Nat) c, calls[i]? = some (.pause, c) →
    ∃ (j : Nat) (c' : List Block), i < j ∧ calls[j]? = some (.unpause, c')

theorem Resumed.nil : Resumed ([] : List (Call × List Block)) := by
  intro i c hi
  simp at hi

theorem Resumed.singleton {call : Call} (hcall : call ≠ .pause) (c : List Block) :
    Resumed [(call, c)] := by
  intro i c' hi
  cases i with
  | zero =>
    simp only [List.getElem?_cons_zero, Option.some.injEq, Prod.mk.injEq] at hi
    exact absurd hi.1 hcall
  | succ i => simp at hi

theorem Resumed.append {calls calls' : List (Call × List Block)} (h : Resumed calls)
    (h' : Resumed calls') : Resumed (calls ++ calls') := by
  intro i c hi
  rcases Nat.lt_or_ge i calls.length with hlt | hge
  · rw [List.getElem?_append_left hlt] at hi
    obtain ⟨j, c', hij, hj⟩ := h i c hi
    exact ⟨j, c', hij, by rw [List.getElem?_append_left (List.getElem?_eq_some_iff.mp hj).1, hj]⟩
  · rw [List.getElem?_append_right hge] at hi
    obtain ⟨j, c', hij, hj⟩ := h' _ c hi
    refine ⟨calls.length + j, c', by omega, ?_⟩
    rw [List.getElem?_append_right (by omega)]
    simpa using hj

/-- An unpause at the end follows whatever came before. -/
theorem Resumed.append_unpause (calls : List (Call × List Block)) (c : List Block) :
    Resumed (calls ++ [(.unpause, c)]) := by
  intro i c' hi
  rcases Nat.lt_or_ge i calls.length with hlt | hge
  · exact ⟨calls.length, c, hlt, by simp⟩
  · rw [List.getElem?_append_right hge] at hi
    cases hk : i - calls.length <;> simp [hk] at hi

/-- The program appends calls in which each pause is followed by an unpause. -/
def Resumes {α : Type} (program : Snapshot Block α) : Prop :=
  Emits World.calls program fun _ _ added => Resumed added

theorem Resumes.bind {α β : Type} {program : Snapshot Block α} {next : α → Snapshot Block β}
    (h : Resumes program) (hnext : ∀ a, Resumes (next a)) : Resumes (program >>= next) :=
  Emits.bind h hnext (fun _ _ _ h => h) fun _ _ _ _ _ h h' => h.append h'

theorem resumes_perform {env : Environment Block} {call : Call}
    {effect : Nat → World Block → World Block} (hcall : call ≠ .pause)
    (heffect : ∀ n w, (effect n w).calls = w.calls) : Resumes (perform env call effect) := by
  refine (emits_perform heffect).mono ?_
  rintro old r added ⟨c, rfl⟩
  exact .singleton hcall c

theorem resumes_getBlockCount (env : Environment Block) : Resumes (getBlockCount env) := by
  have hperform : Resumes (perform env .getBlockCount fun _ w => w) :=
    resumes_perform (by decide) fun _ _ => rfl
  apply hperform.bind
  intro _
  exact Emits.silent (Keeps.get_bind fun w => rfl) fun _ _ => .nil

theorem resumes_flushStateToDisk (env : Environment Block) : Resumes (flushStateToDisk env) :=
  resumes_perform (by decide) fun _ _ => rfl

theorem resumes_discardCopy (env : Environment Block) (srcPath : String) :
    Resumes (discardCopy env srcPath) :=
  resumes_perform (by decide) fun _ _ => rfl

theorem resumes_copy (env : Environment Block) :
    Resumes (tryFinally (do pause env; download env) (unpause env)) := by
  have hbody : Emits World.calls (do pause env; download env) fun _ _ _ => True :=
    Emits.bind (emits_perform fun _ _ => rfl) (fun _ => emits_perform fun _ _ => rfl)
      (fun _ _ _ _ => trivial) fun _ _ _ _ _ _ _ => trivial
  refine hbody.tryFinally (emits_perform fun _ _ => rfl) ?_
  rintro old r added r' added' - ⟨c, rfl⟩
  exact .append_unpause added c

theorem resumes_snapshotAttempts (env : Environment Block) (name srcPath : String)
    (attempts : Nat) : Resumes (snapshotAttempts env name srcPath attempts) := by
  induction attempts with
  | zero => exact Emits.throw fun _ => .nil
  | succ attempts ih =>
    rw [snapshotAttempts]
    apply (resumes_getBlockCount env).bind
    intro height
    apply (resumes_flushStateToDisk env).bind
    intro _
    apply (resumes_copy env).bind
    intro _
    apply (resumes_getBlockCount env).bind
    intro recheck
    split
    · exact Emits.pure fun _ => .nil
    · exact (resumes_discardCopy env srcPath).bind fun _ => ih

/-! ### One attempt -/

section Attempt

variable {env : Environment Block} {w : World Block}

/-- The world after the node was frozen, copied and resumed. -/
def World.copied (env : Environment Block) (w : World Block) : World Block :=
  let n := w.calls.length
  let chain := w.chain ++ env.arrives n
  { chain := chain
    paused := false
    dest := fun path => if path ∈ env.unpacked (n + 1) then some (n + 1) else w.dest path
    calls := w.calls ++ [(.pause, chain), (.download, chain), (.unpause, chain)] }

theorem run_copy_ok (hw : w.paused = false)
    (hraises : ∀ i < 3, env.raises (w.calls.length + i) = none) :
    (tryFinally (do pause env; download env) (unpause env)).run w = .ok () (w.copied env) := by
  have hpause : env.raises w.calls.length = none := hraises 0 (by omega)
  have hdownload : env.raises (w.calls.length + 1) = none := hraises 1 (by omega)
  have hunpause : env.raises (w.calls.length + 2) = none := hraises 2 (by omega)
  simp [run_tryFinally, pause, download, unpause, run_perform, World.after, World.copied, hw,
    hpause, hdownload, hunpause]

theorem of_run_perform_eq_ok {call : Call} {effect : Nat → World Block → World Block}
    {w' : World Block} (h : (perform env call effect).run w = .ok () w') :
    env.raises w.calls.length = none ∧ w' = w.after env call effect := by
  rw [run_perform] at h
  cases hraises : env.raises w.calls.length with
  | some error =>
    rw [hraises] at h
    cases h
  | none =>
    rw [hraises] at h
    cases h
    exact ⟨rfl, rfl⟩

theorem of_run_getBlockCount_eq_ok {height : Nat} {w' : World Block}
    (h : (getBlockCount env).run w = .ok height w') :
    env.raises w.calls.length = none ∧ w' = w.after env .getBlockCount fun _ w => w := by
  unfold getBlockCount at h
  obtain ⟨_, w₁, hperform, hread⟩ := of_run_bind_eq_ok h
  obtain ⟨hraises, rfl⟩ := of_run_perform_eq_ok hperform
  cases hread
  exact ⟨hraises, rfl⟩

theorem of_run_copy_eq_ok {w' : World Block}
    (h : (tryFinally (do pause env; download env) (unpause env)).run w = .ok () w') :
    ∀ i < 3, env.raises (w.calls.length + i) = none := by
  obtain ⟨w₂, hbody, hunpause⟩ := of_run_tryFinally_eq_ok h
  obtain ⟨_, w₁, hpause, hdownload⟩ := of_run_bind_eq_ok hbody
  obtain ⟨hraises, rfl⟩ := of_run_perform_eq_ok hpause
  obtain ⟨hraises', rfl⟩ := of_run_perform_eq_ok hdownload
  have hraises'' := (of_run_perform_eq_ok hunpause).1
  simp only [World.after, List.length_append, List.length_singleton] at hraises' hraises''
  intro i hi
  match i with
  | 0 => exact hraises
  | 1 => exact hraises'
  | 2 => exact hraises''

/-- The world after the calls of an attempt up to its second query. -/
def World.attempted (env : Environment Block) (w : World Block) : World Block :=
  let n := w.calls.length
  let queried := w.chain ++ env.arrives n
  let flushed := queried ++ env.arrives (n + 1)
  let frozen := flushed ++ env.arrives (n + 2)
  let requeried := frozen ++ env.arrives (n + 5)
  { chain := requeried
    paused := false
    dest := fun path => if path ∈ env.unpacked (n + 3) then some (n + 3) else w.dest path
    calls := w.calls ++ [(.getBlockCount, queried), (.flushStateToDisk, flushed), (.pause, frozen),
      (.download, frozen), (.unpause, frozen), (.getBlockCount, requeried)] }

variable (name srcPath : String) (attempts : Nat)

/-- An attempt in which no call raises returns if the two queries agree. -/
theorem run_attempt (hw : w.paused = false)
    (hraises : ∀ i < 6, env.raises (w.calls.length + i) = none) :
    (snapshotAttempts env name srcPath (attempts + 1)).run w =
      let height := (w.chain ++ env.arrives w.calls.length).length
      if (w.attempted env).chain.length = height then .ok height (w.attempted env)
      else (do discardCopy env srcPath; snapshotAttempts env name srcPath attempts).run
        (w.attempted env) := by
  set queried := w.after env .getBlockCount fun _ w => w with hqueried
  set flushed := queried.after env .flushStateToDisk fun _ w => w with hflushed
  have hquery : env.raises w.calls.length = none := hraises 0 (by omega)
  have hflush : env.raises queried.calls.length = none := by
    have h := hraises 1 (by omega)
    simpa [hqueried, World.after] using h
  have hcopy : ∀ i < 3, env.raises (flushed.calls.length + i) = none := by
    intro i hi
    have h := hraises (i + 2) (by omega)
    have hindex : flushed.calls.length + i = w.calls.length + (i + 2) := by
      simp [hflushed, hqueried, World.after]
      omega
    rw [hindex]
    exact h
  have hpaused : flushed.paused = false := hw
  have hrequery : env.raises (flushed.copied env).calls.length = none := by
    have h := hraises 5 (by omega)
    simpa [World.copied, hflushed, hqueried, World.after] using h
  have hattempted : (flushed.copied env).after env .getBlockCount (fun _ w => w) =
      w.attempted env := by
    simp [World.after, World.copied, World.attempted, hflushed, hqueried, hw]
  simp only [snapshotAttempts, EStateM.run_bind, run_getBlockCount, hquery, flushStateToDisk,
    run_perform, ← hqueried, hflush, ← hflushed, run_copy_ok hpaused hcopy, hrequery, hattempted,
    run_ite, EStateM.run_pure]
  have hheight : queried.chain.length = (w.chain ++ env.arrives w.calls.length).length := by
    simp [hqueried, World.after, hw]
  rw [hheight]

/-- An attempt that returns is one in which no call raised. -/
theorem of_run_attempt_eq_ok (hw : w.paused = false) {height : Nat} {w' : World Block}
    (h : (snapshotAttempts env name srcPath (attempts + 1)).run w = .ok height w') :
    ∀ i < 6, env.raises (w.calls.length + i) = none := by
  rw [snapshotAttempts] at h
  obtain ⟨_, w₁, hrun, h⟩ := of_run_bind_eq_ok h
  obtain ⟨hquery, rfl⟩ := of_run_getBlockCount_eq_ok hrun
  obtain ⟨_, w₂, hrun₂, h⟩ := of_run_bind_eq_ok h
  obtain ⟨hflush, rfl⟩ := of_run_perform_eq_ok hrun₂
  obtain ⟨_, w₃, hrun₃, h⟩ := of_run_bind_eq_ok h
  have hcopy := of_run_copy_eq_ok hrun₃
  rw [run_copy_ok (by exact hw) hcopy] at hrun₃
  cases hrun₃
  obtain ⟨_, w₄, hrun₄, -⟩ := of_run_bind_eq_ok h
  have hrequery := (of_run_getBlockCount_eq_ok hrun₄).1
  simp only [World.after, World.copied, List.length_append, List.length_cons, List.length_nil]
    at hflush hcopy hrequery
  intro i hi
  match i with
  | 0 => exact hquery
  | 1 => exact hflush
  | 2 => exact hcopy 0 (by omega)
  | 3 => exact hcopy 1 (by omega)
  | 4 => exact hcopy 2 (by omega)
  | 5 => exact hrequery

end Attempt

/-! ### Which attempt returns, and what is left of the earlier copies -/

/-- No call before the `n`-th one raises. -/
def Undisturbed (env : Environment Block) (n : Nat) : Prop := ∀ i < n, env.raises i = none

/-- No block arrives between the two queries of the attempt `k`, whose first call is the `7 * k`-th
one.  Nothing arrives while the node is frozen. -/
def TipStays (env : Environment Block) (k : Nat) : Prop :=
  env.arrives (7 * k + 1) = [] ∧ env.arrives (7 * k + 2) = [] ∧ env.arrives (7 * k + 5) = []

/-- The attempt `k` is the first one between whose queries the tip stays, and no call raises before
it is over. -/
structure Settles (env : Environment Block) (k : Nat) : Prop where
  undisturbed : Undisturbed env (7 * k + 6)
  moved : ∀ j < k, ¬TipStays env j
  stays : TipStays env k

/-- An attempt before the attempt `k` unpacked the file, and since then the discards passed it over:
it is outside of the discarded directory, or it could not be deleted. -/
def LeftOver (env : Environment Block) (srcPath : String) (k : Nat) (path : Path) : Prop :=
  ∃ j < k, path ∈ env.unpacked (7 * j + 3) ∧ ∀ m, j ≤ m → m < k →
    (inCopy srcPath path && !env.undeletable (7 * m + 6) path) = false

theorem leftOver_succ {env : Environment Block} {srcPath : String} {k : Nat} {path : Path} :
    LeftOver env srcPath (k + 1) path ↔
      (inCopy srcPath path && !env.undeletable (7 * k + 6) path) = false ∧
        (path ∈ env.unpacked (7 * k + 3) ∨ LeftOver env srcPath k path) := by
  constructor
  · rintro ⟨j, hj, hmem, hkept⟩
    refine ⟨hkept k (by omega) (by omega), ?_⟩
    by_cases hjk : j = k
    · subst hjk
      exact .inl hmem
    · exact .inr ⟨j, by omega, hmem, fun m hjm hmk => hkept m hjm (by omega)⟩
  · rintro ⟨hlast, hmem | ⟨j, hj, hmem, hkept⟩⟩
    · refine ⟨k, by omega, hmem, fun m hkm hmk => ?_⟩
      obtain rfl : m = k := by omega
      exact hlast
    · refine ⟨j, by omega, hmem, fun m hjm hmk => ?_⟩
      by_cases hm : m = k
      · subst hm
        exact hlast
      · exact hkept m hjm (by omega)

/-- The world when the attempt `k` starts: no call has raised, and the destination holds what is
left of the earlier copies. -/
structure AtAttempt (env : Environment Block) (srcPath : String) (k : Nat) (w : World Block) :
    Prop where
  paused_eq : w.paused = false
  length_eq : w.calls.length = 7 * k
  undisturbed : Undisturbed env (7 * k)
  moved : ∀ j < k, ¬TipStays env j
  dest_lt : ∀ path n, w.dest path = some n → n < 7 * k
  dest_ne : ∀ path, w.dest path ≠ none ↔ LeftOver env srcPath k path

/-- The calls of an attempt that returns, all of them with the same chain. -/
def settledCalls (chain : List Block) : List (Call × List Block) :=
  [(.getBlockCount, chain), (.flushStateToDisk, chain), (.pause, chain), (.download, chain),
    (.unpause, chain), (.getBlockCount, chain)]

/-- The world after the attempt `k` returned `height`. -/
structure SettledAt (env : Environment Block) (srcPath : String) (k height : Nat)
    (w : World Block) : Prop where
  calls_eq : ∃ before chain, w.calls = before ++ settledCalls chain ∧ before.length = 7 * k ∧
    chain.length = height
  unpacked : ∀ path ∈ env.unpacked (7 * k + 3), w.dest path = some (7 * k + 3)
  leftOver : ∀ path ∉ env.unpacked (7 * k + 3),
    (w.dest path ≠ none ↔ LeftOver env srcPath k path) ∧
      ∀ n, w.dest path = some n → n < 7 * k

section Runs

variable {env : Environment Block} {srcPath : String} {k : Nat} {w : World Block}

/-- The second query agrees with the first one exactly if the tip stays: the chain only grows. -/
theorem AtAttempt.queries_agree (h : AtAttempt env srcPath k w) :
    (w.attempted env).chain.length = (w.chain ++ env.arrives w.calls.length).length ↔
      TipStays env k := by
  simp only [World.attempted, h.length_eq, List.length_append, TipStays,
    ← List.length_eq_zero_iff]
  omega

theorem AtAttempt.settledAt (h : AtAttempt env srcPath k w) (hstays : TipStays env k) :
    SettledAt env srcPath k (w.chain ++ env.arrives w.calls.length).length (w.attempted env) where
  calls_eq := by
    obtain ⟨hfirst, hsecond, hthird⟩ := hstays
    refine ⟨w.calls, w.chain ++ env.arrives w.calls.length, ?_, h.length_eq, rfl⟩
    simp [World.attempted, settledCalls, h.length_eq, hfirst, hsecond, hthird]
  unpacked path hpath := by
    simp only [World.attempted, h.length_eq, if_pos hpath]
  leftOver path hpath := by
    simp only [World.attempted, h.length_eq, if_neg hpath]
    exact ⟨h.dest_ne path, h.dest_lt path⟩

/-- After an attempt that does not return, and its discard, the next one starts. -/
theorem AtAttempt.succ (h : AtAttempt env srcPath k w) (hundisturbed : Undisturbed env (7 * k + 7))
    (hmoved : ¬TipStays env k) :
    AtAttempt env srcPath (k + 1) ((w.attempted env).after env .discardCopy fun n w =>
      { w with dest := fun path =>
          if inCopy srcPath path && !env.undeletable n path then none else w.dest path }) := by
  have hlength : (w.attempted env).calls.length = 7 * k + 6 := by
    simp [World.attempted, h.length_eq]
  refine ⟨rfl, ?_, hundisturbed, ?_, ?_, ?_⟩
  · simp only [World.after, List.length_append, hlength, List.length_singleton]
    omega
  · intro j hj
    by_cases hjk : j = k
    · exact hjk ▸ hmoved
    · exact h.moved j (by omega)
  · intro path n hdest
    simp only [World.after, hlength] at hdest
    split at hdest
    · cases hdest
    · simp only [World.attempted, h.length_eq] at hdest
      split at hdest
      · cases hdest
        omega
      · have hlt := h.dest_lt path n hdest
        omega
  · intro path
    rw [leftOver_succ]
    simp only [World.after, hlength]
    split
    · rename_i hdiscarded
      simp [hdiscarded]
    · rename_i hkept
      rw [Bool.not_eq_true] at hkept
      simp only [World.attempted, h.length_eq, hkept, true_and, ← h.dest_ne path]
      split
      · rename_i hmem
        simp [hmem]
      · rename_i hmem
        simp [hmem]

theorem AtAttempt.undisturbed_of_raises (h : AtAttempt env srcPath k w) {m : Nat}
    (hraises : ∀ i < m, env.raises (w.calls.length + i) = none) : Undisturbed env (7 * k + m) := by
  intro i hi
  rcases Nat.lt_or_ge i (7 * k) with hlt | hge
  · exact h.undisturbed i hlt
  · have hraised := hraises (i - 7 * k) (by omega)
    rwa [h.length_eq, Nat.add_sub_cancel' hge] at hraised

variable (name : String) {attempts : Nat}

/-- A run that returns does so after an attempt that settles, and leaves what that attempt does. -/
theorem of_run_snapshotAttempts_eq_ok {height : Nat} {w' : World Block}
    (h : AtAttempt env srcPath k w)
    (hrun : (snapshotAttempts env name srcPath attempts).run w = .ok height w') :
    ∃ j < k + attempts, Settles env j ∧ SettledAt env srcPath j height w' := by
  induction attempts generalizing k w with
  | zero => cases hrun
  | succ attempts ih =>
    have hraises := of_run_attempt_eq_ok name srcPath attempts h.paused_eq hrun
    rw [run_attempt name srcPath attempts h.paused_eq hraises] at hrun
    dsimp only at hrun
    by_cases hstays : TipStays env k
    · rw [if_pos (h.queries_agree.mpr hstays)] at hrun
      cases hrun
      exact ⟨k, by omega, ⟨h.undisturbed_of_raises hraises, h.moved, hstays⟩,
        h.settledAt hstays⟩
    · rw [if_neg fun hagree => hstays (h.queries_agree.mp hagree)] at hrun
      obtain ⟨_, w₁, hdiscard, hrest⟩ := of_run_bind_eq_ok hrun
      obtain ⟨hraised, rfl⟩ := of_run_perform_eq_ok hdiscard
      have hundisturbed : Undisturbed env (7 * k + 7) := by
        intro i hi
        by_cases hlast : i = 7 * k + 6
        · rw [hlast]
          simpa [World.attempted, h.length_eq] using hraised
        · exact h.undisturbed_of_raises hraises i (by omega)
      obtain ⟨j, hj, hsettles, hsettled⟩ := ih (h.succ hundisturbed hstays) hrest
      exact ⟨j, by omega, hsettles, hsettled⟩

/-- A run with an attempt that settles returns. -/
theorem run_of_settles {j : Nat} (h : AtAttempt env srcPath k w) (hsettles : Settles env j)
    (hkj : k ≤ j) (hj : j < k + attempts) :
    ∃ height w', (snapshotAttempts env name srcPath attempts).run w = .ok height w' := by
  induction attempts generalizing k w with
  | zero => omega
  | succ attempts ih =>
    have hraises : ∀ i < 6, env.raises (w.calls.length + i) = none := by
      intro i hi
      rw [h.length_eq]
      exact hsettles.undisturbed _ (by omega)
    rw [run_attempt name srcPath attempts h.paused_eq hraises]
    dsimp only
    by_cases hstays : TipStays env k
    · rw [if_pos (h.queries_agree.mpr hstays)]
      exact ⟨_, _, rfl⟩
    · rw [if_neg fun hagree => hstays (h.queries_agree.mp hagree)]
      have hlt : k < j := by
        rcases Nat.lt_or_ge k j with hlt | hge
        · exact hlt
        · obtain rfl : k = j := by omega
          exact absurd hsettles.stays hstays
      have hraised : env.raises (w.attempted env).calls.length = none := by
        have hnone := hsettles.undisturbed (7 * k + 6) (by omega)
        simpa [World.attempted, h.length_eq] using hnone
      simp only [EStateM.run_bind, discardCopy, run_perform, hraised]
      refine ih (h.succ (fun i hi => hsettles.undisturbed i (by omega)) hstays) (by omega) (by omega)

theorem atAttempt_zero (env : Environment Block) (srcPath : String) (chain : List Block) :
    AtAttempt env srcPath 0 { chain := chain } where
  paused_eq := rfl
  length_eq := rfl
  undisturbed i hi := by omega
  moved j hj := by omega
  dest_lt path n hdest := by cases hdest
  dest_ne path := by
    refine iff_of_false (fun hne => hne rfl) ?_
    rintro ⟨j, hj, -⟩
    omega

/-- At most one attempt settles. -/
theorem Settles.unique {j : Nat} (h : Settles env k) (h' : Settles env j) : k = j := by
  rcases Nat.lt_trichotomy k j with hlt | heq | hgt
  · exact absurd h.stays (h'.moved k hlt)
  · exact heq
  · exact absurd h'.stays (h.moved j hgt)

end Runs

/-! ### When the snapshot is consistent -/

/-- What a snapshot promises: a returned height was that of the tip at each call of one attempt, the
destination holds the files of that attempt's download only, and each pause is followed by an
unpause, also when the snapshot raises. -/
structure Consistent (result : EStateM.Result PyError (World Block) Nat) : Prop where
  copied : ∀ height w, result = .ok height w → ∃ before chain,
    w.calls = before ++ settledCalls chain ∧ chain.length = height ∧
      ∀ path n, w.dest path = some n → n = before.length + 3
  resumed : Resumed (resultState result).calls

/-- The snapshot is consistent if and only if the attempt that returns overwrites every file that
the discards before it left. -/
theorem snapshotBtcDatadir_consistent_iff (env : Environment Block) (name srcPath : String)
    (chain : List Block) :
    Consistent ((snapshotBtcDatadir env name srcPath).run { chain := chain }) ↔
      ∀ k < chainTipRaceRetries, Settles env k → ∀ path, LeftOver env srcPath k path →
        path ∈ env.unpacked (7 * k + 3) := by
  have hstart := atAttempt_zero env srcPath chain
  constructor
  · intro hconsistent k hk hsettles path hleft
    obtain ⟨height, w', hrun⟩ : ∃ height w', (snapshotBtcDatadir env name srcPath).run
        { chain := chain } = .ok height w' :=
      run_of_settles name hstart hsettles (Nat.zero_le k) (by omega)
    obtain ⟨j, -, hsettles', hsettled⟩ := of_run_snapshotAttempts_eq_ok name hstart hrun
    obtain rfl := hsettles.unique hsettles'
    obtain ⟨before, copied, hcalls, -, hdest⟩ := hconsistent.copied height w' hrun
    obtain ⟨before', copied', hcalls', hlength, -⟩ := hsettled.calls_eq
    have hbefore : before.length = 7 * k := by
      have hlengths := congrArg List.length (hcalls.symm.trans hcalls')
      simp only [List.length_append, settledCalls, List.length_cons, List.length_nil] at hlengths
      omega
    by_cases hmem : path ∈ env.unpacked (7 * k + 3)
    · exact hmem
    · obtain ⟨hne, hlt⟩ := hsettled.leftOver path hmem
      obtain ⟨n, hn⟩ := Option.ne_none_iff_exists'.mp (hne.mpr hleft)
      have hold := hlt n hn
      have hnew := hdest path n hn
      omega
  · intro hcondition
    refine ⟨fun height w' hrun => ?_, ?_⟩
    · obtain ⟨k, hk, hsettles, hsettled⟩ := of_run_snapshotAttempts_eq_ok name hstart hrun
      obtain ⟨before, copied, hcalls, hlength, hheight⟩ := hsettled.calls_eq
      refine ⟨before, copied, hcalls, hheight, fun path n hn => ?_⟩
      by_cases hmem : path ∈ env.unpacked (7 * k + 3)
      · rw [hsettled.unpacked path hmem, Option.some.injEq] at hn
        omega
      · have hleft := (hsettled.leftOver path hmem).1.mp (by rw [hn]; exact Option.some_ne_none n)
        exact absurd (hcondition k (by omega) hsettles path hleft) hmem
    · obtain ⟨added, hcalls, hresumed⟩ :=
        resumes_snapshotAttempts env name srcPath chainTipRaceRetries { chain := chain }
      show Resumed (stateAfter (snapshotBtcDatadir env name srcPath) { chain := chain }).calls
      rw [snapshotBtcDatadir, hcalls]
      exact hresumed

/-- A block arrives before the first pause, and a file that only the first copy has cannot be
deleted. -/
def staleEnvironment : Environment Unit where
  arrives n := if n = 2 then [()] else []
  raises _ := none
  pausedAfter _ := false
  unpacked n :=
    if n = 3 then [["data", "blocks", "blk00000.dat"], ["data", "chainstate", "000003.log"]]
    else [["data", "blocks", "blk00000.dat"], ["data", "chainstate", "000005.ldb"]]
  undeletable _ path := decide (path = ["data", "chainstate", "000003.log"])

/-- The snapshot returns the height 1 with a file of the copy that was made at the height 0. -/
theorem stale_file_in_snapshot :
    ¬Consistent ((snapshotBtcDatadir staleEnvironment "btc-node" "/home/bitcoin/data/").run
      { chain := [] }) := by
  intro hconsistent
  obtain ⟨w, hrun, hcount, hstale⟩ : ∃ w,
      (snapshotBtcDatadir staleEnvironment "btc-node" "/home/bitcoin/data/").run { chain := [] } =
        .ok 1 w ∧ w.calls.length = 13 ∧
      w.dest ["data", "chainstate", "000003.log"] = some 3 := ⟨_, rfl, rfl, rfl⟩
  obtain ⟨before, chain, hcalls, -, hdest⟩ := hconsistent.copied 1 w hrun
  have hlength := congrArg List.length hcalls
  simp only [List.length_append, settledCalls, List.length_cons, List.length_nil] at hlength
  have hnew := hdest _ 3 hstale
  omega

end CoinjoinEmulator.DatadirSnapshot
