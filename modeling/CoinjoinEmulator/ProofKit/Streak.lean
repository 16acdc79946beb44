import Mathlib.Tactic.Basic

/-! Counting how often the same key came last in a stream: any other key starts the count again, and
an item without a key ends it. -/

namespace ProofKit

variable {κ : Type} [DecidableEq κ]

structure Streak (κ : Type) where
  count : Nat
  last : Option κ

namespace Streak

def none : Streak κ := ⟨0, .none⟩

def observe (s : Streak κ) : Option κ → Streak κ
  | .none => none
  | some k => if s.last = some k then ⟨s.count + 1, s.last⟩ else ⟨1, some k⟩

/-- The count after the first items of a stream. -/
def after (key : Nat → Option κ) : Nat → Streak κ
  | 0 => none
  | i + 1 => (after key i).observe (key i)

/-- The last `n` of the first `i` items have one key. -/
def EndsRun (key : Nat → Option κ) (n i : Nat) : Prop :=
  ∃ k, ∀ j < n, j < i ∧ key (i - 1 - j) = some k

theorem last_observe_iff {s : Streak κ} {item : Option κ} {k : κ} :
    (s.observe item).last = some k ↔ item = some k := by
  cases item with
  | none => simp [observe, none]
  | some k' =>
    unfold observe
    dsimp only
    split
    · rename_i hlast
      rw [hlast]
    · rfl

theorem count_observe {s : Streak κ} {k : κ} :
    (s.observe (some k)).count = if s.last = some k then s.count + 1 else 1 := by
  unfold observe
  dsimp only
  split <;> rfl

/-- By induction on the items: the count is at least `n + 1` exactly if the last item has the key
and the count of the items before it is at least `n`. -/
theorem le_count_after_iff (key : Nat → Option κ) (k : κ) (i n : Nat) :
    (after key i).last = some k ∧ n + 1 ≤ (after key i).count ↔
      ∀ j < n + 1, j < i ∧ key (i - 1 - j) = some k := by
  induction i generalizing n with
  | zero =>
    refine iff_of_false (fun h => nomatch h.1) fun h => ?_
    have := (h 0 (by omega)).1
    omega
  | succ i ih =>
    rw [after, last_observe_iff]
    have hshift : (∀ j < n + 1, j < i + 1 ∧ key (i + 1 - 1 - j) = some k) ↔
        key i = some k ∧ ∀ j < n, j < i ∧ key (i - 1 - j) = some k := by
      constructor
      · intro h
        refine ⟨by simpa using (h 0 (by omega)).2, fun j hj => ?_⟩
        obtain ⟨hlt, hkey⟩ := h (j + 1) (by omega)
        exact ⟨by omega, by rwa [show i + 1 - 1 - (j + 1) = i - 1 - j by omega] at hkey⟩
      · rintro ⟨hlast, hrest⟩ j hj
        cases j with
        | zero => exact ⟨by omega, by simpa using hlast⟩
        | succ j =>
          obtain ⟨hlt, hkey⟩ := hrest j (by omega)
          exact ⟨by omega, by rwa [show i + 1 - 1 - (j + 1) = i - 1 - j by omega]⟩
    rw [hshift]
    apply and_congr_right
    intro hkey
    rw [hkey, count_observe]
    cases n with
    | zero =>
      refine iff_of_true ?_ fun j hj => by omega
      split <;> omega
    | succ n =>
      rw [← ih n]
      split
      · rename_i hlast
        simp [hlast]
      · rename_i hlast
        simp [hlast]

/-- The count reaches `n` exactly at the end of a run of `n` items with one key. -/
theorem endsRun_iff (key : Nat → Option κ) {n : Nat} (hn : 0 < n) (i : Nat) :
    EndsRun key n i ↔ n ≤ (after key i).count := by
  obtain ⟨m, rfl⟩ : ∃ m, n = m + 1 := ⟨n - 1, by omega⟩
  constructor
  · rintro ⟨k, h⟩
    exact ((le_count_after_iff key k i m).mpr h).2
  · intro h
    cases hlast : (after key i).last with
    | some k => exact ⟨k, (le_count_after_iff key k i m).mp ⟨hlast, h⟩⟩
    | none =>
      -- a count above 0 is the count of some key
      cases i with
      | zero => simp [after, none] at h
      | succ i =>
        cases hkey : key i with
        | none => simp [after, hkey, observe, none] at h
        | some k =>
          rw [after, last_observe_iff.mpr hkey] at hlast
          cases hlast

end Streak

end ProofKit
