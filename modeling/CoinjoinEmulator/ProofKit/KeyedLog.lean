import Mathlib.Data.List.Count
import Mathlib.Data.List.Nodup
import Mathlib.Tactic.Basic

/-! Logs whose entries belong to keys: the last entry of a key, and logs in which every entry is
allowed after the last one of its key. -/

namespace ProofKit

variable {E κ : Type} [DecidableEq κ] (key : E → κ)

/-- The last entry of a key. -/
def lastOf (k : κ) (log : List E) : Option E := (log.filter fun e => key e = k).getLast?

/-- Every entry is allowed after the last one of its key. -/
def Lawful (allowed : Option E → E → Prop) (log : List E) : Prop :=
  ∀ before e after, log = before ++ e :: after → allowed (lastOf key (key e) before) e

variable {key}

theorem mem_of_lastOf {k : κ} {log : List E} {e : E} (h : lastOf key k log = some e) :
    e ∈ log ∧ key e = k := by
  obtain ⟨hmem, hkey⟩ := List.mem_filter.mp (List.mem_of_getLast? h)
  exact ⟨hmem, of_decide_eq_true hkey⟩

theorem lastOf_append (k : κ) (log added : List E) :
    lastOf key k (log ++ added) = (lastOf key k added).or (lastOf key k log) := by
  unfold lastOf
  rw [List.filter_append, List.getLast?_append]

theorem lastOf_eq_none {k : κ} {log : List E} (h : k ∉ log.map key) : lastOf key k log = none := by
  unfold lastOf
  rw [List.getLast?_eq_none_iff, List.filter_eq_nil_iff]
  intro e he hkey
  exact h (List.mem_map.mpr ⟨e, he, of_decide_eq_true hkey⟩)

theorem lastOf_append_of_notMem {k : κ} (log : List E) {added : List E} (h : k ∉ added.map key) :
    lastOf key k (log ++ added) = lastOf key k log := by
  rw [lastOf_append, lastOf_eq_none h, Option.none_or]

/-- Of entries with different keys, each is the last one of its key. -/
theorem lastOf_eq_of_nodup {log : List E} (hnodup : (log.map key).Nodup) {e : E} (he : e ∈ log) :
    lastOf key (key e) log = some e := by
  obtain ⟨before, after, rfl⟩ := List.append_of_mem he
  rw [List.map_append, List.map_cons, List.nodup_middle, List.nodup_cons, ← List.map_append] at hnodup
  have hafter : key e ∉ after.map key := fun h =>
    hnodup.1 (by rw [List.map_append]; exact List.mem_append_right _ h)
  rw [show before ++ e :: after = before ++ [e] ++ after by simp, lastOf_append_of_notMem _ hafter,
    lastOf_append]
  simp [lastOf]

theorem lastOf_append_of_nodup (log : List E) {added : List E} (hnodup : (added.map key).Nodup)
    {e : E} (he : e ∈ added) : lastOf key (key e) (log ++ added) = some e := by
  rw [lastOf_append, lastOf_eq_of_nodup hnodup he, Option.some_or]

section Lawful

variable {allowed : Option E → E → Prop}

theorem lawful_nil : Lawful key allowed [] := fun before e after h => by simp at h

theorem lawful_concat {log : List E} {e : E} :
    Lawful key allowed (log ++ [e]) ↔
      Lawful key allowed log ∧ allowed (lastOf key (key e) log) e := by
  constructor
  · intro h
    refine ⟨fun before e' after hlog => ?_, h log e [] rfl⟩
    exact h before e' (after ++ [e]) (by rw [hlog]; simp)
  · rintro ⟨h, hlast⟩ before e' after hsplit
    obtain rfl | ⟨after', last, rfl⟩ := after.eq_nil_or_concat'
    · obtain ⟨rfl, hlast'⟩ := List.append_inj' hsplit rfl
      cases hlast'
      exact hlast
    · rw [← List.cons_append, ← List.append_assoc] at hsplit
      exact h before e' after' (List.append_inj' hsplit rfl).1

/-- Entries with different keys that are allowed after a log may follow it together, by induction on
the entries. -/
theorem Lawful.append {log added : List E} (h : Lawful key allowed log)
    (hnodup : (added.map key).Nodup) (hadded : ∀ e ∈ added, allowed (lastOf key (key e) log) e) :
    Lawful key allowed (log ++ added) := by
  induction added generalizing log with
  | nil => simpa using h
  | cons e rest ih =>
    rw [List.map_cons, List.nodup_cons] at hnodup
    rw [show log ++ e :: rest = log ++ [e] ++ rest by simp]
    refine ih (lawful_concat.mpr ⟨h, hadded e List.mem_cons_self⟩) hnodup.2 fun e' he' => ?_
    have hne : key e' ∉ [e].map key := by
      intro hmem
      rw [List.map_singleton, List.mem_singleton] at hmem
      exact hnodup.1 (hmem ▸ List.mem_map_of_mem he')
    rw [lastOf_append_of_notMem _ hne]
    exact hadded e' (List.mem_cons_of_mem _ he')

end Lawful

/-- Entries with different keys have at most one of each. -/
theorem countP_key_le_one {log : List E} (hnodup : (log.map key).Nodup) (p : E → Bool) (k : κ) :
    (log.countP fun e => p e && decide (key e = k)) ≤ 1 := by
  have hcount := List.nodup_iff_count_le_one.mp hnodup k
  have hle : (log.countP fun e => p e && decide (key e = k)) ≤ (log.map key).count k := by
    rw [List.count_eq_countP, List.countP_map]
    refine List.countP_mono_left fun e _ he => ?_
    simpa using (Bool.and_eq_true_iff.mp he).2
  omega

end ProofKit
