import Mathlib.Algebra.Ring.Nat
import Mathlib.Data.List.Forall2
import Mathlib.Data.List.Flatten
import Mathlib.Data.List.SplitLengths
import Mathlib.Logic.Relation
import Mathlib.Order.Basic

/-! Transition systems with their runs, and lists of records that only grow along a run. -/

namespace ProofKit

variable {σ α β : Type}

structure System (σ : Type) where
  init : σ → Prop
  step : σ → σ → Prop

namespace System

variable {S : System σ}

inductive Reachable (S : System σ) : σ → Prop
  | init {s : σ} : S.init s → Reachable S s
  | step {s s' : σ} : Reachable S s → S.step s s' → Reachable S s'

/-- The states that a run of any number of steps leads to. -/
def Run (S : System σ) : σ → σ → Prop := Relation.ReflTransGen S.step

/-- What holds initially and is kept by each step from a reachable state holds in every one. -/
theorem Reachable.invariant {I : σ → Prop} (hinit : ∀ s, S.init s → I s)
    (hstep : ∀ s s', S.Reachable s → I s → S.step s s' → I s') {s : σ}
    (hs : S.Reachable s) : I s := by
  induction hs with
  | init h => exact hinit _ h
  | step hprev h ih => exact hstep _ _ hprev ih h

theorem Reachable.run {s s' : σ} (hs : S.Reachable s) (hrun : S.Run s s') : S.Reachable s' := by
  induction hrun with
  | refl => exact hs
  | tail _ h ih => exact ih.step h

/-- A value that no step from a reachable state decreases does not decrease over a run. -/
theorem Reachable.mono_run [Preorder β] {f : σ → β}
    (hstep : ∀ s s', S.Reachable s → S.step s s' → f s ≤ f s') {s s' : σ} (hs : S.Reachable s)
    (hrun : S.Run s s') : f s ≤ f s' := by
  induction hrun with
  | refl => exact le_rfl
  | tail hprev h ih => exact ih.trans (hstep _ _ (hs.run hprev) h)

end System

section Grows

variable {R : α → α → Prop} {New : α → Prop} {items items' : List α}

/-- The items of a list changed as `R` allows, and new ones were added at its end. -/
def Grows (R : α → α → Prop) (New : α → Prop) (items items' : List α) : Prop :=
  ∃ kept added, items' = kept ++ added ∧ items.Forall₂ R kept ∧ ∀ a ∈ added, New a

theorem Grows.of_forall₂ (h : items.Forall₂ R items') : Grows R New items items' :=
  ⟨items', [], (List.append_nil _).symm, h, by simp⟩

theorem Grows.append_singleton (hrefl : ∀ a ∈ items, R a a) {a : α} (ha : New a) :
    Grows R New items (items ++ [a]) :=
  ⟨items, [a], rfl, List.forall₂_same.mpr hrefl, by simpa using ha⟩

theorem forall₂_getElem? {R : α → β → Prop} {l : List α} {l' : List β} (h : l.Forall₂ R l')
    {i : Nat} {a : α} (hi : l[i]? = some a) : ∃ b, l'[i]? = some b ∧ R a b := by
  induction h generalizing i with
  | nil => simp at hi
  | cons hab _ ih =>
    cases i with
    | zero =>
      rw [List.getElem?_cons_zero, Option.some.injEq] at hi
      exact ⟨_, rfl, hi ▸ hab⟩
    | succ i => exact ih hi

theorem forall₂_getElem?_right {R : α → β → Prop} {l : List α} {l' : List β} (h : l.Forall₂ R l')
    {i : Nat} {b : β} (hi : l'[i]? = some b) : ∃ a, l[i]? = some a ∧ R a b :=
  forall₂_getElem? (R := fun b a => R a b) h.flip hi

theorem forall₂_mem {R : α → β → Prop} {l : List α} {l' : List β} (h : l.Forall₂ R l') {a : α}
    (ha : a ∈ l) : ∃ b ∈ l', R a b := by
  obtain ⟨i, hi⟩ := List.mem_iff_getElem?.mp ha
  obtain ⟨b, hb, hR⟩ := forall₂_getElem? h hi
  exact ⟨b, List.mem_of_getElem? hb, hR⟩

theorem forall₂_mem_right {R : α → β → Prop} {l : List α} {l' : List β} (h : l.Forall₂ R l')
    {b : β} (hb : b ∈ l') : ∃ a ∈ l, R a b :=
  forall₂_mem (R := fun b a => R a b) h.flip hb

/-- Changing one item of a list relates its items pairwise. -/
theorem forall₂_modify {f : α → α} {i : Nat} (hrefl : ∀ a ∈ items, R a a)
    (hf : ∀ a, items[i]? = some a → R a (f a)) : items.Forall₂ R (items.modify i f) := by
  rw [List.forall₂_iff_get]
  refine ⟨by simp, fun j hj hj' => ?_⟩
  simp only [List.get_eq_getElem, List.getElem_modify]
  by_cases hij : i = j
  · subst hij
    rw [if_pos rfl]
    exact hf _ (List.getElem?_eq_getElem hj)
  · rw [if_neg hij]
    exact hrefl _ (List.getElem_mem hj)

theorem Grows.getElem?_right (h : Grows R New items items') {i : Nat} {a' : α}
    (hi : items'[i]? = some a') :
    (∃ a, items[i]? = some a ∧ R a a') ∨ items.length ≤ i ∧ New a' := by
  obtain ⟨kept, added, rfl, hkept, hadded⟩ := h
  rcases Nat.lt_or_ge i kept.length with hlt | hge
  · rw [List.getElem?_append_left hlt] at hi
    exact .inl (forall₂_getElem?_right hkept hi)
  · rw [List.getElem?_append_right hge] at hi
    exact .inr ⟨hkept.length_eq ▸ hge, hadded a' (List.mem_of_getElem? hi)⟩

theorem Grows.mem_right (h : Grows R New items items') {a' : α} (ha' : a' ∈ items') :
    (∃ a ∈ items, R a a') ∨ New a' := by
  obtain ⟨i, hi⟩ := List.mem_iff_getElem?.mp ha'
  rcases h.getElem?_right hi with ⟨a, ha, hR⟩ | ⟨-, hnew⟩
  · exact .inl ⟨a, List.mem_of_getElem? ha, hR⟩
  · exact .inr hnew

theorem countP_le_of_forall₂ {p : α → Bool} (hp : ∀ a a', R a a' → p a = true → p a' = true)
    (h : items.Forall₂ R items') : items.countP p ≤ items'.countP p := by
  induction h with
  | nil => exact Nat.le_refl _
  | cons hab _ ih =>
    rw [List.countP_cons, List.countP_cons]
    have hhead := hp _ _ hab
    split
    · rename_i hpa
      rw [if_pos (hhead hpa)]
      omega
    · omega

theorem Grows.countP_le (h : Grows R New items items') {p : α → Bool}
    (hp : ∀ a a', R a a' → p a = true → p a' = true) : items.countP p ≤ items'.countP p := by
  obtain ⟨kept, added, rfl, hkept, -⟩ := h
  have hle := countP_le_of_forall₂ hp hkept
  rw [List.countP_append]
  omega

theorem Grows.trans {items'' : List α} (htrans : ∀ a b c, R a b → R b c → R a c)
    (hnew : ∀ a b, New a → R a b → New b) (h : Grows R New items items')
    (h' : Grows R New items' items'') : Grows R New items items'' := by
  obtain ⟨kept, added, rfl, hkept, hadded⟩ := h
  obtain ⟨kept', added', rfl, hkept', hadded'⟩ := h'
  have hold := List.forall₂_take kept.length hkept'
  have hlater := List.forall₂_drop kept.length hkept'
  rw [List.take_left] at hold
  rw [List.drop_left] at hlater
  refine ⟨kept'.take kept.length, kept'.drop kept.length ++ added', ?_, ?_, ?_⟩
  · rw [← List.append_assoc, List.take_append_drop]
  · generalize kept'.take kept.length = last at hold
    clear hkept' hlater hadded
    induction hkept generalizing last with
    | nil => cases hold; exact .nil
    | cons hab _ ih =>
      cases hold with
      | cons hbc hrest => exact .cons (htrans _ _ _ hab hbc) (ih _ hrest)
  · intro a ha
    obtain hdrop | htail := List.mem_append.mp ha
    · obtain ⟨b, hb, hba⟩ := forall₂_mem_right hlater hdrop
      exact hnew b a (hadded b hb) hba
    · exact hadded' a htail

end Grows

/-- Cutting a changed concatenation at the old lengths changes each part. -/
theorem forall₂_splitLengths {R : α → α → Prop} {parts : List (List α)} {items : List α}
    (h : parts.flatten.Forall₂ R items) :
    parts.Forall₂ (List.Forall₂ R) ((parts.map List.length).splitLengths items) := by
  induction parts generalizing items with
  | nil => exact .nil
  | cons part rest ih =>
    rw [List.flatten_cons] at h
    rw [List.map_cons, List.splitLengths_cons]
    have hlength := h.length_eq
    rw [List.length_append] at hlength
    constructor
    · have htake := List.forall₂_take part.length h
      rwa [List.take_left] at htake
    · have hdrop := List.forall₂_drop part.length h
      rw [List.drop_left] at hdrop
      exact ih hdrop

/-- An item of a part stands in the concatenation after all the earlier parts. -/
theorem getElem?_flatten_of_part {parts : List (List α)} {i j : Nat} {part : List α} {a : α}
    (hi : parts[i]? = some part) (hj : part[j]? = some a) :
    parts.flatten[((parts.take i).map List.length).sum + j]? = some a := by
  induction parts generalizing i with
  | nil => simp at hi
  | cons first rest ih =>
    cases i with
    | zero =>
      rw [List.getElem?_cons_zero, Option.some.injEq] at hi
      subst hi
      have hlt := (List.getElem?_eq_some_iff.mp hj).1
      simpa [List.getElem?_append_left hlt] using hj
    | succ i =>
      rw [List.getElem?_cons_succ] at hi
      simp only [List.take_succ_cons, List.map_cons, List.sum_cons, List.flatten_cons]
      rw [List.getElem?_append_right (by omega)]
      have hposition : first.length + ((rest.take i).map List.length).sum + j - first.length =
          ((rest.take i).map List.length).sum + j := by omega
      rw [hposition]
      exact ih hi

/-- Every item of a concatenation is an item of one of its parts. -/
theorem exists_part_of_getElem?_flatten {parts : List (List α)} {n : Nat} {a : α}
    (h : parts.flatten[n]? = some a) : ∃ i j part, parts[i]? = some part ∧ part[j]? = some a ∧
      n = ((parts.take i).map List.length).sum + j := by
  induction parts generalizing n with
  | nil => simp at h
  | cons first rest ih =>
    rw [List.flatten_cons] at h
    rcases Nat.lt_or_ge n first.length with hlt | hge
    · rw [List.getElem?_append_left hlt] at h
      exact ⟨0, n, first, rfl, h, by simp⟩
    · rw [List.getElem?_append_right hge] at h
      obtain ⟨i, j, part, hi, hj, hn⟩ := ih h
      refine ⟨i + 1, j, part, hi, hj, ?_⟩
      simp only [List.take_succ_cons, List.map_cons, List.sum_cons]
      omega

end ProofKit
