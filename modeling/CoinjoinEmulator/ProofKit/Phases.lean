import Mathlib.Order.BooleanAlgebra.Defs
import Mathlib.Order.Monotone.Defs

/-! A test that begins to hold once and ends to hold once, along a sequence that does not fall. -/

namespace ProofKit

variable {α : Type} [Preorder α]

/-- A test that stays true when it holds. -/
theorem true_of_monotone {p : α → Bool} (hp : Monotone p) {a b : α} (h : a ≤ b) (ha : p a = true) :
    p b = true := Bool.le_iff_imp.mp (hp h) ha

/-- What has not ended yet holds up to a point, and no longer. -/
theorem map_not_ended {ended : α → Bool} (hended : Monotone ended) {items : List α}
    (h : items.Pairwise (· ≤ ·)) : ∃ before after, items.map (fun a => !ended a) =
      List.replicate before true ++ List.replicate after false := by
  induction h with
  | nil => exact ⟨0, 0, rfl⟩
  | @cons a rest hfirst hrest ih =>
    cases ha : ended a with
    | false =>
      obtain ⟨before, after, hmap⟩ := ih
      exact ⟨before + 1, after, by simp [ha, hmap, List.replicate_succ]⟩
    | true =>
      refine ⟨0, rest.length + 1, ?_⟩
      have hall : rest.map (fun b => !ended b) = List.replicate rest.length false := by
        rw [List.eq_replicate_iff]
        refine ⟨List.length_map _, fun b hb => ?_⟩
        obtain ⟨c, hc, rfl⟩ := List.mem_map.mp hb
        simp [true_of_monotone hended (hfirst c hc) ha]
      simp [ha, hall, List.replicate_succ]

/-- What has begun and has not ended holds in one stretch. -/
theorem map_window {begun ended : α → Bool} (hbegun : Monotone begun) (hended : Monotone ended)
    {items : List α} (h : items.Pairwise (· ≤ ·)) :
    ∃ before inside after, items.map (fun a => begun a && !ended a) =
      List.replicate before false ++
        (List.replicate inside true ++ List.replicate after false) := by
  induction h with
  | nil => exact ⟨0, 0, 0, rfl⟩
  | @cons a rest hfirst hrest ih =>
    cases ha : begun a with
    | false =>
      obtain ⟨before, inside, after, hmap⟩ := ih
      exact ⟨before + 1, inside, after, by simp [ha, hmap, List.replicate_succ]⟩
    | true =>
      obtain ⟨inside, after, hmap⟩ := map_not_ended hended (List.Pairwise.cons hfirst hrest)
      refine ⟨0, inside, after, ?_⟩
      rw [← hmap, List.replicate_zero, List.nil_append]
      apply List.map_congr_left
      intro b hb
      have hb' : begun b = true := by
        rcases List.mem_cons.mp hb with rfl | hlater
        · exact ha
        · exact true_of_monotone hbegun (hfirst b hlater) ha
      rw [hb', Bool.true_and]

end ProofKit
