import Mathlib.Data.List.Sort
import Mathlib.Algebra.BigOperators.Group.List.Basic
import Mathlib.Tactic.Ring

/-! Covering a value with weighted items: take the smallest item that covers what is left, or the
largest one when none does. -/

namespace ProofKit

variable {α : Type} (weight : α → Nat)

def totalWeight (items : List α) : Nat := (items.map weight).sum

@[simp] theorem totalWeight_nil : totalWeight weight [] = 0 := rfl

@[simp] theorem totalWeight_append (items items' : List α) :
    totalWeight weight (items ++ items') = totalWeight weight items + totalWeight weight items' := by
  simp [totalWeight]

@[simp] theorem totalWeight_cons (a : α) (items : List α) :
    totalWeight weight (a :: items) = weight a + totalWeight weight items := by
  simp [totalWeight]

variable {weight} in
theorem totalWeight_perm {items items' : List α} (h : items.Perm items') :
    totalWeight weight items = totalWeight weight items' := (h.map weight).sum_eq

/-- Stable, lightest first. -/
def sortByWeight (items : List α) : List α := items.insertionSort fun a b => weight a ≤ weight b

variable {weight} in
theorem pairwise_sortByWeight (items : List α) :
    (sortByWeight weight items).Pairwise fun a b => weight a ≤ weight b :=
  List.pairwise_insertionSort _ items

/-- The item that is taken next, of the sorted ones that remain. -/
def nextCover (left : Int) (first : α) (rest : List α) : α :=
  match (first :: rest).filter fun a => left ≤ weight a with
  | covering :: _ => covering
  | [] => rest.getLastD first

variable {weight} in
theorem nextCover_mem (left : Int) (first : α) (rest : List α) :
    nextCover weight left first rest ∈ first :: rest := by
  unfold nextCover
  split
  · rename_i covering others h
    have hmem : covering ∈ (first :: rest).filter fun a => decide (left ≤ weight a) := by
      rw [h]
      exact List.mem_cons_self
    exact (List.mem_filter.mp hmem).1
  · cases hlast : rest.getLast? with
    | none => simp [List.getLastD_eq_getLast?, hlast]
    | some last =>
      rw [List.getLastD_eq_getLast?, hlast]
      exact List.mem_cons_of_mem _ (List.mem_of_getLast? hlast)

variable [DecidableEq α]

/-- The loop that takes items while they do not cover `value`.  Each round takes one, so their
number bounds the rounds. -/
def coverLoop (value : Int) : Nat → List α → List α → Nat → List α × Nat
  | 0, _, selected, total => (selected, total)
  | _ + 1, [], selected, total => (selected, total)
  | fuel + 1, first :: rest, selected, total =>
    if (total : Int) < value then
      let item := nextCover weight (value - total) first rest
      coverLoop value fuel ((first :: rest).erase item) (selected ++ [item]) (total + weight item)
    else (selected, total)

/-- The items that cover `value`, and their weight. -/
def cover (candidates : List α) (value : Int) : List α × Nat :=
  let remaining := sortByWeight weight candidates
  coverLoop weight value remaining.length remaining [] 0

variable {weight}

theorem coverLoop_spec (value : Int) {fuel : Nat} {remaining : List α} (selected : List α)
    (hfuel : remaining.length ≤ fuel) :
    let result := coverLoop weight value fuel remaining selected (totalWeight weight selected)
    result.2 = totalWeight weight result.1 ∧
      ∃ left, (result.1 ++ left).Perm (selected ++ remaining) ∧
        (value ≤ result.2 ∨ left = []) := by
  induction fuel generalizing remaining selected with
  | zero =>
    cases List.eq_nil_of_length_eq_zero (Nat.le_zero.mp hfuel)
    exact ⟨rfl, [], .refl _, .inr rfl⟩
  | succ fuel ih =>
    cases remaining with
    | nil => exact ⟨rfl, [], .refl _, .inr rfl⟩
    | cons first rest =>
      simp only [coverLoop]
      by_cases hless : (totalWeight weight selected : Int) < value
      · rw [if_pos hless]
        set item := nextCover weight (value - totalWeight weight selected) first rest
        have hmem : item ∈ first :: rest := nextCover_mem _ _ _
        have hlength : ((first :: rest).erase item).length ≤ fuel := by
          rw [List.length_erase_of_mem hmem, List.length_cons]
          simpa using hfuel
        have htotal : totalWeight weight selected + weight item =
            totalWeight weight (selected ++ [item]) := by simp [totalWeight]
        rw [htotal]
        obtain ⟨hweight, left, hperm, hcovers⟩ := ih (selected ++ [item]) hlength
        refine ⟨hweight, left, hperm.trans ?_, hcovers⟩
        rw [List.append_assoc]
        exact (List.perm_cons_erase hmem).symm.append_left selected
      · rw [if_neg hless]
        exact ⟨rfl, first :: rest, .refl _, .inl (by simpa using hless)⟩

/-- The selected items are some of the candidates; they cover the value unless they are all
of them. -/
theorem cover_spec (candidates : List α) (value : Int) :
    (cover weight candidates value).2 = totalWeight weight (cover weight candidates value).1 ∧
      ∃ left, ((cover weight candidates value).1 ++ left).Perm candidates ∧
        (value ≤ (cover weight candidates value).2 ∨ left = []) := by
  obtain ⟨hweight, left, hperm, hcovers⟩ := coverLoop_spec value []
    (le_refl (sortByWeight weight candidates).length)
  exact ⟨hweight, left, hperm.trans (List.perm_insertionSort _ _), hcovers⟩

theorem mem_of_mem_cover {candidates : List α} {value : Int} {a : α}
    (h : a ∈ (cover weight candidates value).1) : a ∈ candidates := by
  obtain ⟨-, left, hperm, -⟩ := cover_spec candidates value
  exact hperm.subset (List.mem_append_left _ h)

/-- The selection covers the value if and only if all candidates together do. -/
theorem le_cover_iff (candidates : List α) (value : Int) :
    value ≤ (cover weight candidates value).2 ↔ value ≤ totalWeight weight candidates := by
  obtain ⟨hweight, left, hperm, hcovers⟩ := @cover_spec α weight _ candidates value
  have htotal := @totalWeight_perm α weight _ _ hperm
  rw [totalWeight_append] at htotal
  constructor
  · intro h
    omega
  · intro h
    rcases hcovers with hcovers | rfl
    · exact hcovers
    · rw [totalWeight_nil] at htotal
      omega

/-! ### Fewest items -/

theorem coverLoop_of_le {value : Int} {fuel : Nat} {remaining selected : List α} {total : Nat}
    (h : value ≤ total) : coverLoop weight value fuel remaining selected total = (selected, total) := by
  cases fuel with
  | zero => rfl
  | succ fuel =>
    cases remaining with
    | nil => rfl
    | cons first rest =>
      rw [coverLoop]
      exact if_neg (not_lt.mpr h)

omit [DecidableEq α] in
/-- Items that outweigh others, one for one, weigh no less in total. -/
theorem totalWeight_le_of_forall_le {items heavy : List α}
    (hle : ∀ a ∈ items, ∀ b ∈ heavy, weight a ≤ weight b) (hlength : items.length ≤ heavy.length) :
    totalWeight weight items ≤ totalWeight weight heavy := by
  induction items generalizing heavy with
  | nil => exact Nat.zero_le _
  | cons a items ih =>
    cases heavy with
    | nil => exact absurd hlength (by simp)
    | cons b heavy =>
      have hhead := hle a List.mem_cons_self b List.mem_cons_self
      have htail := ih (fun a ha b hb => hle a (.tail _ ha) b (.tail _ hb)) (by simpa using hlength)
      simp only [totalWeight_cons]
      omega

omit [DecidableEq α] in
/-- The heaviest items of a list outweigh every choice of no more items: what the two have in common
cancels, and the rest is outweighed one for one. -/
theorem totalWeight_le_heaviest {heaviest left items : List α}
    (hle : ∀ a ∈ heaviest, ∀ b ∈ left, weight b ≤ weight a)
    (hsub : items.Subperm (heaviest ++ left)) (hlength : items.length ≤ heaviest.length) :
    totalWeight weight items ≤ totalWeight weight heaviest := by
  obtain ⟨items', hperm, hsublist⟩ := hsub
  obtain ⟨common, others, rfl, hcommon, hothers⟩ := List.sublist_append_iff.mp hsublist
  obtain ⟨rest, hrest⟩ := hcommon.exists_perm_append
  have hheaviest := @totalWeight_perm _ weight _ _ hrest
  have hitems := @totalWeight_perm _ weight _ _ hperm
  rw [totalWeight_append] at hheaviest hitems
  have hlength' : others.length ≤ rest.length := by
    have := hrest.length_eq
    have := hperm.length_eq
    simp only [List.length_append] at *
    omega
  have hless := @totalWeight_le_of_forall_le _ weight _ _ (fun a ha b hb =>
    hle b (hrest.symm.subset (List.mem_append_right _ hb)) a (hothers.subset ha)) hlength'
  omega

omit [DecidableEq α] in
theorem le_getLastD_of_sorted {first : α} {rest : List α}
    (hsorted : (first :: rest).Pairwise fun a b => weight a ≤ weight b) {a : α}
    (ha : a ∈ first :: rest) : weight a ≤ weight (rest.getLastD first) := by
  induction rest generalizing first a with
  | nil =>
    rw [List.mem_singleton.mp ha]
    exact le_refl _
  | cons second rest ih =>
    rw [List.getLastD_cons]
    obtain ⟨hfirst, htail⟩ := List.pairwise_cons.mp hsorted
    obtain rfl | ha := List.mem_cons.mp ha
    · exact (hfirst second List.mem_cons_self).trans (ih htail List.mem_cons_self)
    · exact ih htail ha

omit [DecidableEq α] in
/-- An item that does not cover what is left is a heaviest one. -/
theorem le_nextCover_of_lt {left : Int} {first : α} {rest : List α}
    (hsorted : (first :: rest).Pairwise fun a b => weight a ≤ weight b)
    (hless : (weight (nextCover weight left first rest) : Int) < left) {a : α}
    (ha : a ∈ first :: rest) : weight a ≤ weight (nextCover weight left first rest) := by
  unfold nextCover at hless ⊢
  split at hless
  · rename_i covering others h
    have hmem : covering ∈ (first :: rest).filter fun a => decide (left ≤ weight a) := by
      rw [h]
      exact List.mem_cons_self
    have := of_decide_eq_true (List.mem_filter.mp hmem).2
    omega
  · exact le_getLastD_of_sorted hsorted ha

/-- A selection that covers the value is a list of heaviest items, which do not cover it, and one
more item, by induction on the rounds. -/
theorem coverLoop_shape (value : Int) {fuel : Nat} {remaining : List α} (selected : List α)
    (hsorted : remaining.Pairwise fun a b => weight a ≤ weight b)
    (hheaviest : ∀ a ∈ selected, ∀ b ∈ remaining, weight b ≤ weight a)
    (hless : (totalWeight weight selected : Int) < value) :
    let result := coverLoop weight value fuel remaining selected (totalWeight weight selected)
    value ≤ result.2 → ∃ heaviest last left, result.1 = heaviest ++ [last] ∧
      (heaviest ++ last :: left).Perm (selected ++ remaining) ∧
      (totalWeight weight heaviest : Int) < value ∧
      ∀ a ∈ heaviest, ∀ b ∈ last :: left, weight b ≤ weight a := by
  induction fuel generalizing remaining selected with
  | zero => exact fun hcovers => absurd hcovers (not_le.mpr hless)
  | succ fuel ih =>
    cases remaining with
    | nil => exact fun hcovers => absurd hcovers (not_le.mpr hless)
    | cons first rest =>
      simp only [coverLoop]
      rw [if_pos hless]
      set item := nextCover weight (value - totalWeight weight selected) first rest with hitem
      have hmem : item ∈ first :: rest := nextCover_mem _ _ _
      have hperm : (selected ++ item :: (first :: rest).erase item).Perm
          (selected ++ first :: rest) := (List.perm_cons_erase hmem).symm.append_left selected
      have htotal : totalWeight weight selected + weight item =
          totalWeight weight (selected ++ [item]) := by simp [totalWeight]
      rw [htotal]
      by_cases hcovers : value ≤ (totalWeight weight (selected ++ [item]) : Int)
      · -- the item covers what is left, so the loop ends
        rw [coverLoop_of_le hcovers]
        refine fun _ => ⟨selected, item, _, rfl, hperm, hless, fun a ha b hb => ?_⟩
        exact hheaviest a ha b ((List.perm_cons_erase hmem).symm.subset hb)
      · intro hresult
        have hitem : ∀ b ∈ first :: rest, weight b ≤ weight item := fun b hb =>
          le_nextCover_of_lt hsorted (by rw [← hitem]; omega) hb
        obtain ⟨heaviest, last, left, heq, hperm', hless', hle⟩ := ih (selected ++ [item])
          (hsorted.sublist (List.erase_sublist)) (fun a ha b hb => by
            have hb := List.mem_of_mem_erase hb
            obtain ha | ha := List.mem_append.mp ha
            · exact hheaviest a ha b hb
            · rw [List.mem_singleton.mp ha]
              exact hitem b hb) (by omega) hresult
        refine ⟨heaviest, last, left, heq, hperm'.trans ?_, hless', hle⟩
        rw [List.append_assoc]
        exact hperm

theorem cover_shape (candidates : List α) (value : Int)
    (hcovers : value ≤ (cover weight candidates value).2) :
    (cover weight candidates value).1 = [] ∨
      ∃ heaviest last left, (cover weight candidates value).1 = heaviest ++ [last] ∧
        (heaviest ++ last :: left).Perm candidates ∧
        (totalWeight weight heaviest : Int) < value ∧
        ∀ a ∈ heaviest, ∀ b ∈ last :: left, weight b ≤ weight a := by
  by_cases hless : ((0 : Nat) : Int) < value
  · obtain ⟨heaviest, last, left, heq, hperm, hless', hle⟩ := coverLoop_shape value []
      (pairwise_sortByWeight candidates) (fun a ha => by cases ha) hless hcovers
    exact .inr ⟨heaviest, last, left, heq, hperm.trans (List.perm_insertionSort _ _), hless', hle⟩
  · exact .inl (congrArg Prod.fst (coverLoop_of_le (not_lt.mp hless)))

/-- A selection that covers the value does not do so without any one of its items. -/
theorem totalWeight_erase_cover_lt {candidates : List α} {value : Int}
    (hcovers : value ≤ (cover weight candidates value).2) {a : α}
    (ha : a ∈ (cover weight candidates value).1) :
    (totalWeight weight ((cover weight candidates value).1.erase a) : Int) < value := by
  obtain hnil | ⟨heaviest, last, left, heq, -, hless, hle⟩ := cover_shape candidates value hcovers
  · rw [hnil] at ha
    cases ha
  · rw [heq] at ha ⊢
    have herase := @totalWeight_perm _ weight _ _ (List.perm_cons_erase ha)
    have hlast : weight last ≤ weight a := by
      obtain ha | ha := List.mem_append.mp ha
      · exact hle a ha last List.mem_cons_self
      · rw [List.mem_singleton.mp ha]
    simp only [totalWeight_append, totalWeight_cons, totalWeight_nil] at herase
    omega

/-- No choice of fewer items covers the value. -/
theorem length_cover_le {candidates covering : List α} {value : Int}
    (hcovers : value ≤ (cover weight candidates value).2) (hsub : covering.Subperm candidates)
    (hcovering : value ≤ totalWeight weight covering) :
    (cover weight candidates value).1.length ≤ covering.length := by
  obtain hnil | ⟨heaviest, last, left, heq, hperm, hless, hle⟩ :=
    cover_shape candidates value hcovers
  · rw [hnil]
    exact Nat.zero_le _
  · rw [heq, List.length_append, List.length_singleton]
    by_contra hshort
    have hlight := totalWeight_le_heaviest hle (hsub.trans hperm.symm.subperm)
      (show covering.length ≤ heaviest.length by omega)
    omega

end ProofKit
