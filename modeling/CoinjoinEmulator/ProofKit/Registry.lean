import Mathlib.Tactic.TypeStar

/-! Lists of objects that are addressed by their names, and the part of a list whose names are
someone's own. -/

namespace ProofKit.Registry

variable {α κ : Type} (name : α → κ)

/-- The objects whose names are `mine`. -/
def part (mine : κ → Bool) (objects : List α) : List α := objects.filter fun a => mine (name a)

theorem part_cons (mine : κ → Bool) (a : α) (objects : List α) :
    part name mine (a :: objects) =
      if mine (name a) = true then a :: part name mine objects else part name mine objects := by
  simp only [part, List.filter_cons]

variable {name} in
theorem part_append_own {mine : κ → Bool} {a : α} (h : mine (name a) = true) (objects : List α) :
    part name mine (objects ++ [a]) = part name mine objects ++ [a] := by
  simp [part, h]

variable {name} in
theorem part_append_other {mine : κ → Bool} {a : α} (h : mine (name a) = false)
    (objects : List α) : part name mine (objects ++ [a]) = part name mine objects := by
  simp [part, h]

variable [DecidableEq κ]

def find (k : κ) (objects : List α) : Option α := objects.find? fun a => decide (name a = k)

def holds (k : κ) (objects : List α) : Bool := objects.any fun a => decide (name a = k)

/-- Change the objects of a name, or remove them where `f` is `none`. -/
def change (k : κ) (f : α → Option α) (objects : List α) : List α :=
  objects.filterMap fun a => if name a = k then f a else some a

variable {name} {mine : κ → Bool} {k : κ} {f : α → Option α}

theorem find_part (hk : mine k = true) (objects : List α) :
    find name k (part name mine objects) = find name k objects := by
  unfold find part
  rw [List.find?_filter]
  congr 1
  funext a
  by_cases ha : name a = k
  · simp [ha, hk]
  · simp [ha]

theorem holds_part (hk : mine k = true) (objects : List α) :
    holds name k (part name mine objects) = holds name k objects := by
  unfold holds part
  rw [List.any_filter]
  congr 1
  funext a
  by_cases ha : name a = k
  · simp [ha, hk]
  · simp [ha]

/-- The object of a name after a change of that name. -/
theorem find_change_some {g : α → α} (hg : ∀ a, name (g a) = name a) (objects : List α) :
    find name k (change name k (fun a => some (g a)) objects) = (find name k objects).map g := by
  induction objects with
  | nil => rfl
  | cons a objects ih =>
    unfold find change at ih ⊢
    by_cases hname : name a = k
    · simp [hname, hg]
    · simpa [hname] using ih

/-- No object of a name is left after they are removed. -/
theorem find_change_none (objects : List α) :
    find name k (change name k (fun _ => none) objects) = none := by
  refine List.find?_eq_none.mpr fun b hb => ?_
  obtain ⟨a, -, hab⟩ := List.mem_filterMap.mp hb
  by_cases hname : name a = k
  · simp [hname] at hab
  · rw [if_neg hname, Option.some.injEq] at hab
    simpa [← hab] using hname

/-- A change of another name. -/
theorem find_change_ne {k' : κ} (h : k' ≠ k) (hf : ∀ a b, f a = some b → name b = name a)
    (objects : List α) : find name k' (change name k f objects) = find name k' objects := by
  induction objects with
  | nil => rfl
  | cons a objects ih =>
    unfold find change at ih ⊢
    by_cases hname : name a = k
    · have hne : ¬ name a = k' := fun h' => h (h'.symm.trans hname)
      cases hfa : f a with
      | none => simpa [hname, hfa, h.symm] using ih
      | some b =>
        have hb : ¬ name b = k' := by rwa [hf a b hfa]
        simpa [hname, hfa, hb, h.symm] using ih
    · by_cases hk' : name a = k'
      · simp [hk', h]
      · simpa [hname, hk'] using ih

/-- An object after a change is one of another name that was there, or the changed form of one of
that name. -/
theorem mem_change {b : α} {objects : List α} (h : b ∈ change name k f objects) :
    (b ∈ objects ∧ name b ≠ k) ∨ ∃ a ∈ objects, name a = k ∧ f a = some b := by
  obtain ⟨a, ha, hb⟩ := List.mem_filterMap.mp h
  by_cases hname : name a = k
  · rw [if_pos hname] at hb
    exact .inr ⟨a, ha, hname, hb⟩
  · rw [if_neg hname, Option.some.injEq] at hb
    exact .inl ⟨hb ▸ ha, hb ▸ hname⟩

theorem change_cons_same {a : α} (h : name a = k) (objects : List α) :
    change name k f (a :: objects) = (f a).toList ++ change name k f objects := by
  unfold change
  rw [List.filterMap_cons, if_pos h]
  cases f a <;> rfl

theorem change_cons_ne {a : α} (h : name a ≠ k) (objects : List α) :
    change name k f (a :: objects) = a :: change name k f objects := by
  unfold change
  rw [List.filterMap_cons, if_neg h]

/-- A change of an own name is a change of the own part. -/
theorem part_change_own (hk : mine k = true) (hf : ∀ a b, f a = some b → name b = name a)
    (objects : List α) :
    part name mine (change name k f objects) = change name k f (part name mine objects) := by
  induction objects with
  | nil => rfl
  | cons a objects ih =>
    by_cases hname : name a = k
    · have hmine : mine (name a) = true := by rw [hname, hk]
      rw [part_cons, if_pos hmine, change_cons_same hname, change_cons_same hname]
      cases hfa : f a with
      | none => exact ih
      | some b =>
        show part name mine (b :: change name k f objects) = _
        rw [part_cons, if_pos (by rw [hf a b hfa, hmine]), ih]
        rfl
    · rw [change_cons_ne hname, part_cons, part_cons]
      split
      · rw [change_cons_ne hname, ih]
      · exact ih

/-- A change of a name that is not an own one leaves the own part as it is. -/
theorem part_change_other (hk : mine k = false) (hf : ∀ a b, f a = some b → name b = name a)
    (objects : List α) :
    part name mine (change name k f objects) = part name mine objects := by
  induction objects with
  | nil => rfl
  | cons a objects ih =>
    by_cases hname : name a = k
    · have hmine : mine (name a) ≠ true := by simp [hname, hk]
      rw [part_cons, if_neg hmine, change_cons_same hname]
      cases hfa : f a with
      | none => exact ih
      | some b =>
        show part name mine (b :: change name k f objects) = _
        rw [part_cons, if_neg (by rwa [hf a b hfa]), ih]
    · rw [change_cons_ne hname, part_cons, part_cons, ih]

end ProofKit.Registry
