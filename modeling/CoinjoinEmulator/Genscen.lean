import CoinjoinEmulator.Errors
import Mathlib.Data.List.Sort
import Mathlib.Algebra.Ring.Int.Defs

/-! `random_partition` of genscen_joinmarket.py: the funds of a generated taker. -/

namespace CoinjoinEmulator.Genscen

/-- `np.random.randint(low, high, size)`. -/
abbrev Randint := Int → Int → Int → Except PyError (List Int)

/-- `randint` raises or draws `size` integers from `low` up to but without `high`. -/
def Randint.Draws (randint : Randint) : Prop :=
  ∀ low high size drawn, randint low high size = .ok drawn →
    (drawn.length : Int) = size ∧ ∀ x ∈ drawn, low ≤ x ∧ x < high

/-- The parts after the cut `last`. -/
def partsAfter (last : Int) : List Int → Int → List Int
  | [], total => [total - last]
  | cut :: cuts, total => (cut - last) :: partsAfter cut cuts total

/-- Partition `total` into `n` random integers. -/
def randomPartition (randint : Randint) (total n : Int) : Except PyError (List Int) :=
  if n = 1 then return [total]
  else do
    match (← randint 1 total (n - 1)).insertionSort (· ≤ ·) with
    | [] => throw (.exception "list index out of range")
    | first :: cuts => return first :: partsAfter first cuts total

/-- The result is `n` positive amounts that make up `total`. -/
def Fundable (total n : Int) (result : Except PyError (List Int)) : Prop :=
  ∃ parts, result = .ok parts ∧ (parts.length : Int) = n ∧ (∀ part ∈ parts, 0 < part) ∧
    parts.sum = total

theorem length_partsAfter (last : Int) (cuts : List Int) (total : Int) :
    (partsAfter last cuts total).length = cuts.length + 1 := by
  induction cuts generalizing last with
  | nil => rfl
  | cons cut cuts ih => rw [partsAfter, List.length_cons, ih, List.length_cons]

/-- The differences telescope. -/
theorem sum_partsAfter (last : Int) (cuts : List Int) (total : Int) :
    last + (partsAfter last cuts total).sum = total := by
  induction cuts generalizing last with
  | nil => simp [partsAfter]
  | cons cut cuts ih =>
    have hrest := ih cut
    rw [partsAfter, List.sum_cons]
    omega

/-- The parts are positive if and only if the cuts increase. -/
theorem partsAfter_pos_iff (last : Int) (cuts : List Int) {total : Int}
    (hlast : last < total) (hcuts : ∀ cut ∈ cuts, cut < total) :
    (∀ part ∈ partsAfter last cuts total, 0 < part) ↔ (last :: cuts).IsChain (· < ·) := by
  induction cuts generalizing last with
  | nil => simpa [partsAfter] using hlast
  | cons cut cuts ih =>
    rw [partsAfter, List.forall_mem_cons, List.isChain_cons_cons, Int.sub_pos,
      ih cut (hcuts cut (by simp)) fun cut' h => hcuts cut' (by simp [h])]

/-- A sorted list increases if and only if nothing occurs twice in it. -/
theorem isChain_lt_iff_nodup {cuts : List Int} (hsorted : cuts.Pairwise (· ≤ ·)) :
    cuts.IsChain (· < ·) ↔ cuts.Nodup := by
  rw [List.isChain_iff_pairwise]
  constructor
  · exact fun h => h.imp fun hlt => Int.ne_of_lt hlt
  · exact fun h => (hsorted.and h).imp fun ⟨hle, hne⟩ => lt_of_le_of_ne hle hne

/-- The parts are all positive if and only if no cut was drawn twice. -/
theorem randomPartition_fundable_iff {randint : Randint} (hdraws : randint.Draws) {total n : Int}
    (hn : 1 ≤ n) (htotal : n ≤ total) :
    Fundable total n (randomPartition randint total n) ↔
      n = 1 ∨ ∃ drawn, randint 1 total (n - 1) = .ok drawn ∧ drawn.Nodup := by
  unfold randomPartition
  by_cases hone : n = 1
  · subst hone
    refine iff_of_true ⟨[total], rfl, rfl, ?_, by simp⟩ (.inl rfl)
    simp only [List.mem_singleton, forall_eq]
    omega
  rw [if_neg hone]
  cases hdrawn : randint 1 total (n - 1) with
  | error error =>
    refine iff_of_false ?_ (by simp [hone])
    rintro ⟨parts, hparts, -⟩
    cases hparts
  | ok drawn =>
    obtain ⟨hlength, hrange⟩ := hdraws _ _ _ _ hdrawn
    have hperm := List.perm_insertionSort (· ≤ ·) drawn
    have hsorted := List.pairwise_insertionSort (· ≤ ·) drawn
    simp only [hone, false_or, Except.ok.injEq, exists_eq_left', bind, Except.bind]
    rw [← hperm.nodup_iff]
    have hcuts : ∀ cut ∈ drawn.insertionSort (· ≤ ·), 0 < cut ∧ cut < total := fun cut hcut => by
      have := hrange cut (hperm.subset hcut); omega
    rw [← hperm.length_eq] at hlength
    cases hcase : drawn.insertionSort (· ≤ ·) with
    | nil =>
      rw [hcase] at hlength
      simp only [List.length_nil] at hlength
      omega
    | cons first cuts =>
      rw [hcase] at hlength hcuts hsorted
      obtain ⟨hfirst, hfirstTotal⟩ := hcuts first (by simp)
      have hpos := partsAfter_pos_iff first cuts hfirstTotal
        fun cut hcut => (hcuts cut (by simp [hcut])).2
      rw [isChain_lt_iff_nodup hsorted] at hpos
      rw [← hpos]
      constructor
      · rintro ⟨parts, hparts, -, hall, -⟩ part hpart
        cases hparts
        exact hall part (by simp [hpart])
      · intro hall
        refine ⟨_, rfl, ?_, ?_, sum_partsAfter first cuts total⟩
        · rw [List.length_cons, length_partsAfter]
          simp only [List.length_cons] at hlength
          omega
        · rw [List.forall_mem_cons]
          exact ⟨hfirst, hall⟩

/-- The draws are some numbers, cut down to the range. -/
def picking (pick : Nat → Int) : Randint := fun low high size =>
  if low < high ∧ 0 ≤ size then
    .ok ((List.range size.toNat).map fun i => low + pick i % (high - low))
  else .error (.valueError "low >= high")

theorem draws_picking (pick : Nat → Int) : (picking pick).Draws := by
  intro low high size drawn hdrawn
  unfold picking at hdrawn
  split at hdrawn
  · rename_i hrange
    cases hdrawn
    refine ⟨by rw [List.length_map, List.length_range]; omega, fun x hx => ?_⟩
    obtain ⟨i, -, rfl⟩ := List.mem_map.mp hx
    have hnonneg := Int.emod_nonneg (pick i) (show high - low ≠ 0 by omega)
    have hlt := Int.emod_lt_of_pos (pick i) (show 0 < high - low by omega)
    omega
  · cases hdrawn

/-- Every draw is the lowest integer. -/
def lowest : Randint := picking fun _ => 0

/-- The cuts 7, 5 and 3, drawn in this order. -/
theorem randomPartition_fundable_three_cuts :
    randomPartition (picking fun i => 6 - 2 * i) 10 4 = .ok [3, 2, 2, 3] ∧
      Fundable 10 4 (randomPartition (picking fun i => 6 - 2 * i) 10 4) :=
  ⟨rfl, (randomPartition_fundable_iff (draws_picking _) (by decide) (by decide)).mpr
    (.inr ⟨[7, 5, 3], rfl, by decide⟩)⟩

/-- Two cuts at 1 leave a fund without a satoshi between them. -/
theorem repeated_cut_not_fundable :
    lowest.Draws ∧ randomPartition lowest 3 3 = .ok [1, 0, 2] ∧
      ¬Fundable 3 3 (randomPartition lowest 3 3) := by
  have hparts : randomPartition lowest 3 3 = .ok [1, 0, 2] := rfl
  refine ⟨draws_picking _, hparts, ?_⟩
  rintro ⟨parts, hok, -, hpos, -⟩
  rw [hparts] at hok
  cases hok
  have := hpos 0 (by simp)
  omega

end CoinjoinEmulator.Genscen
