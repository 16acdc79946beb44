import Mathlib.Data.List.Find
import Mathlib.Data.List.Nodup
import Mathlib.Data.List.Perm.Basic
import Mathlib.Data.List.TakeWhile
import Mathlib.Data.List.Induction
import Mathlib.Data.Set.Subsingleton

/-! Python's ways of collecting values in a loop: appending what is not there yet, grouping with
`setdefault(key, []).append(item)`, and updating records in place through references. -/

namespace ProofKit

variable {α κ ε : Type}

/-- A traversal succeeds with the images of its items if each of them does. -/
theorem mapM_eq_ok_map {β : Type} {f : α → Except ε β} {g : α → β} {items : List α}
    (h : ∀ a ∈ items, f a = .ok (g a)) : items.mapM f = .ok (items.map g) := by
  induction items with
  | nil => rfl
  | cons a rest ih =>
    rw [List.mapM_cons, h a (by simp), ih fun b hb => h b (List.mem_cons_of_mem _ hb)]
    rfl

/-- Changing items, dropping some of them and changing the others back is dropping them. -/
theorem map_filter_map {f g : α → α} {p q : α → Bool} {items : List α}
    (hkept : ∀ a ∈ items, q a = true → p (f a) = true ∧ g (f a) = a)
    (hdropped : ∀ a ∈ items, q a = false → p (f a) = false) :
    ((items.map f).filter p).map g = items.filter q := by
  induction items with
  | nil => rfl
  | cons a rest ih =>
    have hrest := ih (fun b hb => hkept b (List.mem_cons_of_mem _ hb)) fun b hb =>
      hdropped b (List.mem_cons_of_mem _ hb)
    cases hq : q a with
    | true =>
      obtain ⟨hp, hg⟩ := hkept a List.mem_cons_self hq
      simp [hp, hg, hq, hrest]
    | false => simp [hdropped a List.mem_cons_self hq, hq, hrest]

section InsertNew

variable [DecidableEq α]

/-- `if item not in items: items.append(item)`. -/
def insertNew (items : List α) (item : α) : List α :=
  if item ∈ items then items else items ++ [item]

theorem mem_insertNew {items : List α} {item x : α} :
    x ∈ insertNew items item ↔ x ∈ items ∨ x = item := by
  unfold insertNew
  split
  · rename_i h
    constructor
    · exact Or.inl
    · rintro (hx | rfl)
      · exact hx
      · exact h
  · simp

theorem insertNew_of_mem {items : List α} {item : α} (h : item ∈ items) :
    insertNew items item = items := by
  simp [insertNew, h]

theorem nodup_insertNew {items : List α} (item : α) (h : items.Nodup) :
    (insertNew items item).Nodup := by
  unfold insertNew
  split
  · exact h
  · rename_i hnew
    simpa [List.concat_eq_append] using h.concat hnew

/-- A loop of insertions collects what was there and what it inserts. -/
theorem mem_foldl_insertNew (added : List α) (items : List α) (x : α) :
    x ∈ added.foldl insertNew items ↔ x ∈ items ∨ x ∈ added := by
  induction added generalizing items with
  | nil => simp
  | cons a rest ih =>
    rw [List.foldl_cons, ih, mem_insertNew, List.mem_cons, or_assoc]

theorem nodup_foldl_insertNew (added : List α) {items : List α} (h : items.Nodup) :
    (added.foldl insertNew items).Nodup := by
  induction added generalizing items with
  | nil => exact h
  | cons a rest ih => exact ih (nodup_insertNew a h)

end InsertNew

section Groups

variable [DecidableEq κ]

/-- A dictionary of lists, its keys in the order of their first use. -/
abbrev Groups (κ α : Type) := List (κ × List α)

namespace Groups

/-- `groups.setdefault(key, []).append(item)`. -/
def add : Groups κ α → κ → α → Groups κ α
  | [], key, item => [(key, [item])]
  | (k, items) :: rest, key, item =>
    if k = key then (k, items ++ [item]) :: rest else (k, items) :: add rest key item

/-- `groups.get(key, [])`. -/
def get : Groups κ α → κ → List α
  | [], _ => []
  | (k, items) :: rest, key => if k = key then items else get rest key

theorem get_add (groups : Groups κ α) (key k : κ) (item : α) :
    (groups.add key item).get k = groups.get k ++ if key = k then [item] else [] := by
  induction groups with
  | nil => by_cases h : key = k <;> simp [add, get, h]
  | cons group rest ih =>
    obtain ⟨k', items⟩ := group
    by_cases hk' : k' = key
    · subst hk'
      by_cases h : k' = k <;> simp [add, get, h]
    · by_cases h : k' = k
      · subst h
        simp [add, get, hk', Ne.symm hk']
      · simp [add, get, hk', h, ih]

theorem keys_add (groups : Groups κ α) (key : κ) (item : α) :
    (groups.add key item).map Prod.fst = insertNew (groups.map Prod.fst) key := by
  induction groups with
  | nil => simp [add, insertNew]
  | cons group rest ih =>
    obtain ⟨k, items⟩ := group
    by_cases hk : k = key
    · subst hk
      simp [add, insertNew]
    · simp only [add, hk, if_false, List.map_cons, ih, insertNew, List.mem_cons, Ne.symm hk,
        false_or]
      split <;> simp

/-- With distinct keys, the items of a group are the ones that `get` returns for its key. -/
theorem get_of_mem {groups : Groups κ α} (hkeys : (groups.map Prod.fst).Nodup) {key : κ}
    {items : List α} (h : (key, items) ∈ groups) : groups.get key = items := by
  induction groups with
  | nil => simp at h
  | cons group rest ih =>
    obtain ⟨k, items'⟩ := group
    simp only [List.map_cons, List.nodup_cons] at hkeys
    rcases List.mem_cons.mp h with heq | hrest
    · simp only [Prod.mk.injEq] at heq
      obtain ⟨rfl, rfl⟩ := heq
      simp [get]
    · have hne : k ≠ key := by
        rintro rfl
        exact hkeys.1 (List.mem_map.mpr ⟨(k, items), hrest, rfl⟩)
      simp only [get, hne, if_false]
      exact ih hkeys.2 hrest

theorem mem_of_get {groups : Groups κ α} {key : κ} {x : α} (h : x ∈ groups.get key) :
    ∃ items, (key, items) ∈ groups ∧ x ∈ items := by
  induction groups with
  | nil => simp [get] at h
  | cons group rest ih =>
    obtain ⟨k, items⟩ := group
    by_cases hk : k = key
    · subst hk
      exact ⟨items, by simp, by simpa [get] using h⟩
    · simp only [get, hk, if_false] at h
      obtain ⟨items', hmem, hx⟩ := ih h
      exact ⟨items', List.mem_cons_of_mem _ hmem, hx⟩

/-- `groups[key] = items`, for a key that is there. -/
def put (groups : Groups κ α) (key : κ) (items : List α) : Groups κ α :=
  groups.map fun group => if group.1 = key then (key, items) else group

/-- `del groups[key]`. -/
def remove (groups : Groups κ α) (key : κ) : Groups κ α :=
  groups.filter fun group => group.1 ≠ key

@[simp] theorem keys_put (groups : Groups κ α) (key : κ) (items : List α) :
    (groups.put key items).map Prod.fst = groups.map Prod.fst := by
  rw [put, List.map_map]
  apply List.map_congr_left
  intro group _
  by_cases h : group.1 = key <;> simp [h]

theorem get_put_self {groups : Groups κ α} {key : κ} (h : key ∈ groups.map Prod.fst)
    (items : List α) : (groups.put key items).get key = items := by
  induction groups with
  | nil => simp at h
  | cons group rest ih =>
    obtain ⟨k, items'⟩ := group
    by_cases hk : k = key
    · simp [put, get, hk]
    · have hrest : key ∈ rest.map Prod.fst := by simpa [Ne.symm hk] using h
      simpa [put, get, hk] using ih hrest

theorem remove_put (groups : Groups κ α) (key : κ) (items : List α) :
    (groups.put key items).remove key = groups.remove key := by
  induction groups with
  | nil => rfl
  | cons group rest ih =>
    simp only [remove, put, List.map_cons] at ih ⊢
    by_cases hk : group.1 = key
    · simpa [hk] using ih
    · simpa [hk] using ih

theorem nodup_keys_remove {groups : Groups κ α} (h : (groups.map Prod.fst).Nodup) (key : κ) :
    ((groups.remove key).map Prod.fst).Nodup :=
  h.sublist (List.filter_sublist.map Prod.fst)

theorem get_remove_ne (groups : Groups κ α) {key k : κ} (h : k ≠ key) :
    (groups.remove key).get k = groups.get k := by
  induction groups with
  | nil => rfl
  | cons group rest ih =>
    obtain ⟨k', items⟩ := group
    simp only [remove] at ih ⊢
    by_cases hk : k' = key
    · subst hk
      simpa [get, Ne.symm h] using ih
    · rw [List.filter_cons_of_pos (by simpa using hk)]
      by_cases hk' : k' = k
      · simp [get, hk']
      · simpa [get, hk'] using ih

/-- The items of the groups whose keys satisfy `p`. -/
theorem flatMap_get_filter {groups : Groups κ α} (hkeys : (groups.map Prod.fst).Nodup)
    (p : κ → Bool) :
    ((groups.map Prod.fst).filter p).flatMap groups.get =
      (groups.filter fun group => p group.1).flatMap Prod.snd := by
  rw [List.filter_map, List.flatMap_map]
  apply List.flatMap_congr
  intro group hgroup
  exact get_of_mem hkeys (List.mem_of_mem_filter hgroup)

/-! ### Entries -/

/-- Every item with its key. -/
def entries (groups : Groups κ α) : List (κ × α) :=
  groups.flatMap fun group => group.2.map (Prod.mk group.1)

omit [DecidableEq κ] in
theorem map_snd_entries (groups : Groups κ α) :
    groups.entries.map Prod.snd = groups.flatMap Prod.snd := by
  simp [entries, List.map_flatMap, Function.comp_def]

theorem get_of_not_mem {groups : Groups κ α} {key : κ} (h : key ∉ groups.map Prod.fst) :
    groups.get key = [] := by
  by_contra hne
  obtain ⟨x, hx⟩ := List.exists_mem_of_ne_nil _ hne
  obtain ⟨items, hmem, -⟩ := mem_of_get hx
  exact h (List.mem_map.mpr ⟨_, hmem, rfl⟩)

theorem entries_add (groups : Groups κ α) (key : κ) (item : α) :
    (groups.add key item).entries.Perm ((key, item) :: groups.entries) := by
  induction groups with
  | nil => exact .refl _
  | cons group rest ih =>
    obtain ⟨k, items⟩ := group
    by_cases hk : k = key
    · subst hk
      simp only [add, if_true, entries, List.flatMap_cons, List.map_append, List.map_cons,
        List.map_nil, List.append_assoc]
      exact List.perm_middle
    · simp only [add, hk, if_false, entries, List.flatMap_cons]
      exact (ih.append_left _).trans List.perm_middle

omit [DecidableEq κ] in
/-- Reordering each group keeps the entries. -/
theorem entries_map {f : κ → List α → List α} (hf : ∀ k items, (f k items).Perm items)
    (groups : Groups κ α) :
    (entries (groups.map fun group => (group.1, f group.1 group.2))).Perm groups.entries := by
  rw [entries, List.flatMap_map]
  exact List.Perm.flatMap_left _ fun group _ => (hf group.1 group.2).map _

theorem entries_remove {groups : Groups κ α} (hkeys : (groups.map Prod.fst).Nodup) (key : κ) :
    groups.entries.Perm ((groups.get key).map (Prod.mk key) ++ (groups.remove key).entries) := by
  induction groups with
  | nil => exact .refl _
  | cons group rest ih =>
    obtain ⟨k, items⟩ := group
    obtain ⟨hnew, hrest⟩ := List.nodup_cons.mp hkeys
    by_cases hk : k = key
    · subst hk
      have hsame : remove rest k = rest := by
        refine List.filter_eq_self.mpr fun group hgroup => ?_
        have hne : group.1 ≠ k := fun heq => hnew (List.mem_map.mpr ⟨group, hgroup, heq⟩)
        simpa using hne
      have hremove : remove ((k, items) :: rest) k = rest := by
        rw [remove, List.filter_cons_of_neg (by simp)]
        exact hsame
      rw [hremove]
      simp [entries, get]
    · have hremove : remove ((k, items) :: rest) key = (k, items) :: remove rest key := by
        rw [remove, List.filter_cons_of_pos (by simpa using hk)]
        rfl
      rw [hremove]
      simp only [entries, get, hk, if_false, List.flatMap_cons]
      apply ((ih hrest).append_left _).trans
      exact List.perm_append_comm_assoc _ _ _

/-- Dropping items from the front of a group takes their entries away. -/
theorem entries_put_drop {groups : Groups κ α} (hkeys : (groups.map Prod.fst).Nodup) (key : κ)
    (count : Nat) :
    groups.entries.Perm (((groups.get key).take count).map (Prod.mk key) ++
      (groups.put key ((groups.get key).drop count)).entries) := by
  have hkeys' : ((groups.put key ((groups.get key).drop count)).map Prod.fst).Nodup := by
    rwa [keys_put]
  have hput := entries_remove hkeys' key
  have hget : (groups.put key ((groups.get key).drop count)).get key =
      (groups.get key).drop count := by
    by_cases hmem : key ∈ groups.map Prod.fst
    · exact get_put_self hmem _
    · rw [get_of_not_mem (by rwa [keys_put]), get_of_not_mem hmem, List.drop_nil]
  rw [hget, remove_put] at hput
  refine (entries_remove hkeys key).trans (.trans ?_ (hput.symm.append_left _))
  rw [← List.append_assoc, ← List.map_append, List.take_append_drop]

end Groups

/-- Group `items` by `key` in a loop; an item without a key is left out. -/
def groupBy (key : α → Option κ) (items : List α) : Groups κ α :=
  items.foldl (fun groups item =>
    match key item with
    | some k => groups.add k item
    | none => groups) []

/-- A group holds the items of its key in their order. -/
theorem get_groupBy (key : α → Option κ) (items : List α) (k : κ) :
    (groupBy key items).get k = items.filter (fun item => key item = some k) := by
  suffices h : ∀ groups : Groups κ α, (items.foldl (fun groups item =>
      match key item with
      | some k => groups.add k item
      | none => groups) groups).get k =
        groups.get k ++ items.filter (fun item => key item = some k) by
    simpa [groupBy, Groups.get] using h []
  induction items with
  | nil => simp
  | cons item rest ih =>
    intro groups
    rw [List.foldl_cons, ih]
    cases hkey : key item with
    | none => simp [hkey]
    | some k' =>
      by_cases hk : k' = k
      · subst hk
        simp [Groups.get_add, hkey]
      · simp [Groups.get_add, hkey, hk]

theorem nodup_keys_groupBy (key : α → Option κ) (items : List α) :
    ((groupBy key items).map Prod.fst).Nodup := by
  suffices h : ∀ groups : Groups κ α, (groups.map Prod.fst).Nodup →
      ((items.foldl (fun groups item =>
        match key item with
        | some k => groups.add k item
        | none => groups) groups).map Prod.fst).Nodup by
    exact h [] List.nodup_nil
  induction items with
  | nil => exact fun _ h => h
  | cons item rest ih =>
    intro groups hgroups
    rw [List.foldl_cons]
    apply ih
    cases key item with
    | none => exact hgroups
    | some k =>
      rw [Groups.keys_add]
      exact nodup_insertNew k hgroups

theorem mem_groupBy {key : α → Option κ} {items : List α} {k : κ} {group : List α}
    (h : (k, group) ∈ groupBy key items) :
    group = items.filter (fun item => key item = some k) := by
  rw [← get_groupBy, Groups.get_of_mem (nodup_keys_groupBy key items) h]

theorem exists_of_mem_keys_groupBy {key : α → Option κ} {items : List α} {k : κ}
    (h : k ∈ (groupBy key items).map Prod.fst) : ∃ a ∈ items, key a = some k := by
  suffices hfold : ∀ groups : Groups κ α, k ∈ (items.foldl (fun groups item =>
      match key item with
      | some k => groups.add k item
      | none => groups) groups).map Prod.fst →
        k ∈ groups.map Prod.fst ∨ ∃ a ∈ items, key a = some k by
    simpa using hfold [] h
  clear h
  induction items with
  | nil => exact fun _ h => .inl h
  | cons item rest ih =>
    intro groups hmem
    rw [List.foldl_cons] at hmem
    rcases ih _ hmem with hgroups | ⟨a, ha, hk⟩
    · cases hkey : key item with
      | none =>
        rw [hkey] at hgroups
        exact .inl hgroups
      | some k' =>
        rw [hkey] at hgroups
        rw [Groups.keys_add, mem_insertNew] at hgroups
        rcases hgroups with hgroups | rfl
        · exact .inl hgroups
        · exact .inr ⟨item, List.mem_cons_self, hkey⟩
    · exact .inr ⟨a, List.mem_cons_of_mem _ ha, hk⟩

theorem exists_mem_groupBy {key : α → Option κ} {items : List α} {k : κ} {a : α}
    (ha : a ∈ items) (hk : key a = some k) :
    ∃ group, (k, group) ∈ groupBy key items ∧ a ∈ group := by
  apply Groups.mem_of_get
  rw [get_groupBy]
  exact List.mem_filter.mpr ⟨ha, by simpa using hk⟩

end Groups

section Touch

/-- Update in place the record that a reference points to.  A reference into a list of records is
a position. -/
def touch (f : α → α) (ref : Nat) : EStateM ε (List α) Unit := modify (·.modify ref f)

/-- The records after each of `refs` has been touched in turn. -/
def touchAll (f : α → α) (refs : List Nat) (records : List α) : List α :=
  refs.foldl (fun records ref => records.modify ref f) records

theorem run_forM_touch (f : α → α) (refs : List Nat) (records : List α) :
    (forM refs (touch f : Nat → EStateM ε (List α) Unit)).run records =
      .ok () (touchAll f refs records) := by
  induction refs generalizing records with
  | nil => rfl
  | cons ref rest ih =>
    simp only [List.forM_cons, EStateM.run_bind]
    exact ih (records.modify ref f)

/-- Touching distinct references changes each of their records once and no other record. -/
theorem getElem?_touchAll (f : α → α) {refs : List Nat} (hrefs : refs.Nodup) (records : List α)
    (i : Nat) :
    (touchAll f refs records)[i]? = records[i]?.map fun a => if i ∈ refs then f a else a := by
  induction refs generalizing records with
  | nil => simp [touchAll]
  | cons ref rest ih =>
    obtain ⟨hnew, hrest⟩ := List.nodup_cons.mp hrefs
    have hstep : touchAll f (ref :: rest) records = touchAll f rest (records.modify ref f) := rfl
    rw [hstep, ih hrest]
    by_cases hi : ref = i
    · subst hi
      rw [List.getElem?_modify_eq]
      cases records[ref]? <;> simp [hnew]
    · rw [List.getElem?_modify_ne _ _ hi]
      simp [Ne.symm hi]

/-- The references to the records that satisfy `p`, in their order. -/
def refsWhere (p : α → Bool) (records : List α) : List Nat :=
  (List.range records.length).filter fun ref => records[ref]?.any p

theorem nodup_refsWhere (p : α → Bool) (records : List α) : (refsWhere p records).Nodup :=
  List.nodup_range.filter _

theorem mem_refsWhere {p : α → Bool} {records : List α} {ref : Nat} :
    ref ∈ refsWhere p records ↔ ∃ a, records[ref]? = some a ∧ p a = true := by
  simp only [refsWhere, List.mem_filter, List.mem_range, Option.any_eq_true]
  constructor
  · exact And.right
  · rintro ⟨a, ha, hp⟩
    exact ⟨(List.getElem?_eq_some_iff.mp ha).1, a, ha, hp⟩

theorem filter_refsWhere (p q : α → Bool) (records : List α) :
    (refsWhere p records).filter (fun ref => records[ref]?.any q) =
      refsWhere (fun a => p a && q a) records := by
  rw [refsWhere, refsWhere, List.filter_filter]
  apply List.filter_congr
  intro ref _
  cases records[ref]? <;> simp [Bool.and_comm]

theorem length_refsWhere (p : α → Bool) (records : List α) :
    (refsWhere p records).length = records.countP p := by
  induction records using List.reverseRecOn with
  | nil => rfl
  | append_singleton records a ih =>
    have hold : (List.range records.length).filter (fun ref => (records ++ [a])[ref]?.any p) =
        refsWhere p records := by
      apply List.filter_congr
      intro ref href
      rw [List.getElem?_append_left (List.mem_range.mp href)]
    rw [refsWhere, List.length_append, List.length_singleton, List.range_succ, List.filter_append,
      hold, List.length_append, ih, List.countP_append]
    cases hp : p a <;> simp [hp]

/-- Several items satisfy `p` if and only if one besides a given one does. -/
theorem one_lt_countP_iff {p : α → Bool} {records : List α} {i : Nat} {a : α}
    (hi : records[i]? = some a) (ha : p a = true) :
    1 < records.countP p ↔ ∃ j b, j ≠ i ∧ records[j]? = some b ∧ p b = true := by
  have hmem : i ∈ refsWhere p records := mem_refsWhere.mpr ⟨a, hi, ha⟩
  rw [← length_refsWhere]
  constructor
  · intro hlong
    by_contra hnone
    have honly : refsWhere p records ⊆ [i] := by
      intro j hj
      obtain ⟨b, hb, hpb⟩ := mem_refsWhere.mp hj
      by_contra hji
      exact hnone ⟨j, b, by simpa using hji, hb, hpb⟩
    have hle := (List.subperm_of_subset (nodup_refsWhere p records) honly).length_le
    rw [List.length_singleton] at hle
    omega
  · rintro ⟨j, b, hji, hb, hpb⟩
    have hj : j ∈ refsWhere p records := mem_refsWhere.mpr ⟨b, hb, hpb⟩
    have hpair : [i, j] ⊆ refsWhere p records := by simp [hmem, hj]
    have hdistinct : [i, j].Nodup := by simpa using hji.symm
    exact (List.subperm_of_subset hdistinct hpair).length_le

end Touch

/-- The items of one leading run are in another one, or are the first item after it, if and only if
all but the last item of the run pass the test of the other one. -/
theorem mem_takeWhile_or_find_iff {p q : α → Bool} {items : List α} (hnodup : items.Nodup) :
    (∀ a ∈ items.takeWhile p, a ∈ items.takeWhile q ∨ items.find? (fun b => !q b) = some a) ↔
      ∀ a ∈ (items.takeWhile p).dropLast, q a = true := by
  induction items with
  | nil => simp
  | cons b rest ih =>
    obtain ⟨hb, hrest⟩ := List.nodup_cons.mp hnodup
    cases hp : p b with
    | false => simp [List.takeWhile_cons, hp]
    | true =>
      have hne : ∀ a ∈ rest.takeWhile p, a ≠ b := fun a ha hab =>
        hb (hab ▸ (List.takeWhile_sublist p).subset ha)
      rw [List.takeWhile_cons_of_pos hp]
      cases hq : q b with
      | true =>
        rw [List.takeWhile_cons_of_pos hq, List.find?_cons_of_neg (by simp [hq])]
        have hrun : (∀ a ∈ (b :: rest.takeWhile p).dropLast, q a = true) ↔
            ∀ a ∈ (rest.takeWhile p).dropLast, q a = true := by
          cases rest.takeWhile p with
          | nil => simp
          | cons c l => simp [hq]
        rw [hrun, ← ih hrest]
        constructor
        · intro h a ha
          exact (h a (List.mem_cons_of_mem _ ha)).imp_left fun hmem =>
            (List.mem_cons.mp hmem).resolve_left (hne a ha)
        · intro h a ha
          rcases List.mem_cons.mp ha with rfl | ha
          · exact .inl List.mem_cons_self
          · exact (h a ha).imp_left (List.mem_cons_of_mem _)
      | false =>
        rw [List.takeWhile_cons_of_neg (by simp [hq]), List.find?_cons_of_pos (by simp [hq])]
        cases hrun : rest.takeWhile p with
        | nil => simp
        | cons c l =>
          -- the second item of the run is beyond the first refused one
          have hcb : c ≠ b := hne c (by simp [hrun])
          constructor
          · intro h
            have hc := h c (by simp)
            simp [Ne.symm hcb] at hc
          · intro h
            have hqb := h b (by simp)
            rw [hq] at hqb
            cases hqb

section Enumerated

variable {items : List α} {s : Set α}

/-- A list without repetition that enumerates a set counts it. -/
theorem length_eq_one_iff_of_mem_iff (hnodup : items.Nodup) (h : ∀ a, a ∈ items ↔ a ∈ s) :
    items.length = 1 ↔ ∃ a, s = {a} := by
  constructor
  · intro hone
    obtain ⟨a, rfl⟩ := List.length_eq_one_iff.mp hone
    refine ⟨a, Set.ext fun b => ?_⟩
    rw [← h, List.mem_singleton, Set.mem_singleton_iff]
  · rintro ⟨a, rfl⟩
    have hperm : items.Perm [a] := (List.perm_ext_iff_of_nodup hnodup (List.nodup_singleton a)).mpr
      fun b => by rw [h, List.mem_singleton, Set.mem_singleton_iff]
    exact hperm.length_eq

theorem eq_nil_iff_of_mem_iff (h : ∀ a, a ∈ items ↔ a ∈ s) : items = [] ↔ s = ∅ := by
  rw [List.eq_nil_iff_forall_not_mem, Set.eq_empty_iff_forall_notMem]
  exact forall_congr' fun a => not_congr (h a)

theorem two_le_length_iff_of_mem_iff (hnodup : items.Nodup) (h : ∀ a, a ∈ items ↔ a ∈ s) :
    2 ≤ items.length ↔ s.Nontrivial := by
  have hzero := eq_nil_iff_of_mem_iff h
  have hone := length_eq_one_iff_of_mem_iff hnodup h
  rw [← List.length_eq_zero_iff] at hzero
  rw [← Set.not_subsingleton_iff, Set.subsingleton_iff_eq_empty_or_singleton, ← hzero, ← hone]
  omega

end Enumerated

/-! ### Changing the last record that satisfies a condition -/

/-- The records after the last one that satisfies `p` has been changed. -/
def modifyLast (p : α → Bool) (f : α → α) (items : List α) : List α :=
  match (List.range items.length).reverse.find? fun i => items[i]?.any p with
  | some i => items.modify i f
  | none => items

section ModifyLast

variable {p : α → Bool} {f : α → α} {xs ys : List α}

theorem length_modifyLast (p : α → Bool) (f : α → α) (items : List α) :
    (modifyLast p f items).length = items.length := by
  unfold modifyLast
  split
  · exact List.length_modify ..
  · rfl

theorem modify_append_left {i : Nat} (hi : i < xs.length) :
    (xs ++ ys).modify i f = xs.modify i f ++ ys := by
  induction xs generalizing i with
  | nil => cases hi
  | cons x rest ih =>
    cases i with
    | zero => rfl
    | succ i =>
      rw [List.length_cons] at hi
      rw [List.cons_append, List.modify_succ_cons, List.modify_succ_cons, ih (by omega),
        List.cons_append]

theorem modify_append_right (xs : List α) (i : Nat) :
    (xs ++ ys).modify (xs.length + i) f = xs ++ ys.modify i f := by
  induction xs with
  | nil => rw [List.length_nil, Nat.zero_add, List.nil_append, List.nil_append]
  | cons x rest ih =>
    have hlength : (x :: rest).length + i = (rest.length + i) + 1 := by
      rw [List.length_cons]
      omega
    rw [hlength, List.cons_append, List.modify_succ_cons, ih, List.cons_append]

theorem reverse_range_add (m n : Nat) :
    (List.range (m + n)).reverse =
      (List.range n).reverse.map (m + ·) ++ (List.range m).reverse := by
  rw [List.range_add, List.reverse_append, List.map_reverse]

theorem modifyLast_append_left (h : ∀ y ∈ ys, p y = false) :
    modifyLast p f (xs ++ ys) = modifyLast p f xs ++ ys := by
  have hnone : ((List.range ys.length).reverse.map (xs.length + ·)).find?
      (fun i => (xs ++ ys)[i]?.any p) = none := by
    rw [List.find?_eq_none]
    intro i hi
    obtain ⟨j, hj, rfl⟩ := List.mem_map.mp hi
    have hlt : j < ys.length := by simpa using hj
    rw [List.getElem?_append_right (by omega), Nat.add_sub_cancel_left,
      List.getElem?_eq_getElem hlt]
    simp [h _ (List.getElem_mem hlt)]
  have hsame : (List.range xs.length).reverse.find? (fun i => (xs ++ ys)[i]?.any p) =
      (List.range xs.length).reverse.find? fun i => xs[i]?.any p := by
    apply List.find?_congr
    intro i hi
    have hlt : i < xs.length := by simpa using hi
    rw [List.getElem?_append_left hlt]
  unfold modifyLast
  rw [List.length_append, reverse_range_add, List.find?_append, hnone, hsame, Option.none_or]
  split
  · rename_i i hi
    have hlt : i < xs.length := by simpa using List.mem_of_find?_eq_some hi
    exact modify_append_left hlt
  · rfl

theorem modifyLast_append_right (h : ∀ x ∈ xs, p x = false) :
    modifyLast p f (xs ++ ys) = xs ++ modifyLast p f ys := by
  have hnone : (List.range xs.length).reverse.find? (fun i => (xs ++ ys)[i]?.any p) = none := by
    rw [List.find?_eq_none]
    intro i hi
    have hlt : i < xs.length := by simpa using hi
    rw [List.getElem?_append_left hlt, List.getElem?_eq_getElem hlt]
    simp [h _ (List.getElem_mem hlt)]
  have hshift : ((List.range ys.length).reverse.map (xs.length + ·)).find?
      (fun i => (xs ++ ys)[i]?.any p) =
        ((List.range ys.length).reverse.find? fun i => ys[i]?.any p).map (xs.length + ·) := by
    rw [List.find?_map]
    congr 1
    apply List.find?_congr
    intro i _
    show (xs ++ ys)[xs.length + i]?.any p = _
    rw [List.getElem?_append_right (by omega), Nat.add_sub_cancel_left]
  unfold modifyLast
  rw [List.length_append, reverse_range_add, List.find?_append, hnone, hshift, Option.or_none]
  cases hfind : (List.range ys.length).reverse.find? fun i => ys[i]?.any p with
  | none => rfl
  | some i =>
    exact modify_append_right xs i

end ModifyLast
end ProofKit
