import Mathlib.Data.List.Forall2

/-! Regular expressions that are matched with backtracking, and the matches that a scan of a text
finds from left to right. -/

namespace ProofKit

variable {α β : Type}

inductive Pattern (α : Type) where
  | empty
  | one (p : α → Bool)
  | many (p : α → Bool)
  | exactly (p : α → Bool) (n : Nat)
  | maybe (r : Pattern α)
  | seq (r r' : Pattern α)

namespace Pattern

/-- What is left of a text after a run of items, the longest run first. -/
def manyRests (p : α → Bool) : List α → List (List α)
  | [] => [[]]
  | a :: text => if p a then manyRests p text ++ [a :: text] else [a :: text]

/-- What is left of a text after the pattern, in the order in which backtracking tries it. -/
def rests : Pattern α → List α → List (List α)
  | .empty, text => [text]
  | .one _, [] => []
  | .one p, a :: text => if p a then [text] else []
  | .many p, text => manyRests p text
  | .exactly p n, text =>
    if n ≤ text.length ∧ (text.take n).all p = true then [text.drop n] else []
  | .maybe r, text => r.rests text ++ [text]
  | .seq r r', text => (r.rests text).flatMap r'.rests

/-- The words of a pattern. -/
def Matches : Pattern α → List α → Prop
  | .empty, word => word = []
  | .one p, word => ∃ a, p a = true ∧ word = [a]
  | .many p, word => ∀ a ∈ word, p a = true
  | .exactly p n, word => word.length = n ∧ ∀ a ∈ word, p a = true
  | .maybe r, word => r.Matches word ∨ word = []
  | .seq r r', word => ∃ first second, r.Matches first ∧ r'.Matches second ∧ word = first ++ second

/-- Patterns one after the other. -/
def sequence (rs : List (Pattern α)) : Pattern α := rs.foldr .seq .empty

/-- One item of each class. -/
def items (ps : List (α → Bool)) : Pattern α := sequence (ps.map .one)

/-- Whether no class of the pattern has the item. -/
def excludes (a : α) : Pattern α → Bool
  | .empty => true
  | .one p | .many p | .exactly p _ => !p a
  | .maybe r => r.excludes a
  | .seq r r' => r.excludes a && r'.excludes a

theorem mem_manyRests {p : α → Bool} {text rest : List α} :
    rest ∈ manyRests p text ↔ ∃ word, (∀ a ∈ word, p a = true) ∧ text = word ++ rest := by
  induction text with
  | nil =>
    simp only [manyRests, List.mem_singleton, List.nil_eq_append_iff]
    constructor
    · rintro rfl
      exact ⟨[], by simp⟩
    · rintro ⟨word, -, -, hrest⟩
      exact hrest
  | cons a text ih =>
    have hself : ∃ word, (∀ b ∈ word, p b = true) ∧ a :: text = word ++ (a :: text) :=
      ⟨[], by simp⟩
    cases hp : p a with
    | false =>
      simp only [manyRests, hp, Bool.false_eq_true, if_false, List.mem_singleton]
      constructor
      · rintro rfl
        exact hself
      · rintro ⟨_ | ⟨b, word⟩, hword, htext⟩
        · exact htext.symm
        · obtain ⟨rfl, -⟩ := List.cons.inj htext
          rw [hword a (by simp)] at hp
          cases hp
    | true =>
      simp only [manyRests, hp, if_true, List.mem_append, List.mem_singleton, ih]
      constructor
      · rintro (⟨word, hword, rfl⟩ | rfl)
        · exact ⟨a :: word, by simpa [hp] using hword, rfl⟩
        · exact hself
      · rintro ⟨_ | ⟨b, word⟩, hword, htext⟩
        · exact .inr htext.symm
        · obtain ⟨rfl, rfl⟩ := List.cons.inj htext
          exact .inl ⟨word, fun c hc => hword c (List.mem_cons_of_mem _ hc), rfl⟩

/-- Backtracking tries what is left after each word of the pattern that the text starts with. -/
theorem mem_rests {r : Pattern α} {text rest : List α} :
    rest ∈ r.rests text ↔ ∃ word, r.Matches word ∧ text = word ++ rest := by
  induction r generalizing text rest with
  | empty =>
    simp only [rests, Matches, List.mem_singleton, exists_eq_left, List.nil_append]
    exact eq_comm
  | one p =>
    cases text with
    | nil =>
      simp only [rests, List.not_mem_nil, Matches, false_iff]
      rintro ⟨word, ⟨a, -, rfl⟩, htext⟩
      cases htext
    | cons a text =>
      simp only [rests, Matches, List.mem_ite_nil_right, List.mem_singleton]
      constructor
      · rintro ⟨hp, rfl⟩
        exact ⟨[a], ⟨a, hp, rfl⟩, rfl⟩
      · rintro ⟨word, ⟨b, hp, rfl⟩, htext⟩
        obtain ⟨rfl, rfl⟩ := List.cons.inj htext
        exact ⟨hp, rfl⟩
  | many p => exact mem_manyRests
  | exactly p n =>
    simp only [rests, Matches, List.mem_ite_nil_right, List.mem_singleton, List.all_eq_true]
    constructor
    · rintro ⟨⟨hlength, hall⟩, rfl⟩
      exact ⟨text.take n, ⟨by rw [List.length_take]; omega, hall⟩,
        (List.take_append_drop n text).symm⟩
    · rintro ⟨word, ⟨rfl, hall⟩, rfl⟩
      refine ⟨⟨?_, by simpa using hall⟩, by simp⟩
      rw [List.length_append]
      omega
  | maybe r ih =>
    simp only [rests, Matches, List.mem_append, List.mem_singleton, ih]
    constructor
    · rintro (⟨word, hword, htext⟩ | rfl)
      · exact ⟨word, .inl hword, htext⟩
      · exact ⟨[], .inr rfl, rfl⟩
    · rintro ⟨word, hword | rfl, htext⟩
      · exact .inl ⟨word, hword, htext⟩
      · exact .inr htext.symm
  | seq r r' ih ih' =>
    simp only [rests, Matches, List.mem_flatMap, ih, ih']
    constructor
    · rintro ⟨inner, ⟨first, hfirst, rfl⟩, second, hsecond, rfl⟩
      exact ⟨first ++ second, ⟨first, second, hfirst, hsecond, rfl⟩, by simp⟩
    · rintro ⟨word, ⟨first, second, hfirst, hsecond, rfl⟩, rfl⟩
      exact ⟨second ++ rest, ⟨first, hfirst, by simp⟩, second, hsecond, rfl⟩

theorem not_mem_of_class {a : α} {p : α → Bool} (h : (!p a) = true) {word : List α}
    (hword : ∀ b ∈ word, p b = true) : a ∉ word := by
  intro ha
  rw [hword a ha] at h
  cases h

theorem not_mem_of_excludes {a : α} {r : Pattern α} (h : r.excludes a = true) {word : List α}
    (hword : r.Matches word) : a ∉ word := by
  induction r generalizing word with
  | empty =>
    cases hword
    simp
  | one p =>
    obtain ⟨b, hb, rfl⟩ := hword
    exact not_mem_of_class h (by simpa using hb)
  | many p => exact not_mem_of_class h hword
  | exactly p n => exact not_mem_of_class h hword.2
  | maybe r ih =>
    rcases hword with hword | rfl
    · exact ih h hword
    · simp
  | seq r r' ih ih' =>
    obtain ⟨first, second, hfirst, hsecond, rfl⟩ := hword
    obtain ⟨h, h'⟩ := Bool.and_eq_true_iff.mp h
    rw [List.mem_append, not_or]
    exact ⟨ih h hfirst, ih' h' hsecond⟩

theorem matches_items {ps : List (α → Bool)} {word : List α} :
    (items ps).Matches word ↔ List.Forall₂ (fun p a => p a = true) ps word := by
  induction ps generalizing word with
  | nil => simp [items, sequence, Matches]
  | cons p ps ih =>
    rw [List.forall₂_cons_left_iff]
    show (∃ first second, _ ∧ (items ps).Matches second ∧ _) ↔ _
    simp only [Matches, ih]
    constructor
    · rintro ⟨_, second, ⟨a, ha, rfl⟩, hsecond, rfl⟩
      exact ⟨a, second, ha, hsecond, rfl⟩
    · rintro ⟨a, second, ha, hsecond, rfl⟩
      exact ⟨[a], second, ⟨a, ha, rfl⟩, hsecond, rfl⟩

/-! ### A pattern that ends with a group -/

/-- The first match at the start of a text, of a pattern that ends with a group: what the group
matched, and what is left. -/
def matchGroup (before group : Pattern α) (text : List α) : Option (List α × List α) :=
  ((before.rests text).flatMap fun inner =>
    (group.rests inner).map fun rest => (inner.take (inner.length - rest.length), rest)).head?

variable {before group : Pattern α} {text : List α}

theorem matches_of_matchGroup {found rest : List α}
    (h : matchGroup before group text = some (found, rest)) :
    ∃ word, before.Matches word ∧ group.Matches found ∧ text = word ++ (found ++ rest) := by
  have hmem := List.mem_of_mem_head? (Option.mem_def.mpr h)
  simp only [List.mem_flatMap, List.mem_map, mem_rests, Prod.mk.injEq] at hmem
  obtain ⟨inner, ⟨word, hword, rfl⟩, rest', ⟨found', hfound', rfl⟩, hfound, rfl⟩ := hmem
  refine ⟨word, hword, ?_, ?_⟩
  all_goals rw [← hfound, List.length_append, Nat.add_sub_cancel, List.take_left]
  exact hfound'

theorem exists_matchGroup {word found rest : List α} (hword : before.Matches word)
    (hfound : group.Matches found) (htext : text = word ++ (found ++ rest)) :
    ∃ found' rest', matchGroup before group text = some (found', rest') := by
  have hsome : (matchGroup before group text).isSome = true := by
    simp only [matchGroup, List.isSome_head?, ne_eq]
    have hmem : ((found ++ rest).take ((found ++ rest).length - rest.length), rest) ∈
        (before.rests text).flatMap fun inner => (group.rests inner).map fun rest =>
          (inner.take (inner.length - rest.length), rest) := by
      simp only [List.mem_flatMap, List.mem_map, mem_rests, Prod.mk.injEq]
      exact ⟨found ++ rest, ⟨word, hword, htext⟩, rest, ⟨found, hfound, rfl⟩, rfl, rfl⟩
    exact List.ne_nil_of_mem hmem
  obtain ⟨⟨found', rest'⟩, hfound'⟩ := Option.isSome_iff_exists.mp hsome
  exact ⟨found', rest', hfound'⟩

end Pattern

/-! ### The matches in a text -/

/-- What a reader of the start of a text finds, with what is left after it. -/
abbrev Finder (α β : Type) := List α → Option (β × List α)

/-- The scan of a text from left to right, with a number of items that belong to the last match.  No
match is empty. -/
def findFrom (find : Finder α β) : Nat → List α → List β
  | _, [] => []
  | skip + 1, _ :: text => findFrom find skip text
  | 0, a :: text =>
    match find (a :: text) with
    | some (found, rest) => found :: findFrom find (text.length - rest.length) text
    | none => findFrom find 0 text

def findIter (find : Finder α β) (text : List α) : List β := findFrom find 0 text

/-- A match is not empty, and no match starts inside it. -/
structure Apart (find : Finder α β) : Prop where
  consumes : ∀ text found rest, find text = some (found, rest) → rest.length < text.length
  no_inner : ∀ before suffix found rest, before ≠ [] →
    find (before ++ suffix) = some (found, rest) → rest.length < suffix.length →
    find suffix = none

theorem mem_findFrom {find : Finder α β} (h : Apart find) {skip : Nat} {text : List α} {found : β} :
    found ∈ findFrom find skip text ↔ ∃ before suffix rest, text = before ++ suffix ∧
      skip ≤ before.length ∧ find suffix = some (found, rest) := by
  induction text generalizing skip with
  | nil =>
    simp only [findFrom, List.not_mem_nil, List.nil_eq_append_iff, false_iff]
    rintro ⟨before, suffix, rest, ⟨-, rfl⟩, -, hfind⟩
    have hlength := h.consumes _ _ _ hfind
    rw [List.length_nil] at hlength
    omega
  | cons a text ih =>
    -- a match further on is one of the rest of the text
    have hlater : ∀ n, (∃ before suffix rest, text = before ++ suffix ∧ n ≤ before.length ∧
        find suffix = some (found, rest)) ↔ ∃ before suffix rest, a :: text = before ++ suffix ∧
          n + 1 ≤ before.length ∧ find suffix = some (found, rest) := by
      intro n
      constructor
      · rintro ⟨before, suffix, rest, rfl, hn, hfind⟩
        exact ⟨a :: before, suffix, rest, rfl, Nat.succ_le_succ hn, hfind⟩
      · rintro ⟨_ | ⟨b, before⟩, suffix, rest, htext, hn, hfind⟩
        · rw [List.length_nil] at hn
          omega
        · obtain ⟨-, rfl⟩ := List.cons.inj htext
          exact ⟨before, suffix, rest, rfl, Nat.le_of_succ_le_succ hn, hfind⟩
    cases skip with
    | succ skip => exact ih.trans (hlater skip)
    | zero =>
      cases hfind : find (a :: text) with
      | none =>
        simp only [findFrom, hfind, ih, hlater]
        constructor
        · rintro ⟨before, suffix, rest, htext, -, hfound⟩
          exact ⟨before, suffix, rest, htext, Nat.zero_le _, hfound⟩
        · rintro ⟨_ | ⟨b, before⟩, suffix, rest, htext, -, hfound⟩
          · rw [List.nil_append] at htext
            rw [← htext, hfind] at hfound
            cases hfound
          · exact ⟨b :: before, suffix, rest, htext, by simp, hfound⟩
      | some first =>
        obtain ⟨first, left⟩ := first
        simp only [findFrom, hfind, List.mem_cons, ih, hlater]
        constructor
        · rintro (rfl | ⟨before, suffix, rest, htext, -, hfound⟩)
          · exact ⟨[], a :: text, left, rfl, Nat.zero_le _, hfind⟩
          · exact ⟨before, suffix, rest, htext, Nat.zero_le _, hfound⟩
        · rintro ⟨_ | ⟨b, before⟩, suffix, rest, htext, -, hfound⟩
          · rw [List.nil_append] at htext
            rw [← htext, hfind] at hfound
            cases hfound
            exact .inl rfl
          · refine .inr ⟨b :: before, suffix, rest, htext, ?_, hfound⟩
            by_contra hinside
            have hlength := congrArg List.length htext
            simp only [List.length_cons, List.length_append] at hlength hinside
            rw [htext] at hfind
            rw [h.no_inner _ _ _ _ (by simp) hfind (by omega)] at hfound
            cases hfound

/-- The scan finds every match in the text. -/
theorem mem_findIter {find : Finder α β} (h : Apart find) {text : List α} {found : β} :
    found ∈ findIter find text ↔
      ∃ before suffix rest, text = before ++ suffix ∧ find suffix = some (found, rest) := by
  simp only [findIter, mem_findFrom h, Nat.zero_le, true_and]

/-! ### Words with a mark -/

/-- The word starts with a head and has its last mark at position `k`.  No head is so close to the
end that a mark could follow at this distance. -/
structure Marked (k : Nat) (isHead isMark : α → Bool) (word : List α) : Prop where
  head : ∃ a, word[0]? = some a ∧ isHead a = true
  mark : ∃ a, word[k]? = some a ∧ isMark a = true
  mark_last : ∀ i a, k < i → word[i]? = some a → isMark a = false
  head_early : ∀ i a, word.length ≤ i + k → word[i]? = some a → isHead a = false

theorem apart_of_marked {before group : Pattern α} {k : Nat} {isHead isMark : α → Bool}
    (h : ∀ word found, before.Matches word → group.Matches found →
      Marked k isHead isMark (word ++ found)) : Apart (Pattern.matchGroup before group) where
  consumes text found rest hfind := by
    obtain ⟨word, hword, hfound, rfl⟩ := Pattern.matches_of_matchGroup hfind
    obtain ⟨a, ha, -⟩ := (h word found hword hfound).head
    have hpos := (List.getElem?_eq_some_iff.mp ha).1
    simp only [List.length_append] at hpos ⊢
    omega
  no_inner start suffix found rest hstart hfind hlength := by
    rw [Option.eq_none_iff_forall_not_mem]
    rintro ⟨found', rest'⟩ hfind'
    obtain ⟨word, hword, hfound, htext⟩ := Pattern.matches_of_matchGroup hfind
    obtain ⟨word', hword', hfound', rfl⟩ := Pattern.matches_of_matchGroup hfind'
    have houter := h word found hword hfound
    have hinner := h word' found' hword' hfound'
    rw [← List.append_assoc word' found' rest'] at htext hlength
    rw [← List.append_assoc word found rest] at htext
    generalize word ++ found = outer at htext houter
    generalize word' ++ found' = inner at htext hinner hlength
    have hsum := congrArg List.length htext
    have hpos := List.length_pos_iff.mpr hstart
    simp only [List.length_append] at hsum hlength
    -- the items of the inner word, where they stand in the text
    have hitem : ∀ i a, start.length + i < outer.length → inner[i]? = some a →
        outer[start.length + i]? = some a := by
      intro i a hi ha
      have hleft : (outer ++ rest)[start.length + i]? = outer[start.length + i]? :=
        List.getElem?_append_left hi
      rw [← hleft, ← htext, List.getElem?_append_right (by omega), Nat.add_sub_cancel_left,
        List.getElem?_append_left (List.getElem?_eq_some_iff.mp ha).1]
      exact ha
    obtain ⟨a, ha, hhead⟩ := hinner.head
    obtain ⟨b, hb, hmark⟩ := hinner.mark
    by_cases hmarked : start.length + k < outer.length
    · rw [houter.mark_last _ b (by omega) (hitem k b hmarked hb)] at hmark
      cases hmark
    · rw [houter.head_early _ a (by omega) (hitem 0 a (by omega) ha)] at hhead
      cases hhead

end ProofKit
