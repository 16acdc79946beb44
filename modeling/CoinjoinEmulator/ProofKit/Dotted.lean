import Mathlib.Order.Basic
import Mathlib.Order.Fin.Basic

/-! Words joined by a separator, numerals as words of digits, and how the order of the texts
compares with that of the numbers. -/

namespace ProofKit

variable {α : Type}

/-- `sep.join(words)`. -/
def joined (sep : α) : List (List α) → List α
  | [] => []
  | word :: rest => word ++ rest.flatMap (sep :: ·)

/-! ### The order of joined words -/

section Order

variable {sep : α}

theorem head?_flatMap_sep (words : List (List α)) :
    words.flatMap (sep :: ·) = [] ∨ (words.flatMap (sep :: ·)).head? = some sep := by
  cases words with
  | nil => exact .inl rfl
  | cons word rest => exact .inr rfl

variable [LinearOrder α]

/-- A word that a separator ends comes first by its letters, which are all above the separator, and
then by what follows. -/
theorem append_lt_append_iff {a b s t : List α} (ha : ∀ x ∈ a, sep < x) (hb : ∀ x ∈ b, sep < x)
    (hs : s = [] ∨ s.head? = some sep) (ht : t = [] ∨ t.head? = some sep) :
    a ++ s < b ++ t ↔ a < b ∨ a = b ∧ s < t := by
  induction a generalizing b with
  | nil =>
    cases b with
    | nil => simp
    | cons y b =>
      have hy := hb y (by simp)
      cases s with
      | nil => simp
      | cons x s =>
        obtain rfl : x = sep := by simpa using hs
        simp [List.cons_lt_cons_iff, hy]
  | cons x a ih =>
    have hx := ha x (by simp)
    cases b with
    | nil =>
      cases t with
      | nil => simp
      | cons y t =>
        obtain rfl : y = sep := by simpa using ht
        simp [List.cons_lt_cons_iff, hx.not_gt, hx.ne']
    | cons y b =>
      have htail := ih (fun z hz => ha z (List.mem_cons_of_mem x hz)) fun z hz =>
        hb z (List.mem_cons_of_mem y hz)
      simp only [List.cons_append, List.cons_lt_cons_iff, htail, List.cons.injEq]
      constructor
      · rintro (hlt | ⟨heq, hlt | ⟨hrest, hlt⟩⟩)
        · exact .inl (.inl hlt)
        · exact .inl (.inr ⟨heq, hlt⟩)
        · exact .inr ⟨⟨heq, hrest⟩, hlt⟩
      · rintro ((hlt | ⟨heq, hlt⟩) | ⟨⟨heq, hrest⟩, hlt⟩)
        · exact .inl hlt
        · exact .inr ⟨heq, .inl hlt⟩
        · exact .inr ⟨heq, .inr ⟨hrest, hlt⟩⟩

theorem flatMap_lt_flatMap_iff {words words' : List (List α)}
    (h : ∀ word ∈ words, ∀ x ∈ word, sep < x) (h' : ∀ word ∈ words', ∀ x ∈ word, sep < x) :
    words.flatMap (sep :: ·) < words'.flatMap (sep :: ·) ↔ words < words' := by
  induction words generalizing words' with
  | nil => cases words' <;> simp
  | cons word rest ih =>
    cases words' with
    | nil => simp
    | cons word' rest' =>
      have htail := ih (fun w hw => h w (List.mem_cons_of_mem word hw)) fun w hw =>
        h' w (List.mem_cons_of_mem word' hw)
      simp only [List.flatMap_cons, List.cons_append, List.cons_lt_cons_iff, lt_self_iff_false,
        true_and, false_or]
      rw [append_lt_append_iff (h word (by simp)) (h' word' (by simp)) (head?_flatMap_sep rest)
        (head?_flatMap_sep rest'), htail]

/-- A separator below every letter lets the texts compare as the lists of their words. -/
theorem joined_lt_joined_iff {words words' : List (List α)} (hwords : words ≠ [])
    (hwords' : words' ≠ []) (h : ∀ word ∈ words, ∀ x ∈ word, sep < x)
    (h' : ∀ word ∈ words', ∀ x ∈ word, sep < x) :
    joined sep words < joined sep words' ↔ words < words' := by
  rw [← flatMap_lt_flatMap_iff h h']
  obtain ⟨word, rest, rfl⟩ := List.exists_cons_of_ne_nil hwords
  obtain ⟨word', rest', rfl⟩ := List.exists_cons_of_ne_nil hwords'
  simp [joined]

end Order

/-! ### Numerals -/

/-- The number with one more digit at its end. -/
def appendDigit (n : Nat) (d : Fin 10) : Nat := 10 * n + d

/-- The number that decimal digits stand for. -/
def decimal (digits : List (Fin 10)) : Nat := digits.foldl appendDigit 0

theorem le_foldl_appendDigit (digits : List (Fin 10)) (n : Nat) :
    n ≤ digits.foldl appendDigit n := by
  induction digits generalizing n with
  | nil => exact Nat.le_refl n
  | cons d rest ih =>
    have hle : appendDigit n d ≤ rest.foldl appendDigit (appendDigit n d) := ih _
    have hstep : n ≤ appendDigit n d := by
      unfold appendDigit
      omega
    exact Nat.le_trans hstep hle

@[simp] theorem decimal_singleton (d : Fin 10) : decimal [d] = d := by
  simp [decimal, appendDigit]

/-- Several digits without a leading zero are at least ten. -/
theorem ten_le_decimal {d : Fin 10} (hd : d ≠ 0) (e : Fin 10) (rest : List (Fin 10)) :
    10 ≤ decimal (d :: e :: rest) := by
  have hle := le_foldl_appendDigit rest (appendDigit (appendDigit 0 d) e)
  have hpos : 0 < (d : Nat) := Nat.pos_of_ne_zero fun h => hd (Fin.ext h)
  have hten : 10 ≤ appendDigit (appendDigit 0 d) e := by
    unfold appendDigit
    omega
  exact Nat.le_trans hten hle

/-- A numeral that has the value of a digit is that digit, or begins with a zero. -/
theorem eq_singleton_or_head_eq_zero {d first : Fin 10} {rest : List (Fin 10)}
    (h : decimal (first :: rest) = d) : first :: rest = [d] ∨ first = 0 := by
  cases rest with
  | nil =>
    rw [decimal_singleton] at h
    exact .inl (by rw [Fin.ext h])
  | cons e rest =>
    by_cases hzero : first = 0
    · exact .inr hzero
    · have hten := ten_le_decimal hzero e rest
      have hlt := d.isLt
      omega

end ProofKit
