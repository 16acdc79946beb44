import Mathlib.Data.Fin.Basic
import Mathlib.Data.List.Basic
import Mathlib.Tactic.Basic

/-! Base64 with the standard alphabet and mandatory padding.  The decoder is strict: it takes groups
of four characters of the alphabet, and padding in the last group only. -/

namespace ProofKit.Base64

abbrev Byte := Fin 256

abbrev Sextet := Fin 64

/-- The character of six bits. -/
def digit (s : Sextet) : Char :=
  Char.ofNat (if s.val < 26 then s.val + 65 else if s.val < 52 then s.val + 71
    else if s.val < 62 then s.val - 4 else if s.val = 62 then 43 else 47)

/-- The six bits of a character of the alphabet. -/
def sextet (c : Char) : Option Sextet :=
  if h : 65 ≤ c.toNat ∧ c.toNat ≤ 90 then some ⟨c.toNat - 65, by omega⟩
  else if h : 97 ≤ c.toNat ∧ c.toNat ≤ 122 then some ⟨c.toNat - 71, by omega⟩
  else if h : 48 ≤ c.toNat ∧ c.toNat ≤ 57 then some ⟨c.toNat + 4, by omega⟩
  else if c.toNat = 43 then some 62
  else if c.toNat = 47 then some 63
  else none

def firstByte (a b : Sextet) : Byte := ⟨a.val * 4 + b.val / 16, by omega⟩

def secondByte (b c : Sextet) : Byte := ⟨b.val % 16 * 16 + c.val / 4, by omega⟩

def thirdByte (c d : Sextet) : Byte := ⟨c.val % 4 * 64 + d.val, by omega⟩

def decodeGroup (a b c d : Char) : Option (List Byte) := do
  let a ← sextet a
  let b ← sextet b
  let c ← sextet c
  let d ← sextet d
  return [firstByte a b, secondByte b c, thirdByte c d]

/-- The last group may be padded.  A canonical decoder refuses one whose unused bits are not 0. -/
def decodeLast (canonical : Bool) (a b c d : Char) : Option (List Byte) :=
  if d = '=' then
    if c = '=' then do
      let a ← sextet a
      let b ← sextet b
      if canonical = true ∧ b.val % 16 ≠ 0 then none else return [firstByte a b]
    else do
      let a ← sextet a
      let b ← sextet b
      let c ← sextet c
      if canonical = true ∧ c.val % 4 ≠ 0 then none else return [firstByte a b, secondByte b c]
  else decodeGroup a b c d

/-- Whether unused bits are looked at is left open: decoders may differ there. -/
def decode (canonical : Bool) : List Char → Option (List Byte)
  | [] => some []
  | a :: b :: c :: d :: rest =>
    if rest = [] then decodeLast canonical a b c d
    else do
      let bytes ← decodeGroup a b c d
      let others ← decode canonical rest
      return bytes ++ others
  | _ => none

def encode : List Byte → List Char
  | [] => []
  | [x] => [digit ⟨x.val / 4, by omega⟩, digit ⟨x.val % 4 * 16, by omega⟩, '=', '=']
  | [x, y] =>
    [digit ⟨x.val / 4, by omega⟩, digit ⟨x.val % 4 * 16 + y.val / 16, by omega⟩,
      digit ⟨y.val % 16 * 4, by omega⟩, '=']
  | x :: y :: z :: rest =>
    digit ⟨x.val / 4, by omega⟩ :: digit ⟨x.val % 4 * 16 + y.val / 16, by omega⟩ ::
      digit ⟨y.val % 16 * 4 + z.val / 64, by omega⟩ :: digit ⟨z.val % 64, by omega⟩ :: encode rest

/-- After a padding character there is only padding. -/
def PaddedAtEnd (text : List Char) : Prop := text.Pairwise fun c c' => c = '=' → c' = '='

instance (text : List Char) : Decidable (PaddedAtEnd text) :=
  inferInstanceAs (Decidable (text.Pairwise fun c c' => c = '=' → c' = '='))

variable {canonical : Bool}

@[simp] theorem decode_nil : decode canonical [] = some [] := rfl

@[simp] theorem sextet_digit (s : Sextet) : sextet (digit s) = some s := by
  revert s
  decide +kernel

theorem digit_ne_pad (s : Sextet) : digit s ≠ '=' := by
  revert s
  decide +kernel

theorem sextet_pad : sextet '=' = none := by decide +kernel

/-! ### Decoding a concatenation -/

/-- Only the last group may be padded. -/
theorem decodeGroup_of_pad {a b c d : Char} (h : '=' ∈ [a, b, c, d]) :
    decodeGroup a b c d = none := by
  simp only [List.mem_cons, List.not_mem_nil, or_false] at h
  unfold decodeGroup
  obtain rfl | rfl | rfl | rfl := h
  · rw [sextet_pad]
    rfl
  · rw [sextet_pad]
    cases sextet a <;> rfl
  · rw [sextet_pad]
    cases sextet a <;> cases sextet b <;> rfl
  · rw [sextet_pad]
    cases sextet a <;> cases sextet b <;> cases sextet c <;> rfl

theorem decodeLast_of_not_pad {a b c d : Char} (h : '=' ∉ [a, b, c, d]) :
    decodeLast canonical a b c d = decodeGroup a b c d := by
  unfold decodeLast
  rw [if_neg]
  rintro rfl
  exact h (by simp)

theorem decode_group {a b c d : Char} {rest : List Char} (h : rest ≠ []) :
    decode canonical (a :: b :: c :: d :: rest) = do
      let bytes ← decodeGroup a b c d
      let others ← decode canonical rest
      return bytes ++ others := by
  rw [decode, if_neg h]

/-- Nothing decodes that starts with padding. -/
theorem decode_pad {text : List Char} (h : ∀ c ∈ text, c = '=') (hne : text ≠ []) :
    decode canonical text = none := by
  match text with
  | [] => exact absurd rfl hne
  | [_] | [_, _] | [_, _, _] => rfl
  | a :: b :: c :: d :: rest =>
    obtain rfl : a = '=' := h a (by simp)
    by_cases hrest : rest = []
    · subst hrest
      obtain rfl : d = '=' := h d (by simp)
      obtain rfl : c = '=' := h c (by simp)
      unfold decode decodeLast
      rw [if_pos rfl, if_pos rfl, if_pos rfl, sextet_pad]
      rfl
    · rw [decode_group hrest, decodeGroup_of_pad (by simp)]
      rfl

/-- Whole groups decode on their own, by induction on the groups, when nothing but padding follows
their padding. -/
theorem decode_append {text text' : List Char} (hlength : 4 ∣ text.length)
    (hpad : '=' ∈ text → ∀ c ∈ text', c = '=') :
    decode canonical (text ++ text') = do
      let bytes ← decode canonical text
      let bytes' ← decode canonical text'
      return bytes ++ bytes' := by
  match text with
  | [] =>
    rw [List.nil_append, decode_nil]
    cases decode canonical text' <;> rfl
  | [_] | [_, _] | [_, _, _] =>
    simp only [List.length_cons, List.length_nil] at hlength
    omega
  | a :: b :: c :: d :: rest =>
    have hlength' : 4 ∣ rest.length := by
      simp only [List.length_cons] at hlength
      omega
    have ih := decode_append hlength' fun h => hpad (by simp [h])
    by_cases hrest : rest = []
    · subst hrest
      by_cases htext' : text' = []
      · subst htext'
        rw [List.append_nil, decode_nil]
        cases decode canonical [a, b, c, d] <;> simp
      rw [show [a, b, c, d] ++ text' = a :: b :: c :: d :: text' from rfl, decode_group htext']
      by_cases hmem : '=' ∈ [a, b, c, d]
      · rw [decodeGroup_of_pad hmem, decode_pad (hpad hmem) htext']
        cases decode canonical [a, b, c, d] <;> rfl
      · rw [decode, if_pos rfl, decodeLast_of_not_pad hmem]
    · rw [List.cons_append, List.cons_append, List.cons_append, List.cons_append,
        decode_group (by simp [hrest]), decode_group hrest, ih]
      cases decodeGroup a b c d with
      | none => rfl
      | some bytes =>
        cases decode canonical rest with
        | none => rfl
        | some others => cases decode canonical text' <;> simp

/-! ### Round trip -/

theorem firstByte_digits (x : Byte) {n : Nat} (hn : n < 16) :
    firstByte ⟨x.val / 4, by omega⟩ ⟨x.val % 4 * 16 + n, by omega⟩ = x := by
  apply Fin.ext
  show x.val / 4 * 4 + (x.val % 4 * 16 + n) / 16 = x.val
  omega

theorem secondByte_digits (y : Byte) {m n : Nat} (hm : m < 4) (hn : n < 4) :
    secondByte ⟨m * 16 + y.val / 16, by omega⟩ ⟨y.val % 16 * 4 + n, by omega⟩ = y := by
  apply Fin.ext
  show (m * 16 + y.val / 16) % 16 * 16 + (y.val % 16 * 4 + n) / 4 = y.val
  omega

theorem thirdByte_digits (z : Byte) {m : Nat} (hm : m < 16) :
    thirdByte ⟨m * 4 + z.val / 64, by omega⟩ ⟨z.val % 64, by omega⟩ = z := by
  apply Fin.ext
  show (m * 4 + z.val / 64) % 4 * 64 + z.val % 64 = z.val
  omega

theorem decodeGroup_digit (a b c d : Sextet) :
    decodeGroup (digit a) (digit b) (digit c) (digit d) =
      some [firstByte a b, secondByte b c, thirdByte c d] := by
  simp [decodeGroup]

theorem decodeLast_digit_one (a : Sextet) {b : Sextet} (h : b.val % 16 = 0) :
    decodeLast canonical (digit a) (digit b) '=' '=' = some [firstByte a b] := by
  simp [decodeLast, h]

theorem decodeLast_digit_two (a b : Sextet) {c : Sextet} (h : c.val % 4 = 0) :
    decodeLast canonical (digit a) (digit b) (digit c) '=' =
      some [firstByte a b, secondByte b c] := by
  simp [decodeLast, h, digit_ne_pad]

variable (canonical) in
/-- By induction on the groups of three bytes. -/
theorem decode_encode (bytes : List Byte) : decode canonical (encode bytes) = some bytes := by
  match bytes with
  | [] => rfl
  | [x] =>
    rw [encode, decode, if_pos rfl, decodeLast_digit_one _ (by simp),
      show (⟨x.val % 4 * 16, _⟩ : Sextet) = ⟨x.val % 4 * 16 + 0, by omega⟩ from rfl,
      firstByte_digits x (by decide)]
  | [x, y] =>
    rw [encode, decode, if_pos rfl, decodeLast_digit_two _ _ (by simp),
      firstByte_digits x (by omega),
      show (⟨y.val % 16 * 4, _⟩ : Sextet) = ⟨y.val % 16 * 4 + 0, by omega⟩ from rfl,
      secondByte_digits y (by omega) (by decide)]
  | x :: y :: z :: rest =>
    have ih := decode_encode rest
    have hgroup : decodeGroup (digit ⟨x.val / 4, by omega⟩)
        (digit ⟨x.val % 4 * 16 + y.val / 16, by omega⟩)
        (digit ⟨y.val % 16 * 4 + z.val / 64, by omega⟩) (digit ⟨z.val % 64, by omega⟩) =
        some [x, y, z] := by
      rw [decodeGroup_digit, firstByte_digits x (by omega), secondByte_digits y (by omega) (by omega),
        thirdByte_digits z (by omega)]
    rw [encode]
    by_cases hrest : encode rest = []
    · have hempty : rest = [] := by
        rw [hrest] at ih
        exact (Option.some.inj ih).symm
      rw [hrest, decode, if_pos rfl, decodeLast_of_not_pad (by simp [(digit_ne_pad _).symm]), hgroup,
        hempty]
    · rw [decode_group hrest, hgroup, ih]
      rfl

theorem paddedAtEnd_encode (bytes : List Byte) : PaddedAtEnd (encode bytes) := by
  match bytes with
  | [] => exact .nil
  | [x] | [x, y] => simp [PaddedAtEnd, encode, digit_ne_pad]
  | x :: y :: z :: rest =>
    have ih := paddedAtEnd_encode rest
    simpa [PaddedAtEnd, encode, digit_ne_pad] using ih

end ProofKit.Base64
