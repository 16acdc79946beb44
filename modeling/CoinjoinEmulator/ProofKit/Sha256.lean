import Mathlib.Algebra.Ring.Nat

/-! The SHA-256 digest of a text.  Words are natural numbers below `2 ^ 32`. -/

namespace ProofKit.Sha256

/-- The first 32 bits of the fractional parts of the cube roots of the first 64 primes. -/
def roundConstants : List Nat := [
  0x428a2f98, 0x71374491, 0xb5c0fbcf, 0xe9b5dba5, 0x3956c25b, 0x59f111f1, 0x923f82a4, 0xab1c5ed5,
  0xd807aa98, 0x12835b01, 0x243185be, 0x550c7dc3, 0x72be5d74, 0x80deb1fe, 0x9bdc06a7, 0xc19bf174,
  0xe49b69c1, 0xefbe4786, 0x0fc19dc6, 0x240ca1cc, 0x2de92c6f, 0x4a7484aa, 0x5cb0a9dc, 0x76f988da,
  0x983e5152, 0xa831c66d, 0xb00327c8, 0xbf597fc7, 0xc6e00bf3, 0xd5a79147, 0x06ca6351, 0x14292967,
  0x27b70a85, 0x2e1b2138, 0x4d2c6dfc, 0x53380d13, 0x650a7354, 0x766a0abb, 0x81c2c92e, 0x92722c85,
  0xa2bfe8a1, 0xa81a664b, 0xc24b8b70, 0xc76c51a3, 0xd192e819, 0xd6990624, 0xf40e3585, 0x106aa070,
  0x19a4c116, 0x1e376c08, 0x2748774c, 0x34b0bcb5, 0x391c0cb3, 0x4ed8aa4a, 0x5b9cca4f, 0x682e6ff3,
  0x748f82ee, 0x78a5636f, 0x84c87814, 0x8cc70208, 0x90befffa, 0xa4506ceb, 0xbef9a3f7, 0xc67178f2]

/-- The eight words that a digest consists of, and that the rounds change. -/
structure Words where
  a : Nat
  b : Nat
  c : Nat
  d : Nat
  e : Nat
  f : Nat
  g : Nat
  h : Nat

/-- The first 32 bits of the fractional parts of the square roots of the first eight primes. -/
def initialWords : Words :=
  ⟨0x6a09e667, 0xbb67ae85, 0x3c6ef372, 0xa54ff53a, 0x510e527f, 0x9b05688c, 0x1f83d9ab, 0x5be0cd19⟩

def add (x y : Nat) : Nat := (x + y) % 2 ^ 32

def rotateRight (x n : Nat) : Nat := (x >>> n) ||| ((x <<< (32 - n)) % 2 ^ 32)

def complement (x : Nat) : Nat := x ^^^ (2 ^ 32 - 1)

/-- One round with a round constant and a word of the message schedule. -/
def round (w : Words) (input : Nat × Nat) : Words :=
  let s1 := rotateRight w.e 6 ^^^ rotateRight w.e 11 ^^^ rotateRight w.e 25
  let choice := (w.e &&& w.f) ^^^ (complement w.e &&& w.g)
  let t1 := add (add (add w.h s1) choice) (add input.1 input.2)
  let s0 := rotateRight w.a 2 ^^^ rotateRight w.a 13 ^^^ rotateRight w.a 22
  let majority := (w.a &&& w.b) ^^^ (w.a &&& w.c) ^^^ (w.b &&& w.c)
  ⟨add t1 (add s0 majority), w.a, w.b, w.c, add w.d t1, w.e, w.f, w.g⟩

/-- Add `count` words to a message schedule, which is kept last word first. -/
def extend : Nat → List Nat → List Nat
  | 0, words => words
  | count + 1, words =>
    let w15 := words.getD 14 0
    let w2 := words.getD 1 0
    let s0 := rotateRight w15 7 ^^^ rotateRight w15 18 ^^^ (w15 >>> 3)
    let s1 := rotateRight w2 17 ^^^ rotateRight w2 19 ^^^ (w2 >>> 10)
    extend count (add (add (words.getD 15 0) s0) (add (words.getD 6 0) s1) :: words)

/-- Change the words by one block of sixteen words. -/
def compress (w : Words) (block : List Nat) : Words :=
  let w' := (roundConstants.zip (extend 48 block.reverse).reverse).foldl round w
  ⟨add w.a w'.a, add w.b w'.b, add w.c w'.c, add w.d w'.d,
    add w.e w'.e, add w.f w'.f, add w.g w'.g, add w.h w'.h⟩

/-- The message, a one bit, zeros up to the last eight bytes of a block, and the length in bits. -/
def padded (message : List Nat) : List Nat :=
  message ++ 0x80 :: (List.replicate ((119 - message.length % 64) % 64) 0 ++
    (List.range 8).map fun i => ((8 * message.length) >>> (56 - 8 * i)) % 256)

/-- Big-endian words of four bytes. -/
def wordsOf : List Nat → List Nat
  | b0 :: b1 :: b2 :: b3 :: rest =>
    ((b0 <<< 24) ||| (b1 <<< 16) ||| (b2 <<< 8) ||| b3) :: wordsOf rest
  | _ => []

/-- Change the words by `count` blocks. -/
def blocks : Nat → List Nat → Words → Words
  | 0, _, w => w
  | count + 1, words, w => blocks count (words.drop 16) (compress w (words.take 16))

def digest (message : List Nat) : Words :=
  let words := wordsOf (padded message)
  blocks (words.length / 16) words initialWords

def hexDigit (n : Nat) : Char := "0123456789abcdef".toList.getD n '0'

/-- The eight hexadecimal digits of a word. -/
def hexWord (word : Nat) : List Char :=
  (List.range 8).map fun i => hexDigit ((word >>> (28 - 4 * i)) % 16)

/-- `hashlib.sha256(text.encode("utf-8")).hexdigest()`. -/
@[irreducible] def hexdigest (text : String) : List Char :=
  let w := digest ((text.toList.flatMap String.utf8EncodeChar).map UInt8.toNat)
  [w.a, w.b, w.c, w.d, w.e, w.f, w.g, w.h].flatMap hexWord

@[simp] theorem length_hexWord (word : Nat) : (hexWord word).length = 8 := by simp [hexWord]

@[simp] theorem length_hexdigest (text : String) : (hexdigest text).length = 64 := by
  simp [hexdigest]

end ProofKit.Sha256
