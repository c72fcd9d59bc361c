import BnkForge.Lib.PythonBytes
import Mathlib.Algebra.Group.Nat.Defs

/-!
# SHA-256

`hashlib.sha256(data).hexdigest()` of Python. Words are numbers below `2 ^ 32`.
-/

namespace Python.Sha256

open List

def word (x : Nat) : Nat := x % 2 ^ 32

def rotateRight (count x : Nat) : Nat := word (x >>> count ||| x <<< (32 - count))

/-- The function of the message schedule for the word before last. -/
def sigma1 (x : Nat) : Nat := rotateRight 17 x ^^^ rotateRight 19 x ^^^ x >>> 10

/-- The function of the message schedule for the word before the first. -/
def sigma0 (x : Nat) : Nat := rotateRight 7 x ^^^ rotateRight 18 x ^^^ x >>> 3

def nextWord (window : List Nat) : Nat :=
  word (sigma1 (window.getD 14 0) + window.getD 9 0 + sigma0 (window.getD 1 0) + window.getD 0 0)

structure Words where
  a : Nat
  b : Nat
  c : Nat
  d : Nat
  e : Nat
  f : Nat
  g : Nat
  h : Nat

def round (k w : Nat) (s : Words) : Words :=
  let sum1 := rotateRight 6 s.e ^^^ rotateRight 11 s.e ^^^ rotateRight 25 s.e
  let choice := (s.e &&& s.f) ^^^ ((2 ^ 32 - 1 - s.e) &&& s.g)
  let first := s.h + sum1 + choice + k + w
  let sum0 := rotateRight 2 s.a ^^^ rotateRight 13 s.a ^^^ rotateRight 22 s.a
  let majority := (s.a &&& s.b) ^^^ (s.a &&& s.c) ^^^ (s.b &&& s.c)
  ⟨word (first + sum0 + majority), s.a, s.b, s.c, word (s.d + first), s.e, s.f, s.g⟩

def rounds : List Nat → List Nat → Words → Words
  | [], _, s => s
  | k :: ks, window, s => rounds ks (window.tail ++ [nextWord window]) (round k (window.headD 0) s)

def constants : List Nat :=
  [0x428a2f98, 0x71374491, 0xb5c0fbcf, 0xe9b5dba5, 0x3956c25b, 0x59f111f1, 0x923f82a4, 0xab1c5ed5,
    0xd807aa98, 0x12835b01, 0x243185be, 0x550c7dc3, 0x72be5d74, 0x80deb1fe, 0x9bdc06a7, 0xc19bf174,
    0xe49b69c1, 0xefbe4786, 0x0fc19dc6, 0x240ca1cc, 0x2de92c6f, 0x4a7484aa, 0x5cb0a9dc, 0x76f988da,
    0x983e5152, 0xa831c66d, 0xb00327c8, 0xbf597fc7, 0xc6e00bf3, 0xd5a79147, 0x06ca6351, 0x14292967,
    0x27b70a85, 0x2e1b2138, 0x4d2c6dfc, 0x53380d13, 0x650a7354, 0x766a0abb, 0x81c2c92e, 0x92722c85,
    0xa2bfe8a1, 0xa81a664b, 0xc24b8b70, 0xc76c51a3, 0xd192e819, 0xd6990624, 0xf40e3585, 0x106aa070,
    0x19a4c116, 0x1e376c08, 0x2748774c, 0x34b0bcb5, 0x391c0cb3, 0x4ed8aa4a, 0x5b9cca4f, 0x682e6ff3,
    0x748f82ee, 0x78a5636f, 0x84c87814, 0x8cc70208, 0x90befffa, 0xa4506ceb, 0xbef9a3f7, 0xc67178f2]

def initial : Words :=
  ⟨0x6a09e667, 0xbb67ae85, 0x3c6ef372, 0xa54ff53a, 0x510e527f, 0x9b05688c, 0x1f83d9ab, 0x5be0cd19⟩

def compress (s : Words) (block : List Nat) : Words :=
  let t := rounds constants block s
  ⟨word (s.a + t.a), word (s.b + t.b), word (s.c + t.c), word (s.d + t.d), word (s.e + t.e),
    word (s.f + t.f), word (s.g + t.g), word (s.h + t.h)⟩

/-- The first digits of a number in some base, most significant first. -/
def digits (base : Nat) : Nat → Nat → List Nat
  | 0, _ => []
  | count + 1, x => digits base count (x / base) ++ [x % base]

/-- The bytes with a one bit, zeros up to a whole block, and the length in bits. -/
def pad (bytes : List Nat) : List Nat :=
  bytes ++ 0x80 :: List.replicate ((119 - bytes.length % 64) % 64) 0 ++
    digits 256 8 (8 * bytes.length)

def wordsOf : List Nat → List Nat
  | b₀ :: b₁ :: b₂ :: b₃ :: bytes =>
    (b₀ * 2 ^ 24 + b₁ * 2 ^ 16 + b₂ * 2 ^ 8 + b₃) :: wordsOf bytes
  | _ => []

def compressAll : Nat → List Nat → Words → Words
  | 0, _, s => s
  | count + 1, words, s => compressAll count (words.drop 16) (compress s (words.take 16))

def hash (bytes : List Nat) : Words :=
  compressAll ((pad bytes).length / 64) (wordsOf (pad bytes)) initial

def Words.toList (s : Words) : List Nat := [s.a, s.b, s.c, s.d, s.e, s.f, s.g, s.h]

/-- `hexdigest` of the bytes. -/
def hexdigest (bytes : Bytes) : List Char :=
  (hash (bytes.map (·.toNat))).toList.flatMap fun w ↦ (digits 16 8 w).map Nat.digitChar

theorem length_digits (base count x : Nat) : (digits base count x).length = count := by
  induction count generalizing x with
  | zero => rfl
  | succ count ih => rw [digits, length_append, ih, length_singleton]

theorem lt_of_mem_digits {base count x n : Nat} (hbase : 0 < base) (h : n ∈ digits base count x) : n < base := by
  induction count generalizing x with
  | zero => cases h
  | succ count ih =>
    rcases mem_append.mp h with h | h
    · exact ih h
    · rw [mem_singleton.mp h]
      exact Nat.mod_lt _ hbase

/-- A digest is made of hexadecimal digits. -/
theorem exists_of_mem_hexdigest {bytes : Bytes} {c : Char} (h : c ∈ hexdigest bytes) :
    ∃ n < 16, c = n.digitChar := by
  obtain ⟨w, -, hw⟩ := mem_flatMap.mp h
  obtain ⟨n, hn, rfl⟩ := mem_map.mp hw
  exact ⟨n, lt_of_mem_digits (by decide) hn, rfl⟩

theorem length_hexdigest (bytes : Bytes) : (hexdigest bytes).length = 64 := by
  simp only [hexdigest, Words.toList, flatMap_cons, flatMap_nil, length_append,
    length_map, length_digits, length_nil]

example : hexdigest (encode "abc".toList) =
    "ba7816bf8f01cfea414140de5dae2223b00361a396177a9cb410ff61f20015ad".toList := by
  decide +kernel

end Python.Sha256
