import BnkForge.Lib.PythonBytes

/-!
# Base64

`base64.b64encode` and `base64.b64decode` of Python. The decoder drops what is not of the alphabet
and stops at the padding.
-/

namespace Python

def base64Alphabet : List Char :=
  "ABCDEFGHIJKLMNOPQRSTUVWXYZabcdefghijklmnopqrstuvwxyz0123456789+/".toList

def base64Symbol (n : Nat) : Char := base64Alphabet.getD n 'A'

/-- The six bits of a symbol. -/
def base64Value (c : Char) : Option Nat := base64Alphabet.idxOf? c

/-- `base64.b64encode`, as text. -/
def b64encode : Bytes → List Char
  | [] => []
  | [a] => [base64Symbol (a.toNat / 4), base64Symbol (a.toNat % 4 * 16), '=', '=']
  | [a, b] =>
    [base64Symbol (a.toNat / 4), base64Symbol (a.toNat % 4 * 16 + b.toNat / 16),
      base64Symbol (b.toNat % 16 * 4), '=']
  | a :: b :: c :: bs =>
    base64Symbol (a.toNat / 4) :: base64Symbol (a.toNat % 4 * 16 + b.toNat / 16) ::
      base64Symbol (b.toNat % 16 * 4 + c.toNat / 64) :: base64Symbol (c.toNat % 64) :: b64encode bs

/-- The symbols from the place `quad` of a group of four on, with the bits left over from the symbol
before and the padding seen in the group. -/
def b64decodeFrom : Nat → Nat → Nat → List Char → Option Bytes
  | quad, _, _, [] => if quad = 0 then some [] else none
  | quad, left, pads, c :: cs =>
    if c = '=' then
      if 2 ≤ quad ∧ 4 ≤ quad + (pads + 1) then some []
      else b64decodeFrom quad left (if 2 ≤ quad then pads + 1 else pads) cs
    else
      match base64Value c with
      | none => b64decodeFrom quad left pads cs
      | some v =>
        if quad = 0 then b64decodeFrom 1 v 0 cs
        else if quad = 1 then (b64decodeFrom 2 (v % 16) 0 cs).map (UInt8.ofNat (left * 4 + v / 16) :: ·)
        else if quad = 2 then (b64decodeFrom 3 (v % 4) 0 cs).map (UInt8.ofNat (left * 16 + v / 4) :: ·)
        else (b64decodeFrom 0 0 0 cs).map (UInt8.ofNat (left * 64 + v) :: ·)

/-- `base64.b64decode`, `none` where it raises `binascii.Error`. -/
def b64decode (text : List Char) : Option Bytes := b64decodeFrom 0 0 0 text

theorem base64_symbol {n : Nat} (h : n < 64) :
    base64Value (base64Symbol n) = some n ∧ base64Symbol n ≠ '=' := by
  revert n
  decide

section

variable {n left pads : Nat} {cs : List Char}

theorem b64decodeFrom_zero (h : n < 64) :
    b64decodeFrom 0 left pads (base64Symbol n :: cs) = b64decodeFrom 1 n 0 cs := by
  simp [b64decodeFrom, base64_symbol h]

theorem b64decodeFrom_one (h : n < 64) :
    b64decodeFrom 1 left pads (base64Symbol n :: cs) =
      (b64decodeFrom 2 (n % 16) 0 cs).map (UInt8.ofNat (left * 4 + n / 16) :: ·) := by
  simp [b64decodeFrom, base64_symbol h]

theorem b64decodeFrom_two (h : n < 64) :
    b64decodeFrom 2 left pads (base64Symbol n :: cs) =
      (b64decodeFrom 3 (n % 4) 0 cs).map (UInt8.ofNat (left * 16 + n / 4) :: ·) := by
  simp [b64decodeFrom, base64_symbol h]

theorem b64decodeFrom_three (h : n < 64) :
    b64decodeFrom 3 left pads (base64Symbol n :: cs) =
      (b64decodeFrom 0 0 0 cs).map (UInt8.ofNat (left * 64 + n) :: ·) := by
  simp [b64decodeFrom, base64_symbol h]

theorem ofNat_eq {m : Nat} {a : UInt8} (h : m = a.toNat) : UInt8.ofNat m = a := by
  rw [h, UInt8.ofNat_toNat]

/-- Decoding gives back what was encoded. -/
theorem b64decode_b64encode (bs : Bytes) : b64decode (b64encode bs) = some bs := by
  unfold b64decode
  fun_induction b64encode bs with
  | case1 => rfl
  | case2 a =>
    have ha := a.toNat_lt
    rw [b64decodeFrom_zero (by omega), b64decodeFrom_one (by omega), ofNat_eq (a := a) (by omega)]
    rfl
  | case3 a b =>
    have ha := a.toNat_lt
    have hb := b.toNat_lt
    rw [b64decodeFrom_zero (by omega), b64decodeFrom_one (by omega), b64decodeFrom_two (by omega),
      ofNat_eq (a := a) (by omega), ofNat_eq (a := b) (by omega)]
    rfl
  | case4 a b c bs ih =>
    have ha := a.toNat_lt
    have hb := b.toNat_lt
    have hc := c.toNat_lt
    rw [b64decodeFrom_zero (by omega), b64decodeFrom_one (by omega), b64decodeFrom_two (by omega),
      b64decodeFrom_three (by omega), ih, ofNat_eq (a := a) (by omega), ofNat_eq (a := b) (by omega),
      ofNat_eq (a := c) (by omega)]
    rfl

theorem b64encode_eq_nil_iff {bs : Bytes} : b64encode bs = [] ↔ bs = [] := by
  fun_cases b64encode bs <;> simp

end

end Python
