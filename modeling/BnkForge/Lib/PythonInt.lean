import Mathlib.Data.List.DropRight

/-!
# The conversion of text to integers in Python

`int(text)` in base ten: white space around the number is dropped, a sign may come first, and
the digits are the decimal digits of Unicode 14 with single underscores between them.
-/

namespace Python

open List

/-- The code points of the digits of value zero; the nine that follow each are the others. -/
def decimalZeros : List Nat :=
  [0x30, 0x660, 0x6f0, 0x7c0, 0x966, 0x9e6, 0xa66, 0xae6, 0xb66, 0xbe6, 0xc66, 0xce6, 0xd66, 0xde6,
    0xe50, 0xed0, 0xf20, 0x1040, 0x1090, 0x17e0, 0x1810, 0x1946, 0x19d0, 0x1a80, 0x1a90, 0x1b50,
    0x1bb0, 0x1c40, 0x1c50, 0xa620, 0xa8d0, 0xa900, 0xa9d0, 0xa9f0, 0xaa50, 0xabf0, 0xff10, 0x104a0,
    0x10d30, 0x11066, 0x110f0, 0x11136, 0x111d0, 0x112f0, 0x11450, 0x114d0, 0x11650, 0x116c0,
    0x11730, 0x118e0, 0x11950, 0x11c50, 0x11d50, 0x11da0, 0x16a60, 0x16ac0, 0x16b50, 0x1d7ce,
    0x1d7d8, 0x1d7e2, 0x1d7ec, 0x1d7f6, 0x1e140, 0x1e2f0, 0x1e950, 0x1fbf0]

/-- The code points for which `str.isspace` holds. -/
def spaces : List Nat :=
  [0x9, 0xa, 0xb, 0xc, 0xd, 0x1c, 0x1d, 0x1e, 0x1f, 0x20, 0x85, 0xa0, 0x1680, 0x2000, 0x2001, 0x2002,
    0x2003, 0x2004, 0x2005, 0x2006, 0x2007, 0x2008, 0x2009, 0x200a, 0x2028, 0x2029, 0x202f, 0x205f,
    0x3000]

def digitValue (c : Char) : Option Nat :=
  (decimalZeros.find? fun z ↦ z ≤ c.toNat && c.toNat < z + 10).map (c.toNat - ·)

def isSpace (c : Char) : Bool := spaces.contains c.toNat

theorem isSpace_of_forall {p : Char → Bool} (hspaces : ∀ n ∈ spaces, p (Char.ofNat n) = false) {c : Char}
    (h : p c = true) : isSpace c = false := by
  rw [← Bool.not_eq_true, isSpace, contains_iff_mem]
  intro hmem
  have hnot := hspaces _ hmem
  rw [Char.ofNat_toNat, h] at hnot
  cases hnot

/-- `str.strip` without arguments. -/
def strip (cs : List Char) : List Char := (cs.dropWhile isSpace).rdropWhile isSpace

/-- The digits after a number read so far; `ready` says that the last character was a digit. -/
def digitsFrom (ready : Bool) (acc : Nat) : List Char → Option Nat
  | [] => if ready then some acc else none
  | c :: cs =>
    match digitValue c with
    | some d => digitsFrom true (10 * acc + d) cs
    | none => if c = '_' ∧ ready = true then digitsFrom false acc cs else none

def signed : List Char → Option Int
  | '-' :: cs => (digitsFrom false 0 cs).map fun n ↦ -(n : Int)
  | '+' :: cs => (digitsFrom false 0 cs).map Int.ofNat
  | cs => (digitsFrom false 0 cs).map Int.ofNat

/-- `int(text)`, `none` where it raises `ValueError`. -/
def int (text : String) : Option Int := signed (strip text.toList)

/-- The first and last code points of the digits that are not decimal ones, as superscripts are. -/
def otherDigits : List (Nat × Nat) :=
  [(0xb2, 0xb3), (0xb9, 0xb9), (0x1369, 0x1371), (0x19da, 0x19da), (0x2070, 0x2070), (0x2074, 0x2079),
    (0x2080, 0x2089), (0x2460, 0x2468), (0x2474, 0x247c), (0x2488, 0x2490), (0x24ea, 0x24ea),
    (0x24f5, 0x24fd), (0x24ff, 0x24ff), (0x2776, 0x277e), (0x2780, 0x2788), (0x278a, 0x2792),
    (0x10a40, 0x10a43), (0x10e60, 0x10e68), (0x11052, 0x1105a), (0x1f100, 0x1f10a)]

/-- `str.isdigit`. -/
def isDigitText (text : String) : Bool :=
  !text.isEmpty && text.toList.all fun c ↦
    (digitValue c).isSome || otherDigits.any fun r ↦ r.1 ≤ c.toNat && c.toNat ≤ r.2

section

variable {c : Char} {cs : List Char}

private theorem toNat_of_isDigit (h : c.isDigit = true) : 48 ≤ c.toNat ∧ c.toNat ≤ 57 :=
  Char.isDigit_iff_toNat.mp h

theorem digitValue_of_isDigit (h : c.isDigit = true) :
    digitValue c = some (c.toNat - '0'.toNat) := by
  obtain ⟨hle, hlt⟩ := toNat_of_isDigit h
  have hin : (decide (0x30 ≤ c.toNat) && decide (c.toNat < 0x30 + 10)) = true := by
    simp only [Bool.and_eq_true, decide_eq_true_eq]
    omega
  simp only [digitValue, decimalZeros, find?_cons, hin]
  rfl

theorem isSpace_of_isDigit (h : c.isDigit = true) : isSpace c = false := by
  obtain ⟨hle, hlt⟩ := toNat_of_isDigit h
  rw [isSpace, ← Bool.not_eq_true, contains_iff_mem]
  intro hmem
  simp only [spaces, mem_cons, not_mem_nil, or_false] at hmem
  omega

private theorem rdropWhile_cons {p : Char → Bool} (hc : p c = false) :
    (c :: cs).rdropWhile p = c :: cs.rdropWhile p := by
  induction cs using List.reverseRecOn with
  | nil => simp [rdropWhile_singleton, hc]
  | append_singleton cs d ih =>
    rw [← cons_append, rdropWhile_concat, rdropWhile_concat]
    split
    · exact ih
    · rfl

/-- A text that does not begin with white space keeps its first character. -/
theorem strip_cons (hc : isSpace c = false) : strip (c :: cs) = c :: cs.rdropWhile isSpace := by
  rw [strip, dropWhile_cons_of_neg (by rw [hc]; decide), rdropWhile_cons hc]

/-- A text without white space is left alone. -/
theorem strip_of_not_isSpace (h : ∀ c ∈ cs, isSpace c = false) : strip cs = cs := by
  have hrdrop : ∀ cs : List Char, (∀ c ∈ cs, isSpace c = false) → cs.rdropWhile isSpace = cs := by
    intro cs h
    induction cs with
    | nil => rfl
    | cons c cs ih =>
      rw [rdropWhile_cons (h c mem_cons_self), ih fun c hc ↦ h c (mem_cons_of_mem _ hc)]
  cases cs with
  | nil => rfl
  | cons c cs =>
    rw [strip_cons (h c mem_cons_self), hrdrop cs fun c hc ↦ h c (mem_cons_of_mem _ hc)]

theorem strip_of_isDigit (h : ∀ c ∈ cs, c.isDigit = true) : strip cs = cs :=
  strip_of_not_isSpace fun c hc ↦ isSpace_of_isDigit (h c hc)

theorem digitsFrom_of_isDigit {ready : Bool} {acc : Nat} (h : ∀ c ∈ cs, c.isDigit = true)
    (hne : ready = true ∨ cs ≠ []) :
    digitsFrom ready acc cs = some (Nat.ofDigitChars 10 cs acc) := by
  induction cs generalizing ready acc with
  | nil =>
    have hready := hne.resolve_right (fun hne ↦ hne rfl)
    rw [digitsFrom, if_pos hready, Nat.ofDigitChars_nil]
  | cons c cs ih =>
    have hc := digitValue_of_isDigit (h c mem_cons_self)
    simp only [digitsFrom, hc]
    rw [Nat.ofDigitChars_cons]
    exact ih (fun c hc ↦ h c (mem_cons_of_mem _ hc)) (Or.inl rfl)

private theorem signed_eq_digitsFrom (hsign : ∀ c ∈ cs.head?, c ≠ '-' ∧ c ≠ '+') :
    signed cs = (digitsFrom false 0 cs).map Int.ofNat := by
  unfold signed
  split
  · exact absurd rfl (hsign '-' rfl).1
  · exact absurd rfl (hsign '+' rfl).2
  · rfl

theorem isDigit_of_mem_toDigits {n : Nat} (h : c ∈ Nat.toDigits 10 n) : c.isDigit = true :=
  Nat.isDigit_of_mem_toDigits (by decide) (by decide) h

/-- `int(str(n))` is `n`. -/
theorem int_toString (n : Nat) : int (toString n) = some (n : Int) := by
  have hdigits : ∀ c ∈ Nat.toDigits 10 n, c.isDigit = true := fun c ↦ isDigit_of_mem_toDigits
  have hsign : ∀ c ∈ (Nat.toDigits 10 n).head?, c ≠ '-' ∧ c ≠ '+' := by
    intro c hc
    have hdigit := hdigits c (mem_of_head? hc)
    constructor <;> rintro rfl <;> cases hdigit
  rw [int, Nat.toString_eq_repr, Nat.toList_repr, strip_of_isDigit hdigits, signed_eq_digitsFrom hsign,
    digitsFrom_of_isDigit hdigits (Or.inr Nat.toDigits_ne_nil), Nat.ofDigitChars_ten_toDigits]
  rfl

theorem digitChar_of_isDigit (h : c.isDigit = true) :
    c.toNat - '0'.toNat < 10 ∧ Nat.digitChar (c.toNat - '0'.toNat) = c := by
  obtain ⟨hle, hlt⟩ := Char.isDigit_iff_toNat.mp h
  have hval : c.toNat - '0'.toNat < 10 := by
    have h0 : '0'.toNat = 48 := rfl
    have h9 : '9'.toNat = 57 := rfl
    omega
  refine ⟨hval, Char.toNat_inj.mp ?_⟩
  rw [Nat.toNat_digitChar_of_lt_ten hval]
  have h0 : '0'.toNat = 48 := rfl
  omega

/-- Digits behind a number are the digits of the number that they make of it. -/
theorem toDigits_append (h : ∀ c ∈ cs, c.isDigit = true) {acc : Nat} (hacc : 0 < acc) :
    Nat.toDigits 10 acc ++ cs = Nat.toDigits 10 (Nat.ofDigitChars 10 cs acc) := by
  induction cs generalizing acc with
  | nil => simp
  | cons c cs ih =>
    rw [forall_mem_cons] at h
    obtain ⟨hval, hchar⟩ := digitChar_of_isDigit h.1
    have hstep := Nat.toDigits_append_toDigits (b := 10) (by decide) hacc hval
    rw [Nat.toDigits_of_lt_base hval, hchar] at hstep
    rw [Nat.ofDigitChars_cons, ← ih h.2 (by omega), ← hstep, append_assoc, singleton_append]

/-- Digits without a leading zero are the digits of their number. -/
theorem toDigits_ofDigitChars (h : ∀ c ∈ cs, c.isDigit = true) (hne : cs ≠ [])
    (hzero : cs = ['0'] ∨ cs.head? ≠ some '0') : Nat.toDigits 10 (Nat.ofDigitChars 10 cs 0) = cs := by
  rcases hzero with rfl | hzero
  · rfl
  · cases cs with
    | nil => exact absurd rfl hne
    | cons c cs =>
      rw [forall_mem_cons] at h
      obtain ⟨hval, hchar⟩ := digitChar_of_isDigit h.1
      have hpos : 0 < c.toNat - '0'.toNat := by
        rw [Nat.pos_iff_ne_zero]
        intro h0
        rw [h0] at hchar
        exact hzero (congrArg some hchar.symm)
      rw [Nat.ofDigitChars_cons, Nat.mul_zero, Nat.zero_add, ← toDigits_append h.2 hpos,
        Nat.toDigits_of_lt_base hval, hchar, singleton_append]

/-- A text whose first character belongs to no number is not converted. -/
theorem int_eq_none {text : String} (htext : text.toList = c :: cs) (hspace : isSpace c = false)
    (hsign : c ≠ '-' ∧ c ≠ '+') (hdigit : digitValue c = none) : int text = none := by
  rw [int, htext, strip_cons hspace, signed_eq_digitsFrom (by rintro d ⟨⟩; exact hsign)]
  simp [digitsFrom, hdigit]

end

end Python
