import BnkForge.Lib.PythonInt

/-!
# Bytes of Python

Files are read as `bytes` or, in text mode, as the text that their UTF-8 stands for.
-/

namespace Python

open List

/-- The values of `bytes`. -/
abbrev Bytes := List UInt8

/-- The bytes that `bytes.strip` drops. -/
def isSpaceByte (b : UInt8) : Bool := [9, 10, 11, 12, 13, 32].contains b.toNat

/-- `bytes.strip` without arguments. -/
def stripBytes (bs : Bytes) : Bytes := (bs.dropWhile isSpaceByte).rdropWhile isSpaceByte

/-- A continuation byte of UTF-8. -/
def isContinuation (b : UInt8) : Bool := b.toNat / 64 == 2

def codeOfThree (b b₁ b₂ : UInt8) : Nat :=
  b.toNat % 16 * 4096 + b₁.toNat % 64 * 64 + b₂.toNat % 64

def codeOfFour (b b₁ b₂ b₃ : UInt8) : Nat :=
  b.toNat % 8 * 262144 + b₁.toNat % 64 * 4096 + b₂.toNat % 64 * 64 + b₃.toNat % 64

/-- `bytes.decode` of UTF-8, `none` where it raises `UnicodeDecodeError`: overlong forms, surrogates
and code points past the last one are refused. -/
def decode : Bytes → Option (List Char)
  | [] => some []
  | b :: bs =>
    if b.toNat < 0x80 then (decode bs).map (Char.ofNat b.toNat :: ·)
    else
      match bs with
      | [] => none
      | b₁ :: bs₁ =>
        if 0xc2 ≤ b.toNat ∧ b.toNat < 0xe0 ∧ isContinuation b₁ then
          (decode bs₁).map (Char.ofNat (b.toNat % 32 * 64 + b₁.toNat % 64) :: ·)
        else
          match bs₁ with
          | [] => none
          | b₂ :: bs₂ =>
            if 0xe0 ≤ b.toNat ∧ b.toNat < 0xf0 ∧ isContinuation b₁ ∧ isContinuation b₂ ∧
                0x800 ≤ codeOfThree b b₁ b₂ ∧
                ¬ (0xd800 ≤ codeOfThree b b₁ b₂ ∧ codeOfThree b b₁ b₂ < 0xe000) then
              (decode bs₂).map (Char.ofNat (codeOfThree b b₁ b₂) :: ·)
            else
              match bs₂ with
              | [] => none
              | b₃ :: bs₃ =>
                if 0xf0 ≤ b.toNat ∧ b.toNat < 0xf5 ∧ isContinuation b₁ ∧ isContinuation b₂ ∧
                    isContinuation b₃ ∧ 0x10000 ≤ codeOfFour b b₁ b₂ b₃ ∧
                    codeOfFour b b₁ b₂ b₃ < 0x110000 then
                  (decode bs₃).map (Char.ofNat (codeOfFour b b₁ b₂ b₃) :: ·)
                else none

/-- `str.encode` to UTF-8. -/
def encode (cs : List Char) : Bytes := cs.flatMap String.utf8EncodeChar

/-- The line ends of text mode: `\r\n` and `\r` are read as `\n`. -/
def universalNewlines : List Char → List Char
  | '\r' :: '\n' :: cs => '\n' :: universalNewlines cs
  | '\r' :: cs => '\n' :: universalNewlines cs
  | c :: cs => c :: universalNewlines cs
  | [] => []

section

variable {α : Type} {p : α → Bool} {xs : List α}

theorem dropWhile_rdropWhile_eq_nil_iff :
    (xs.dropWhile p).rdropWhile p = [] ↔ ∀ x ∈ xs, p x = true := by
  rw [rdropWhile_eq_nil_iff]
  constructor
  · intro h x hx
    rw [← takeWhile_append_dropWhile (p := p) (l := xs), mem_append] at hx
    rcases hx with hx | hx
    · exact mem_takeWhile_imp hx
    · exact h x hx
  · intro h x hx
    exact h x ((dropWhile_suffix p).mem hx)

theorem dropWhile_rdropWhile_eq_self (h : ∀ x ∈ xs, p x = false) :
    (xs.dropWhile p).rdropWhile p = xs := by
  have hdrop : xs.dropWhile p = xs := by
    cases xs with
    | nil => rfl
    | cons x xs => exact dropWhile_cons_of_neg (by rw [h x mem_cons_self]; decide)
  rw [hdrop, rdropWhile_eq_self_iff]
  intro hne
  rw [h _ (getLast_mem hne)]
  decide

end

theorem stripBytes_eq_nil_iff {bs : Bytes} : stripBytes bs = [] ↔ ∀ b ∈ bs, isSpaceByte b = true :=
  dropWhile_rdropWhile_eq_nil_iff

theorem stripBytes_eq_self {bs : Bytes} (h : ∀ b ∈ bs, isSpaceByte b = false) : stripBytes bs = bs :=
  dropWhile_rdropWhile_eq_self h

theorem strip_eq_nil_iff {cs : List Char} : strip cs = [] ↔ ∀ c ∈ cs, isSpace c = true :=
  dropWhile_rdropWhile_eq_nil_iff

theorem toNat_of_isSpaceByte {b : UInt8} (h : isSpaceByte b = true) :
    b.toNat < 0x80 ∧ isSpace (Char.ofNat b.toNat) = true := by
  simp only [isSpaceByte, contains_iff_mem, mem_cons, not_mem_nil, or_false] at h
  rcases h with h | h | h | h | h | h <;> rw [h] <;> decide

/-- Bytes that are all white space are a text that is all white space. -/
theorem decode_of_blank {bs : Bytes} (h : ∀ b ∈ bs, isSpaceByte b = true) :
    ∃ cs, decode bs = some cs ∧ ∀ c ∈ cs, isSpace c = true := by
  induction bs with
  | nil => exact ⟨[], rfl, nofun⟩
  | cons b bs ih =>
    obtain ⟨cs, hcs, hspace⟩ := ih fun b hb ↦ h b (mem_cons_of_mem _ hb)
    obtain ⟨hascii, hb⟩ := toNat_of_isSpaceByte (h b mem_cons_self)
    refine ⟨Char.ofNat b.toNat :: cs, ?_, ?_⟩
    · unfold decode
      rw [if_pos hascii, hcs]
      rfl
    · intro c hc
      rcases mem_cons.mp hc with rfl | hc
      · exact hb
      · exact hspace c hc

/-- Line ends are white space, whichever way they are written. -/
theorem isSpace_universalNewlines {cs : List Char} :
    (∀ c ∈ universalNewlines cs, isSpace c = true) ↔ ∀ c ∈ cs, isSpace c = true := by
  have hr : isSpace '\r' = true := by decide
  have hn : isSpace '\n' = true := by decide
  fun_induction universalNewlines cs with
  | case1 cs ih => simp only [forall_mem_cons, ih, hr, hn, true_and]
  | case2 cs _ ih => simp only [forall_mem_cons, ih, hr, hn, true_and]
  | case3 c cs _ _ ih => simp only [forall_mem_cons, ih]
  | case4 => exact Iff.rfl

theorem mem_map_cons {c x : Char} {o : Option (List Char)} {cs : List Char}
    (h : o.map (x :: ·) = some cs) (hc : ∀ ds, o = some ds → c ∈ ds) : c ∈ cs := by
  obtain ⟨ds, hds, rfl⟩ := Option.map_eq_some_iff.mp h
  exact mem_cons_of_mem _ (hc ds hds)

/-- An ASCII byte stands for a character of its own. -/
theorem mem_of_decode {bs : Bytes} {cs : List Char} {b : UInt8} (h : decode bs = some cs)
    (hb : b ∈ bs) (hascii : b.toNat < 0x80) : Char.ofNat b.toNat ∈ cs := by
  have hne : ∀ d : UInt8, isContinuation d = true → b ≠ d := by
    rintro d hd rfl
    simp only [isContinuation, beq_iff_eq] at hd
    omega
  fun_induction decode bs generalizing cs with
  | case1 => cases hb
  | case2 d bs hd ih =>
    obtain ⟨ds, hds, rfl⟩ := Option.map_eq_some_iff.mp h
    rcases mem_cons.mp hb with rfl | hb
    · exact mem_cons_self
    · exact mem_cons_of_mem _ (ih hds hb)
  | case3 => cases h
  | case4 d hd d₁ bs₁ hcond ih =>
    have hb₀ : b ≠ d := by
      rintro rfl
      exact hd hascii
    have hb' : b ∈ bs₁ := by simpa [hb₀, hne d₁ hcond.2.2] using hb
    exact mem_map_cons h fun ds hds ↦ ih hds hb'
  | case5 => cases h
  | case6 d hd d₁ _ d₂ bs₂ hcond ih =>
    have hb₀ : b ≠ d := by
      rintro rfl
      exact hd hascii
    have hb' : b ∈ bs₂ := by simpa [hb₀, hne d₁ hcond.2.2.1, hne d₂ hcond.2.2.2.1] using hb
    exact mem_map_cons h fun ds hds ↦ ih hds hb'
  | case7 => cases h
  | case8 d hd d₁ _ d₂ _ d₃ bs₃ hcond ih =>
    have hb₀ : b ≠ d := by
      rintro rfl
      exact hd hascii
    have hb' : b ∈ bs₃ := by
      simpa [hb₀, hne d₁ hcond.2.2.1, hne d₂ hcond.2.2.2.1, hne d₃ hcond.2.2.2.2.1] using hb
    exact mem_map_cons h fun ds hds ↦ ih hds hb'
  | case9 => cases h

end Python
