import Mathlib.Data.List.Infix

/-!
# Substitution in a text

What is found in a text is replaced from left to right, and what was put in is not looked at again.
-/

namespace Substitution

open List

variable {α τ : Type}

/-- What finds something at the beginning of a text: its token and the text behind it. -/
structure Finder (α τ : Type) where
  find : List α → Option (τ × List α)
  splits {cs rest : List α} {token : τ} : find cs = some (token, rest) →
    ∃ c written, cs = c :: (written ++ rest)

/-- The text with what is found replaced, with `skip` elements of it still to be passed over; what
has no replacement stays. -/
def Finder.sub (f : Finder α τ) (replace : τ → Option (List α)) : Nat → List α → List α
  | _, [] => []
  | skip + 1, _ :: cs => f.sub replace skip cs
  | 0, c :: cs =>
    match f.find (c :: cs) with
    | none => c :: f.sub replace 0 cs
    | some (token, rest) =>
      let width := (c :: cs).length - rest.length
      (replace token).getD ((c :: cs).take width) ++ f.sub replace (width - 1) cs

inductive Piece (α τ : Type)
  | plain (c : α)
  | found (written : List α) (token : τ)
  deriving DecidableEq, Repr

def Piece.written : Piece α τ → List α
  | plain c => [c]
  | found written _ => written

def Piece.text (replace : τ → Option (List α)) : Piece α τ → List α
  | plain c => [c]
  | found written token => (replace token).getD written

/-- The pieces of a text, with `skip` elements of one still to be passed over. -/
def Finder.pieces (f : Finder α τ) : Nat → List α → List (Piece α τ)
  | _, [] => []
  | skip + 1, _ :: cs => f.pieces skip cs
  | 0, c :: cs =>
    match f.find (c :: cs) with
    | none => .plain c :: f.pieces 0 cs
    | some (token, rest) =>
      let width := (c :: cs).length - rest.length
      .found ((c :: cs).take width) token :: f.pieces (width - 1) cs

namespace Finder

variable {f : Finder α τ} {replace : τ → Option (List α)} {c : α} {cs written rest : List α} {token : τ}

theorem sub_skip (skip : Nat) (cs : List α) : f.sub replace skip cs = f.sub replace 0 (cs.drop skip) := by
  induction cs generalizing skip with
  | nil => cases skip <;> rfl
  | cons c cs ih =>
    cases skip with
    | zero => rfl
    | succ skip => exact ih skip

theorem pieces_skip (skip : Nat) (cs : List α) : f.pieces skip cs = f.pieces 0 (cs.drop skip) := by
  induction cs generalizing skip with
  | nil => cases skip <;> rfl
  | cons c cs ih =>
    cases skip with
    | zero => rfl
    | succ skip => exact ih skip

theorem sub_of_none (h : f.find (c :: cs) = none) :
    f.sub replace 0 (c :: cs) = c :: f.sub replace 0 cs := by
  rw [sub, h]

theorem pieces_of_none (h : f.find (c :: cs) = none) :
    f.pieces 0 (c :: cs) = .plain c :: f.pieces 0 cs := by
  rw [pieces, h]

private theorem width_eq : (c :: (written ++ rest)).length - rest.length = written.length + 1 := by
  rw [length_cons, length_append]
  omega

theorem sub_of_some (h : f.find (c :: (written ++ rest)) = some (token, rest)) :
    f.sub replace 0 (c :: (written ++ rest)) =
      (replace token).getD (c :: written) ++ f.sub replace 0 rest := by
  rw [sub, h]
  dsimp only
  rw [width_eq, take_succ_cons, take_left, Nat.add_sub_cancel, sub_skip, drop_left]

theorem pieces_of_some (h : f.find (c :: (written ++ rest)) = some (token, rest)) :
    f.pieces 0 (c :: (written ++ rest)) = .found (c :: written) token :: f.pieces 0 rest := by
  rw [pieces, h]
  dsimp only
  rw [width_eq, take_succ_cons, take_left, Nat.add_sub_cancel, pieces_skip, drop_left]

/-- A text begins with the replacement of what it begins with. -/
theorem sub_of_replaced {text : List α} (h : f.find (c :: cs) = some (token, rest))
    (hreplace : replace token = some text) :
    f.sub replace 0 (c :: cs) = text ++ f.sub replace 0 rest := by
  obtain ⟨c', written, hsplit⟩ := f.splits h
  cases hsplit
  rw [sub_of_some h, hreplace, Option.getD_some]

/-- A text is gone through by what is found in it. -/
theorem induction {motive : List α → Prop} (f : Finder α τ) (nil : motive [])
    (plain : ∀ c cs, f.find (c :: cs) = none → motive cs → motive (c :: cs))
    (found : ∀ c written rest token, f.find (c :: (written ++ rest)) = some (token, rest) →
      motive rest → motive (c :: (written ++ rest))) (cs : List α) : motive cs := by
  induction hn : cs.length using Nat.strong_induction_on generalizing cs with
  | _ n ih =>
    cases cs with
    | nil => exact nil
    | cons c cs =>
      rw [length_cons] at hn
      cases hfind : f.find (c :: cs) with
      | none => exact plain c cs hfind (ih _ (by omega) cs rfl)
      | some hit =>
        obtain ⟨token, rest⟩ := hit
        obtain ⟨c', written, hsplit⟩ := f.splits hfind
        cases hsplit
        rw [length_append] at hn
        exact found _ written rest token hfind (ih _ (by omega) rest rfl)

theorem sub_eq_pieces (cs : List α) :
    f.sub replace 0 cs = (f.pieces 0 cs).flatMap (Piece.text replace) := by
  induction cs using f.induction with
  | nil => rfl
  | plain c cs hnone ih =>
    rw [sub_of_none hnone, pieces_of_none hnone, flatMap_cons, ih]
    rfl
  | found c written rest token hsome ih =>
    rw [sub_of_some hsome, pieces_of_some hsome, flatMap_cons, ih]
    rfl

theorem pieces_eq_nil_iff : f.pieces 0 cs = [] ↔ cs = [] := by
  constructor
  · intro h
    cases cs with
    | nil => rfl
    | cons c cs =>
      rw [pieces] at h
      split at h <;> cases h
  · rintro rfl
    rfl

/-! ### Texts in which nothing is found -/

theorem sub_append_of_none
    (h : ∀ inner, inner <:+ written → inner ≠ [] → f.find (inner ++ rest) = none) :
    f.sub replace 0 (written ++ rest) = written ++ f.sub replace 0 rest := by
  induction written with
  | nil => rfl
  | cons c written ih =>
    have hnone : f.find (c :: (written ++ rest)) = none :=
      h (c :: written) suffix_rfl (cons_ne_nil _ _)
    rw [cons_append, sub_of_none hnone,
      ih fun inner hinner ↦ h inner (hinner.trans (suffix_cons c written)), cons_append]

/-- What is found does not overlap. -/
def Apart (f : Finder α τ) : Prop :=
  ∀ c written rest token, f.find (c :: (written ++ rest)) = some (token, rest) →
    ∀ inner, inner <:+ written → inner ≠ [] → f.find (inner ++ rest) = none

/-- Nothing that has a replacement is found at the beginning of the text. -/
def Inert (f : Finder α τ) (replace : τ → Option (List α)) (cs : List α) : Prop :=
  ∀ token rest, f.find cs = some (token, rest) → replace token = none

theorem sub_of_inert (hf : f.Apart) (h : f.Inert replace (c :: cs)) :
    f.sub replace 0 (c :: cs) = c :: f.sub replace 0 cs := by
  cases hfind : f.find (c :: cs) with
  | none => exact sub_of_none hfind
  | some hit =>
    obtain ⟨token, rest⟩ := hit
    obtain ⟨c', written, hsplit⟩ := f.splits hfind
    cases hsplit
    rw [sub_of_some hfind, h token rest hfind, Option.getD_none,
      sub_append_of_none (hf c written rest token hfind), cons_append]

/-- A text at which nothing with a replacement begins stays. -/
theorem sub_append_of_inert (hf : f.Apart)
    (h : ∀ inner, inner <:+ written → inner ≠ [] → f.Inert replace (inner ++ rest)) :
    f.sub replace 0 (written ++ rest) = written ++ f.sub replace 0 rest := by
  induction written with
  | nil => rfl
  | cons c written ih =>
    have hinert : f.Inert replace (c :: (written ++ rest)) :=
      h (c :: written) suffix_rfl (cons_ne_nil _ _)
    rw [cons_append, sub_of_inert hf hinert,
      ih fun inner hinner ↦ h inner (hinner.trans (suffix_cons c written)), cons_append]

/-- Every replacement begins with another element than what it replaces. -/
def Telling (f : Finder α τ) (replace : τ → Option (List α)) : Prop :=
  ∀ c cs token rest text, f.find (c :: cs) = some (token, rest) → replace token = some text →
    ∃ d text', text = d :: text' ∧ d ≠ c

/-- Where the replacements tell, a text that stays is one at which nothing with a replacement
begins. -/
theorem inert_of_sub_append (hf : f.Apart) (htelling : f.Telling replace) {after : List α}
    (h : f.sub replace 0 (written ++ rest) = written ++ after) :
    (∀ inner, inner <:+ written → inner ≠ [] → f.Inert replace (inner ++ rest)) ∧
      f.sub replace 0 rest = after := by
  induction written with
  | nil => exact ⟨fun inner hinner hne ↦ absurd (suffix_nil.mp hinner) hne, h⟩
  | cons c written ih =>
    have hinert : f.Inert replace (c :: (written ++ rest)) := by
      intro token rest' hfind
      cases hreplace : replace token with
      | none => rfl
      | some text =>
        obtain ⟨d, text', rfl, hd⟩ := htelling _ _ _ _ _ hfind hreplace
        rw [cons_append, sub_of_replaced hfind hreplace] at h
        exact absurd (List.cons.inj h).1 hd
    rw [cons_append, sub_of_inert hf hinert, cons_append] at h
    obtain ⟨hinner, hrest⟩ := ih (List.cons.inj h).2
    refine ⟨?_, hrest⟩
    intro inner hsuffix hne
    obtain rfl | hsuffix := suffix_cons_iff.mp hsuffix
    · exact hinert
    · exact hinner inner hsuffix hne

end Finder

end Substitution
