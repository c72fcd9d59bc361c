import BnkForge.Lib.PythonInt
import Mathlib.Data.List.Infix

/-!
# Text operations of Python

Operations of `str` on the list of characters of a text.
-/

namespace Python

open List

/-- `str.split` without arguments: the stretches without white space. -/
def words (cs : List Char) : List (List Char) :=
  (cs.splitOnP isSpace).filter fun word ↦ !word.isEmpty

/-- `str.lower` as far as ASCII letters come of it: beside the ASCII letters these are the Kelvin
sign and the capital I with a dot. Other letters are left alone. -/
def lower (cs : List Char) : List Char :=
  cs.flatMap fun c ↦
    if c = Char.ofNat 0x212a then ['k']
    else if c = Char.ofNat 0x130 then ['i', Char.ofNat 0x307]
    else [c.toLower]

/-- `str.upper` on the ASCII letters. Other letters are left alone, although some of them have upper
case forms with the letters A, F, H, I, J, L, N, S, T, W or Y. -/
def upper (cs : List Char) : List Char := cs.map Char.toUpper

/-- The copies of `old` are replaced from the left, with `skip` elements of the last one still to be
passed over; the elements are compared by `key`. -/
def replaceFrom {α : Type} (key : α → Char) (old : List Char) (new : List α) : Nat → List α → List α
  | _, [] => []
  | skip + 1, _ :: xs => replaceFrom key old new skip xs
  | 0, x :: xs =>
    if old.isPrefixOf ((x :: xs).map key) then new ++ replaceFrom key old new (old.length - 1) xs
    else x :: replaceFrom key old new 0 xs

/-- `str.replace`; an empty `old` stands before every character and at the end. -/
def replace (old new cs : List Char) : List Char :=
  if old.isEmpty then new ++ cs.flatMap fun c ↦ c :: new else replaceFrom id old new 0 cs

/-- `part in text`. -/
def contains (text part : List Char) : Bool := text.tails.any fun tail ↦ part.isPrefixOf tail

section

variable {α : Type} {key : α → Char} {old : List Char} {new : List α}

theorem contains_iff {text part : List Char} : contains text part = true ↔ part <:+: text := by
  simp only [contains, any_eq_true, mem_tails, isPrefixOf_iff_prefix]
  exact ⟨fun ⟨t, ht, hp⟩ ↦ hp.isInfix.trans ht.isInfix, fun h ↦ by
    obtain ⟨pre, post, rfl⟩ := h
    exact ⟨part ++ post, by simp, prefix_append _ _⟩⟩

/-- Replacing elements replaces their keys. -/
theorem map_replaceFrom (skip : Nat) (xs : List α) :
    (replaceFrom key old new skip xs).map key =
      replaceFrom id old (new.map key) skip (xs.map key) := by
  induction xs generalizing skip with
  | nil => cases skip <;> rfl
  | cons x xs ih =>
    cases skip with
    | succ skip => exact ih skip
    | zero =>
      simp only [replaceFrom, map_cons, map_id, id]
      split
      · rw [map_append, ih]
      · rw [map_cons, ih]

/-- Where `old` is not part of the text nothing is replaced. -/
theorem replaceFrom_eq_self {xs : List α} (h : ¬ old <:+: xs.map key) :
    replaceFrom key old new 0 xs = xs := by
  induction xs with
  | nil => rfl
  | cons x xs ih =>
    have hstart : old.isPrefixOf ((x :: xs).map key) = false := by
      rw [← Bool.not_eq_true, isPrefixOf_iff_prefix]
      exact fun hp ↦ h hp.isInfix
    rw [replaceFrom, hstart, if_neg nofun, ih]
    exact fun hwithin ↦ h (hwithin.trans (suffix_cons _ _).isInfix)

end

end Python
