import Mathlib.Data.List.Infix

/-!
# Longest prefix selection

Of a list of candidates with keys, the one whose key is the longest prefix of a query is selected, the
first of them where keys are equal.
-/

namespace LongestPrefix

open List

variable {α κ : Type} (key : α → List κ)

def longest : List α → Option α
  | [] => none
  | a :: as =>
    match longest as with
    | none => some a
    | some b => if (key a).length < (key b).length then some b else some a

variable {key} {as bs : List α} {a : α} {q : List κ}

theorem longest_eq_none_iff : longest key as = none ↔ as = [] := by
  cases as with
  | nil => simp [longest]
  | cons b as =>
    simp only [longest, reduceCtorEq, iff_false]
    split
    · exact Option.some_ne_none _
    · split <;> exact Option.some_ne_none _

/-- What is selected is a candidate, none has a longer key, and none before it has one as long. -/
theorem longest_spec (h : longest key as = some a) :
    ∃ pre post, as = pre ++ a :: post ∧ (∀ b ∈ pre, (key b).length < (key a).length) ∧
      ∀ b ∈ post, (key b).length ≤ (key a).length := by
  induction as generalizing a with
  | nil => cases h
  | cons c as ih =>
    simp only [longest] at h
    split at h
    · next hnone =>
      cases h
      rw [longest_eq_none_iff.mp hnone]
      exact ⟨[], [], rfl, nofun, nofun⟩
    · next b hb =>
      obtain ⟨pre, post, has, hpre, hpost⟩ := ih hb
      split at h
      · next hlt =>
        cases h
        refine ⟨c :: pre, post, by rw [has, cons_append], ?_, hpost⟩
        rw [forall_mem_cons]
        exact ⟨hlt, hpre⟩
      · next hle =>
        cases h
        refine ⟨[], as, rfl, nofun, fun d hd ↦ ?_⟩
        have hdb : (key d).length ≤ (key b).length := by
          rw [has, mem_append, mem_cons] at hd
          obtain hd | rfl | hd := hd
          · exact (hpre d hd).le
          · exact le_rfl
          · exact hpost d hd
        omega

variable [DecidableEq κ]

/-- The first of the candidates whose key is the longest prefix of `q`. -/
def select (key : α → List κ) (as : List α) (q : List κ) : Option α :=
  longest key (as.filter fun a ↦ (key a).isPrefixOf q)

theorem select_mem (h : select key as q = some a) : a ∈ as ∧ key a <+: q := by
  obtain ⟨pre, post, has, -⟩ := longest_spec h
  have ha : a ∈ as.filter fun a ↦ (key a).isPrefixOf q := by
    rw [has]
    exact mem_append_right _ mem_cons_self
  rw [mem_filter, isPrefixOf_iff_prefix] at ha
  exact ha

theorem select_max (h : select key as q = some a) {b : α} (hb : b ∈ as) (hbq : key b <+: q) :
    (key b).length ≤ (key a).length := by
  obtain ⟨pre, post, has, hpre, hpost⟩ := longest_spec h
  have hmem : b ∈ as.filter fun a ↦ (key a).isPrefixOf q := by
    rw [mem_filter, isPrefixOf_iff_prefix]
    exact ⟨hb, hbq⟩
  rw [has, mem_append, mem_cons] at hmem
  obtain hmem | rfl | hmem := hmem
  · exact (hpre b hmem).le
  · exact le_rfl
  · exact hpost b hmem

theorem select_eq_none_iff : select key as q = none ↔ ∀ b ∈ as, ¬ key b <+: q := by
  rw [select, longest_eq_none_iff, filter_eq_nil_iff]
  simp only [List.isPrefixOf_iff_prefix]

/-- Only the prefixes of the query matter. -/
theorem select_congr {q' : List κ} (h : ∀ b ∈ as, key b <+: q ↔ key b <+: q') :
    select key as q = select key as q' := by
  rw [select, select]
  congr 1
  refine filter_congr fun b hb ↦ ?_
  rw [Bool.eq_iff_iff, isPrefixOf_iff_prefix, isPrefixOf_iff_prefix]
  exact h b hb

/-- A selection among fewer candidates goes by the key of what all of them select. -/
theorem select_of_select (hsub : ∀ b ∈ bs, b ∈ as) (h : select key as q = some a) :
    select key bs q = select key bs (key a) := by
  refine select_congr fun b hb ↦ ⟨fun hbq ↦ ?_, fun hba ↦ hba.trans (select_mem h).2⟩
  exact prefix_of_prefix_length_le hbq (select_mem h).2 (select_max h (hsub b hb) hbq)

/-- The key of a candidate selects the first candidate with this key. -/
theorem select_key (ha : a ∈ as) :
    select key as (key a) = as.find? fun b ↦ key b = key a := by
  cases h : select key as (key a) with
  | none => exact absurd prefix_rfl (select_eq_none_iff.mp h a ha)
  | some c =>
    obtain ⟨pre, post, has, hpre, -⟩ := longest_spec h
    obtain ⟨hc, hca⟩ := select_mem h
    have hkey : key c = key a :=
      hca.eq_of_length_le (select_max h ha prefix_rfl)
    have hfind : as.find? (fun b ↦ decide (key b = key a)) =
        (as.filter fun b ↦ (key b).isPrefixOf (key a)).find? fun b ↦ decide (key b = key a) := by
      rw [find?_filter]
      congr 1
      funext b
      by_cases hb : key b = key a <;> simp [hb]
    rw [hfind, has, find?_append, find?_cons_of_pos (by simpa using hkey)]
    have hnone : (pre.find? fun b ↦ decide (key b = key a)) = none := by
      rw [find?_eq_none]
      intro b hb hbk
      have := hpre b hb
      rw [of_decide_eq_true hbk, hkey] at this
      exact absurd this (lt_irrefl _)
    rw [hnone, Option.none_or]

/-- An element that no key has ends the query. -/
theorem select_append_fresh {x : κ} (hx : ∀ b ∈ as, x ∉ key b) :
    select key as (q ++ [x]) = select key as q := by
  refine select_congr fun b hb ↦ ⟨fun h ↦ ?_, fun h ↦ h.trans (prefix_append _ _)⟩
  rcases prefix_concat_iff.mp h with h | h
  · exact absurd (by rw [h]; simp) (hx b hb)
  · exact h

end LongestPrefix
