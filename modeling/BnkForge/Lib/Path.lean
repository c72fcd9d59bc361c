import Mathlib.Data.List.Basic
import Mathlib.Data.List.Infix

/-!
# Paths and their segments

A path is a list of segments, each behind a separator. What a substring test that starts at a
separator says of the path is said here of its segments.
-/

namespace Path

open List

variable {α : Type} {sep : α}

def joined (sep : α) (segments : List (List α)) : List α := segments.flatMap (sep :: ·)

@[simp] theorem joined_nil : joined sep [] = [] := rfl

@[simp] theorem joined_cons (s : List α) (segments : List (List α)) :
    joined sep (s :: segments) = sep :: (s ++ joined sep segments) := by
  simp [joined]

theorem joined_append (segments more : List (List α)) :
    joined sep (segments ++ more) = joined sep segments ++ joined sep more := flatMap_append

theorem intercalate_cons (s : List α) (segments : List (List α)) :
    [sep].intercalate (s :: segments) = s ++ joined sep segments := by
  induction segments generalizing s with
  | nil => simp
  | cons t segments ih => rw [intercalate_cons_cons, ih]; simp

/-- Where two texts behind their heads and a separator are the same, the heads are, or one head goes on
behind a separator into the text of the other. -/
theorem append_cons_eq_append_cons_iff {a b p q : List α} :
    a ++ sep :: p = b ++ sep :: q ↔ (a = b ∧ p = q) ∨
      (∃ mid, a = b ++ sep :: mid ∧ q = mid ++ sep :: p) ∨
      ∃ mid, b = a ++ sep :: mid ∧ p = mid ++ sep :: q := by
  rw [append_eq_append_iff]
  constructor
  · rintro (⟨rest, rfl, hrest⟩ | ⟨rest, rfl, hrest⟩)
    · cases rest with
      | nil =>
        rw [append_nil]
        exact Or.inl ⟨rfl, (List.cons.inj hrest).2⟩
      | cons c mid =>
        obtain ⟨rfl, hp⟩ := List.cons.inj hrest
        exact Or.inr (Or.inr ⟨mid, rfl, hp⟩)
    · cases rest with
      | nil =>
        rw [append_nil]
        exact Or.inl ⟨rfl, (List.cons.inj hrest).2.symm⟩
      | cons c mid =>
        obtain ⟨rfl, hq⟩ := List.cons.inj hrest
        exact Or.inr (Or.inl ⟨mid, rfl, hq⟩)
  · rintro (⟨rfl, rfl⟩ | ⟨mid, rfl, rfl⟩ | ⟨mid, rfl, rfl⟩)
    · exact Or.inl ⟨[], (append_nil a).symm, rfl⟩
    · exact Or.inr ⟨sep :: mid, rfl, rfl⟩
    · exact Or.inl ⟨sep :: mid, rfl, rfl⟩

/-- No segment of a text that is split contains the separator. -/
theorem not_mem_of_mem_splitOn [DecidableEq α] {xs s : List α} (h : s ∈ xs.splitOn sep) : sep ∉ s := by
  induction xs generalizing s with
  | nil =>
    rw [splitOn_nil, mem_singleton] at h
    simp [h]
  | cons x xs ih =>
    obtain ⟨first, rest, hsplit⟩ := exists_cons_of_ne_nil (splitOn_ne_nil sep xs)
    rw [splitOn_cons_eq_if_modifyHead, hsplit] at h
    rw [hsplit] at ih
    split at h
    · obtain rfl | h := mem_cons.mp h
      · exact not_mem_nil
      · exact ih h
    · next hx =>
      rw [modifyHead_cons] at h
      obtain rfl | h := mem_cons.mp h
      · simp only [mem_cons, not_or]
        refine ⟨fun hsep ↦ hx (by simp [hsep]), ih mem_cons_self⟩
      · exact ih (mem_cons_of_mem _ h)

/-- Splitting a text that follows a separator gives its segments. -/
theorem joined_splitOn [DecidableEq α] (sep : α) (xs : List α) : joined sep (xs.splitOn sep) = sep :: xs := by
  obtain ⟨s, segments, hsplit⟩ := exists_cons_of_ne_nil (splitOn_ne_nil sep xs)
  have hxs : [sep].intercalate (xs.splitOn sep) = xs := intercalate_splitOn sep
  rw [hsplit, intercalate_cons] at hxs
  rw [hsplit, joined_cons, hxs]

theorem splitOn_joined [DecidableEq α] {segments : List (List α)} (hne : segments ≠ [])
    (hsegments : ∀ s ∈ segments, sep ∉ s) :
    ((joined sep segments).drop 1).splitOn sep = segments := by
  induction segments with
  | nil => exact absurd rfl hne
  | cons s segments ih =>
    rw [forall_mem_cons] at hsegments
    rw [joined_cons, drop_one, tail_cons]
    cases segments with
    | nil => rw [joined_nil, append_nil, splitOn_eq_singleton hsegments.1]
    | cons t rest =>
      have := ih (cons_ne_nil _ _) hsegments.2
      rw [joined_cons, drop_one, tail_cons] at this
      rw [joined_cons, splitOn_append_cons_self_of_not_mem hsegments.1, this]

/-- A text without separators that stands at the start of segments stands in the first one. -/
theorem prefix_append_joined {w s : List α} (hw : sep ∉ w) (segments : List (List α)) :
    w <+: s ++ joined sep segments ↔ w <+: s := by
  refine ⟨fun h ↦ ?_, fun h ↦ h.trans (prefix_append _ _)⟩
  induction s generalizing w with
  | nil =>
    cases w with
    | nil => exact prefix_rfl
    | cons c w =>
      cases segments with
      | nil => exact h
      | cons t rest =>
        rw [nil_append, joined_cons] at h
        exact absurd (cons_prefix_cons.mp h).1.symm (ne_of_not_mem_cons hw)
  | cons d s ih =>
    cases w with
    | nil => exact nil_prefix
    | cons c w =>
      rw [cons_append, cons_prefix_cons] at h
      rw [cons_prefix_cons]
      exact ⟨h.1, ih (not_mem_of_not_mem_cons hw) h.2⟩

/-- Segments that are closed by a separator are whole. -/
theorem prefix_append_joined_closed {w s : List α} (hw : sep ∉ w) (hs : sep ∉ s)
    (segments : List (List α)) :
    w ++ [sep] <+: s ++ joined sep segments ↔ w = s ∧ segments ≠ [] := by
  induction s generalizing w with
  | nil =>
    cases w with
    | nil => cases segments <;> simp
    | cons c w =>
      refine ⟨fun h ↦ ?_, fun h ↦ nomatch h.1⟩
      have : c :: w <+: [] ++ joined sep segments := (prefix_append _ _).trans h
      rw [prefix_append_joined hw] at this
      exact absurd (prefix_nil.mp this) (cons_ne_nil _ _)
  | cons d s ih =>
    have hd : sep ≠ d := ne_of_not_mem_cons hs
    cases w with
    | nil => simp [hd]
    | cons c w =>
      rw [cons_append, cons_append, cons_prefix_cons,
        ih (not_mem_of_not_mem_cons hw) (not_mem_of_not_mem_cons hs), List.cons.injEq,
        and_assoc]

/-- A text that starts at a separator does not start in a stretch without one. -/
theorem infix_append_of_not_mem {w s t : List α} (hs : sep ∉ s) :
    sep :: w <:+: s ++ t ↔ sep :: w <:+: t := by
  induction s with
  | nil => rfl
  | cons d s ih =>
    rw [cons_append, infix_cons_iff, ih (not_mem_of_not_mem_cons hs),
      cons_prefix_cons]
    exact or_iff_right fun h ↦ ne_of_not_mem_cons hs h.1

/-- A separator and a text without one stand in a path where the text starts a segment. -/
theorem infix_joined {w : List α} (hw : sep ∉ w) {segments : List (List α)}
    (hsegments : ∀ s ∈ segments, sep ∉ s) :
    sep :: w <:+: joined sep segments ↔ ∃ s ∈ segments, w <+: s := by
  induction segments with
  | nil => simp
  | cons s segments ih =>
    rw [forall_mem_cons] at hsegments
    rw [joined_cons, infix_cons_iff, cons_prefix_cons, prefix_append_joined hw,
      infix_append_of_not_mem hsegments.1, ih hsegments.2]
    simp

/-- A text between two separators stands in a path where it is a segment before the last one. -/
theorem infix_joined_closed {w : List α} (hw : sep ∉ w) {segments : List (List α)}
    (hsegments : ∀ s ∈ segments, sep ∉ s) :
    sep :: (w ++ [sep]) <:+: joined sep segments ↔ w ∈ segments.dropLast := by
  induction segments with
  | nil => simp
  | cons s segments ih =>
    rw [forall_mem_cons] at hsegments
    rw [joined_cons, infix_cons_iff, cons_prefix_cons,
      prefix_append_joined_closed hw hsegments.1, infix_append_of_not_mem hsegments.1,
      ih hsegments.2]
    cases segments with
    | nil => simp
    | cons t rest => simp

end Path
