import BnkForge.Lib.Path
import BnkForge.Lib.PythonValue

/-!
# Normalized paths

What `os.path.normpath` of POSIX makes of the parts of a path, and where the path lies that is joined of a
root and a path: below the root unless the parts of the path climb out of it.
-/

namespace Python

open List

/-! ### Parts -/

/-- The part that climbs. -/
def upward : List Char := ['.', '.']

/-- One round of `os.path.normpath` over the parts. -/
def normStep (absolute : Bool) (done : List (List Char)) (part : List Char) : List (List Char) :=
  if part = [] ∨ part = ['.'] then done
  else if part ≠ upward ∨ (absolute = false ∧ done = []) ∨ done.getLast? = some upward then done ++ [part]
  else done.dropLast

theorem normParts_eq_foldl (absolute : Bool) (parts : List (List Char)) :
    normParts absolute parts = parts.foldl (normStep absolute) [] := rfl

section

variable {absolute : Bool} {base done parts : List (List Char)} {part : List Char}

theorem normStep_of_skipped (h : part = [] ∨ part = ['.']) : normStep absolute done part = done := if_pos h

theorem normStep_of_plain (hskip : ¬ (part = [] ∨ part = ['.'])) (h : part ≠ upward) :
    normStep absolute done part = done ++ [part] := by
  rw [normStep, if_neg hskip, if_pos (Or.inl h)]

/-- A part that climbs takes the last part away. -/
theorem normStep_upward (hdone : upward ∉ done) (hne : done ≠ []) :
    normStep absolute done upward = done.dropLast := by
  have hlast : done.getLast? ≠ some upward := fun h ↦ hdone (mem_of_getLast? h)
  rw [normStep, if_neg (by decide), if_neg (by simp [hne, hlast])]

/-- A climb is never taken back. -/
theorem head?_normStep (h : done.head? = some upward) : (normStep false done part).head? = some upward := by
  obtain ⟨rest, rfl⟩ := head?_eq_some_iff.mp h
  unfold normStep
  split
  · exact h
  · split
    · rfl
    · next hpart =>
      cases rest with
      | nil => exact absurd (Or.inr (Or.inr rfl)) hpart
      | cons s rest => rfl

theorem head?_foldl_normStep (h : done.head? = some upward) :
    (parts.foldl (normStep false) done).head? = some upward := by
  induction parts generalizing done with
  | nil => exact h
  | cons part parts ih => exact ih (head?_normStep h)

/-- Parts that do not climb at the beginning do not climb at all. -/
theorem notMem_normStep (hdone : upward ∉ done) (h : (normStep absolute done part).head? ≠ some upward) :
    upward ∉ normStep absolute done part := by
  unfold normStep at h ⊢
  split
  · exact hdone
  · next hskip =>
    rw [if_neg hskip] at h
    split
    · next hpart =>
      rw [if_pos hpart] at h
      rw [mem_append, mem_singleton, not_or]
      refine ⟨hdone, fun hup ↦ ?_⟩
      rcases hpart with hpart | ⟨-, rfl⟩ | hlast
      · exact hpart hup.symm
      · exact h (congrArg some hup.symm)
      · exact hdone (mem_of_getLast? hlast)
    · exact fun hmem ↦ hdone (mem_of_mem_dropLast hmem)

/-- Behind a base, parts that do not climb are resolved as they are on their own. -/
theorem normStep_append (hbase : upward ∉ base) (hdone : upward ∉ done)
    (h : (normStep false done part).head? ≠ some upward) :
    normStep true (base ++ done) part = base ++ normStep false done part := by
  by_cases hskip : part = [] ∨ part = ['.']
  · rw [normStep_of_skipped hskip, normStep_of_skipped hskip]
  · by_cases hpart : part = upward
    · subst hpart
      have hne : done ≠ [] := by
        rintro rfl
        exact h rfl
      rw [normStep_upward hdone hne, normStep_upward (by simp [hbase, hdone]) (by simp [hne]),
        dropLast_append_of_ne_nil hne]
    · rw [normStep_of_plain hskip hpart, normStep_of_plain hskip hpart, append_assoc]

theorem foldl_normStep_append (hbase : upward ∉ base) (hdone : upward ∉ done)
    (h : (parts.foldl (normStep false) done).head? ≠ some upward) :
    parts.foldl (normStep true) (base ++ done) = base ++ parts.foldl (normStep false) done := by
  induction parts generalizing done with
  | nil => rfl
  | cons part parts ih =>
    rw [foldl_cons] at h
    have hstep : (normStep false done part).head? ≠ some upward := fun hup ↦ h (head?_foldl_normStep hup)
    rw [foldl_cons, foldl_cons, normStep_append hbase hdone hstep]
    exact ih (notMem_normStep hdone hstep) h

/-- Parts that do not climb at the beginning leave none that climbs. -/
theorem notMem_normParts_false (h : (normParts false parts).head? ≠ some upward) :
    upward ∉ normParts false parts := by
  rw [normParts_eq_foldl] at h ⊢
  suffices ∀ done, upward ∉ done → (parts.foldl (normStep false) done).head? ≠ some upward →
      upward ∉ parts.foldl (normStep false) done from this [] not_mem_nil h
  clear h
  induction parts with
  | nil => exact fun done hdone _ ↦ hdone
  | cons part parts ih =>
    intro done hdone h
    rw [foldl_cons] at h
    exact ih _ (notMem_normStep hdone fun hup ↦ h (head?_foldl_normStep hup)) h

/-- An absolute path does not climb above its root. -/
theorem notMem_normParts_true : upward ∉ normParts true parts := by
  rw [normParts_eq_foldl]
  suffices ∀ done, upward ∉ done → upward ∉ parts.foldl (normStep true) done from this [] not_mem_nil
  intro done hdone
  induction parts generalizing done with
  | nil => exact hdone
  | cons part parts ih =>
    refine ih _ (notMem_normStep hdone fun hup ↦ ?_)
    unfold normStep at hup
    split at hup
    · exact hdone (mem_of_head? hup)
    · split at hup
      · next hpart =>
        cases done with
        | nil =>
          rcases hpart with hpart | hpart | hpart
          · exact hpart (Option.some.inj hup)
          · exact absurd hpart.1 (by decide)
          · cases hpart
        | cons s done => exact hdone (mem_of_head? hup)
      · exact hdone (mem_of_mem_dropLast (mem_of_head? hup))

/-- What is left is parts of the path, none of them empty or a dot. -/
theorem mem_normParts (h : part ∈ normParts absolute parts) : part ∈ parts ∧ part ≠ [] ∧ part ≠ ['.'] := by
  rw [normParts_eq_foldl] at h
  suffices ∀ done, part ∈ parts.foldl (normStep absolute) done →
      part ∈ done ∨ part ∈ parts ∧ part ≠ [] ∧ part ≠ ['.'] by
    exact (this [] h).resolve_left not_mem_nil
  clear h
  induction parts with
  | nil => exact fun done h ↦ Or.inl h
  | cons p parts ih =>
    intro done h
    rcases ih _ h with h | ⟨hmem, hne⟩
    · unfold normStep at h
      split at h
      · exact Or.inl h
      · next hskip =>
        split at h
        · rcases mem_append.mp h with h | h
          · exact Or.inl h
          · obtain rfl := mem_singleton.mp h
            exact Or.inr ⟨mem_cons_self, not_or.mp hskip⟩
        · exact Or.inl (mem_of_mem_dropLast h)
    · exact Or.inr ⟨mem_cons_of_mem _ hmem, hne⟩

/-- Of parts none of which climbs those stay that name something. -/
theorem normParts_of_notMem (h : upward ∉ parts) :
    normParts absolute parts = parts.filter fun part ↦ ¬ (part = [] ∨ part = ['.']) := by
  rw [normParts_eq_foldl]
  suffices ∀ done, parts.foldl (normStep absolute) done =
      done ++ parts.filter fun part ↦ ¬ (part = [] ∨ part = ['.']) from this []
  induction parts with
  | nil => simp
  | cons part parts ih =>
    intro done
    rw [mem_cons, not_or] at h
    rw [foldl_cons, ih h.2]
    by_cases hskip : part = [] ∨ part = ['.']
    · rw [normStep_of_skipped hskip, filter_cons_of_neg (by rwa [decide_eq_true_iff, not_not])]
    · rw [normStep_of_plain hskip (Ne.symm h.1), filter_cons_of_pos (by simpa using hskip),
        append_assoc, singleton_append]

/-- Parts that name something and do not climb are left alone. -/
theorem normParts_eq_self (h : ∀ part ∈ parts, part ≠ [] ∧ part ≠ ['.'] ∧ part ≠ upward) :
    normParts absolute parts = parts := by
  rw [normParts_of_notMem fun hup ↦ (h _ hup).2.2 rfl, filter_eq_self]
  intro part hpart
  rw [decide_eq_true_iff]
  exact not_or.mpr ⟨(h part hpart).1, (h part hpart).2.1⟩

end

/-! ### Parts that name more -/

/-- A part that names something and does not climb. -/
def Plain (part : List Char) : Prop := part ≠ [] ∧ part ≠ ['.'] ∧ part ≠ upward

/-- Where parts give way to plain ones, the path climbs no more than before. -/
def Deepened (parts parts' : List (List Char)) : Prop := List.Forall₂ (fun p q ↦ q = p ∨ Plain q) parts parts'

section

variable {done done' parts parts' : List (List Char)} {part part' : List Char}

/-- Of two ways that do not climb the deeper one stays the deeper one. -/
theorem normStep_deepened (hdone : upward ∉ done) (hdone' : upward ∉ done') (hle : done.length ≤ done'.length)
    (hpart : part' = part ∨ Plain part') (h : (normStep false done part).head? ≠ some upward) :
    upward ∉ normStep false done' part' ∧
      (normStep false done part).length ≤ (normStep false done' part').length := by
  have hshort : (normStep false done part).length ≤ done.length + 1 := by
    unfold normStep
    split
    · omega
    · split
      · simp
      · rw [length_dropLast]
        omega
  by_cases hplain : Plain part'
  · rw [normStep_of_plain (by simpa using And.intro hplain.1 hplain.2.1) hplain.2.2]
    refine ⟨by simpa [hdone'] using hplain.2.2.symm, ?_⟩
    rw [length_append, length_singleton]
    omega
  · obtain rfl := hpart.resolve_right hplain
    by_cases hskip : part' = [] ∨ part' = ['.']
    · rw [normStep_of_skipped hskip, normStep_of_skipped hskip]
      exact ⟨hdone', hle⟩
    · obtain rfl : part' = upward := by
        by_contra hup
        exact hplain ⟨(not_or.mp hskip).1, (not_or.mp hskip).2, hup⟩
      have hne : done ≠ [] := by
        rintro rfl
        exact h rfl
      have hne' : done' ≠ [] := by
        rintro rfl
        exact hne (length_eq_zero_iff.mp (Nat.le_zero.mp hle))
      rw [normStep_upward hdone hne, normStep_upward hdone' hne', length_dropLast, length_dropLast]
      exact ⟨fun hmem ↦ hdone' (mem_of_mem_dropLast hmem), by omega⟩

theorem foldl_normStep_deepened (hparts : Deepened parts parts') (hdone : upward ∉ done)
    (hdone' : upward ∉ done') (hle : done.length ≤ done'.length)
    (h : (parts.foldl (normStep false) done).head? ≠ some upward) :
    upward ∉ parts'.foldl (normStep false) done' := by
  induction hparts generalizing done done' with
  | nil => exact hdone'
  | cons hpart _ ih =>
    rw [foldl_cons] at h
    have hstep := fun hup ↦ h (head?_foldl_normStep hup)
    obtain ⟨hnot, hlen⟩ := normStep_deepened hdone hdone' hle hpart hstep
    exact ih (notMem_normStep hdone hstep) hnot hlen h

theorem head?_normParts_of_deepened (hparts : Deepened parts parts')
    (h : (normParts false parts).head? ≠ some upward) : (normParts false parts').head? ≠ some upward := by
  rw [normParts_eq_foldl] at h ⊢
  exact fun hup ↦ foldl_normStep_deepened hparts not_mem_nil not_mem_nil le_rfl h (mem_of_head? hup)

end

/-- A part that begins or ends with white space is plain. -/
theorem plain_of_space {part : List Char} {c : Char} (hc : isSpace c = true)
    (h : part.head? = some c ∨ part.getLast? = some c) : Plain part := by
  have hdot : isSpace '.' = false := rfl
  refine ⟨?_, ?_, ?_⟩ <;> rintro rfl <;> simp [upward] at h <;> rw [← h, hdot] at hc <;> cases hc

theorem deepened_refl (parts : List (List Char)) : Deepened parts parts :=
  forall₂_same.mpr fun _ _ ↦ Or.inl rfl

theorem slash_notMem_of_space {space : List Char} (h : ∀ c ∈ space, isSpace c = true) : '/' ∉ space := by
  intro hmem
  have hspace := h _ hmem
  cases hspace

/-- White space before a path makes its first part plain. -/
theorem deepened_space_append (path : List Char) {space : List Char} (h : ∀ c ∈ space, isSpace c = true) :
    Deepened (path.splitOn '/') ((space ++ path).splitOn '/') := by
  cases space with
  | nil => exact deepened_refl _
  | cons c space =>
    have hslash := slash_notMem_of_space h
    have hplain : ∀ part, Plain ((c :: space) ++ part) :=
      fun part ↦ plain_of_space (h c mem_cons_self) (Or.inl rfl)
    by_cases hmem : '/' ∈ path
    · obtain ⟨first, rest, rfl, hfirst⟩ := eq_append_cons_of_mem hmem
      rw [← append_assoc, splitOn_append_cons_self_of_not_mem hfirst,
        splitOn_append_cons_self_of_not_mem (not_mem_append hslash hfirst)]
      exact List.Forall₂.cons (Or.inr (hplain first)) (deepened_refl _)
    · rw [splitOn_eq_singleton hmem, splitOn_eq_singleton (not_mem_append hslash hmem)]
      exact List.Forall₂.cons (Or.inr (hplain path)) List.Forall₂.nil

/-- White space behind a path makes its last part plain. -/
theorem deepened_append_space (path : List Char) {space : List Char} (h : ∀ c ∈ space, isSpace c = true) :
    Deepened (path.splitOn '/') ((path ++ space).splitOn '/') := by
  rcases eq_nil_or_concat' space with rfl | ⟨space, c, rfl⟩
  · rw [append_nil]
    exact deepened_refl _
  · have hslash := slash_notMem_of_space h
    have hplain : ∀ part, Plain (part ++ (space ++ [c])) :=
      fun part ↦ plain_of_space (h c (by simp)) (Or.inr (by simp))
    by_cases hmem : '/' ∈ path
    · obtain ⟨last, init, hrev, hlast⟩ := eq_append_cons_of_mem (mem_reverse.mpr hmem)
      have hpath : path = init.reverse ++ '/' :: last.reverse := by
        rw [← reverse_reverse path, hrev]
        simp
      have hlast' : '/' ∉ last.reverse := by rwa [mem_reverse]
      rw [hpath, append_assoc, cons_append, splitOn_append_cons_self,
        splitOn_append_cons_self, splitOn_eq_singleton hlast',
        splitOn_eq_singleton (not_mem_append hlast' hslash)]
      exact rel_append (deepened_refl _) (List.Forall₂.cons (Or.inr (hplain _)) List.Forall₂.nil)
    · rw [splitOn_eq_singleton hmem, splitOn_eq_singleton (not_mem_append hmem hslash)]
      exact List.Forall₂.cons (Or.inr (hplain path)) List.Forall₂.nil

/-- White space around a text, and the text without it. -/
theorem exists_strip (cs : List Char) : ∃ before after, cs = before ++ (strip cs ++ after) ∧
    (∀ c ∈ before, isSpace c = true) ∧ ∀ c ∈ after, isSpace c = true := by
  refine ⟨cs.takeWhile isSpace, (cs.dropWhile isSpace).rtakeWhile isSpace, ?_,
    fun c ↦ mem_takeWhile_imp, fun c ↦ mem_rtakeWhile_imp⟩
  rw [strip, rdropWhile_append_rtakeWhile, takeWhile_append_dropWhile]

/-- White space around a path does not make it climb. -/
theorem head?_normParts_of_strip {path : List Char}
    (h : (normParts false ((strip path).splitOn '/')).head? ≠ some upward) :
    (normParts false (path.splitOn '/')).head? ≠ some upward := by
  obtain ⟨before, after, hpath, hbefore, hafter⟩ := exists_strip path
  rw [hpath]
  exact head?_normParts_of_deepened (deepened_space_append _ hbefore)
    (head?_normParts_of_deepened (deepened_append_space _ hafter) h)

/-! ### Paths -/

/-- `os.path.join(root, path)`. -/
def pathJoin (root path : List Char) : List Char :=
  if ['/'].isPrefixOf path then path
  else if root = [] ∨ root.getLast? = some '/' then root ++ path
  else root ++ '/' :: path

def leadingSlashes (path : List Char) : Nat :=
  if ['/', '/'].isPrefixOf path && !(['/', '/', '/'].isPrefixOf path) then 2
  else if ['/'].isPrefixOf path then 1 else 0

theorem normpath_eq (path : List Char) : normpath path =
    let text := List.replicate (leadingSlashes path) '/' ++
      ['/'].intercalate (normParts (0 < leadingSlashes path) (path.splitOn '/'))
    if text = [] then ['.'] else text := rfl

def Within (root path : List Char) : Prop :=
  path = root ∨ root ++ ['/'] <+: path ∨ root.getLast? = some '/' ∧ root <+: path

section

variable {root path : List Char}

theorem leadingSlashes_of_relative (h : ¬ ['/'] <+: path) : leadingSlashes path = 0 := by
  have hone : ['/'].isPrefixOf path = false := by rwa [← Bool.not_eq_true, isPrefixOf_iff_prefix]
  have htwo : ['/', '/'].isPrefixOf path = false := by
    rw [← Bool.not_eq_true, isPrefixOf_iff_prefix]
    exact fun h2 ↦ h ((prefix_append ['/'] ['/']).trans h2)
  simp [leadingSlashes, hone, htwo]

/-- Text behind an absolute path does not change how many slashes are kept, unless it goes on with one. -/
theorem leadingSlashes_append {rest : List Char} (hroot : ['/'] <+: root)
    (h : root = ['/'] ∨ root = ['/', '/'] → ¬ ['/'] <+: rest) :
    leadingSlashes (root ++ rest) = leadingSlashes root := by
  have hhead : ∀ (c : Char) (rest : List Char), ¬ ['/'] <+: c :: rest → '/' ≠ c := by
    rintro c rest hnot rfl
    exact hnot (prefix_append ['/'] rest)
  obtain ⟨t, rfl⟩ := hroot
  rcases t with _ | ⟨a, _ | ⟨b, w⟩⟩
  · cases rest with
    | nil => rfl
    | cons c rest => simp [leadingSlashes, hhead c rest (h (Or.inl rfl))]
  · by_cases ha : '/' = a
    · subst ha
      cases rest with
      | nil => rfl
      | cons c rest => simp [leadingSlashes, hhead c rest (h (Or.inr rfl))]
    · simp [leadingSlashes, ha]
  · simp [leadingSlashes, List.isPrefixOf]

theorem leadingSlashes_pathJoin (hroot : ['/'] <+: root) (hpath : ¬ ['/'] <+: path) :
    leadingSlashes (pathJoin root path) = leadingSlashes root := by
  have hpath' : ['/'].isPrefixOf path = false := by rwa [← Bool.not_eq_true, isPrefixOf_iff_prefix]
  rw [pathJoin, if_neg (by simp [hpath'])]
  split
  · exact leadingSlashes_append hroot fun _ ↦ hpath
  · next h =>
    refine leadingSlashes_append hroot ?_
    rintro (rfl | rfl) <;> exact absurd (Or.inr rfl) h

theorem normParts_pathJoin (hroot : root ≠ []) (hpath : ¬ ['/'] <+: path) :
    normParts true ((pathJoin root path).splitOn '/') =
      (path.splitOn '/').foldl (normStep true) (normParts true (root.splitOn '/')) := by
  have hpath' : ['/'].isPrefixOf path = false := by rwa [← Bool.not_eq_true, isPrefixOf_iff_prefix]
  rw [pathJoin, if_neg (by simp [hpath']), normParts_eq_foldl, normParts_eq_foldl]
  split
  · next h =>
    obtain ⟨init, hinit⟩ := getLast?_eq_some_iff.mp (h.resolve_left hroot)
    rw [hinit, append_assoc, singleton_append, splitOn_append_cons_self,
      splitOn_append_cons_self, foldl_append, foldl_append, splitOn_nil]
    rfl
  · rw [splitOn_append_cons_self, foldl_append]

theorem leadingSlashes_pos (hroot : ['/'] <+: root) : 0 < leadingSlashes root := by
  obtain ⟨t, rfl⟩ := hroot
  unfold leadingSlashes
  split
  · decide
  · simp

theorem normpath_of_absolute (hroot : ['/'] <+: root) : normpath root =
    List.replicate (leadingSlashes root) '/' ++ ['/'].intercalate (normParts true (root.splitOn '/')) := by
  have hpos := leadingSlashes_pos hroot
  rw [normpath_eq, decide_eq_true hpos]
  dsimp only
  rw [if_neg]
  intro h
  have hslashes := congrArg List.length (append_eq_nil_iff.mp h).1
  rw [length_replicate, length_nil] at hslashes
  omega

/-- A text that is joined of more parts is the text of the first ones or goes on behind a slash. -/
theorem intercalate_append_within {first : List Char} (hfirst : first.getLast? = some '/')
    (parts more : List (List Char)) :
    Within (first ++ ['/'].intercalate parts) (first ++ ['/'].intercalate (parts ++ more)) := by
  cases more with
  | nil => exact Or.inl (by rw [append_nil])
  | cons m more =>
    cases parts with
    | nil =>
      refine Or.inr (Or.inr ⟨by simpa using hfirst, ?_⟩)
      rw [intercalate_nil, append_nil]
      exact prefix_append _ _
    | cons p parts =>
      refine Or.inr (Or.inl ?_)
      rw [cons_append, Path.intercalate_cons, Path.intercalate_cons, Path.joined_append, Path.joined_cons]
      exact ⟨m ++ Path.joined '/' more, by simp⟩

/-- A relative path whose parts do not climb leads from an absolute root to a place within it. -/
theorem within_normpath_pathJoin (hroot : ['/'] <+: root) (hpath : ¬ ['/'] <+: path)
    (hclimb : (normParts false (path.splitOn '/')).head? ≠ some upward) :
    Within (normpath root) (normpath (pathJoin root path)) := by
  have hroot' : root ≠ [] := by
    rintro rfl
    simp at hroot
  have hjoin : ['/'] <+: pathJoin root path := by
    have hpath' : ['/'].isPrefixOf path = false := by rwa [← Bool.not_eq_true, isPrefixOf_iff_prefix]
    rw [pathJoin, if_neg (by simp [hpath'])]
    split <;> exact hroot.trans (prefix_append _ _)
  have hroot'' : upward ∉ normParts true (root.splitOn '/') := notMem_normParts_true
  have hparts := foldl_normStep_append hroot'' not_mem_nil hclimb
  rw [append_nil, ← normParts_pathJoin hroot' hpath] at hparts
  rw [normpath_of_absolute hroot, normpath_of_absolute hjoin, leadingSlashes_pathJoin hroot hpath, hparts]
  refine intercalate_append_within ?_ _ _
  have hpos := leadingSlashes_pos hroot
  rw [getLast?_replicate, if_neg (by omega)]

theorem slash_notMem_of_mem_normParts {absolute : Bool} {part : List Char}
    (h : part ∈ normParts absolute (path.splitOn '/')) : '/' ∉ part :=
  Path.not_mem_of_mem_splitOn (mem_normParts h).1

theorem normpath_of_relative (h : ¬ ['/'] <+: path) : normpath path =
    match normParts false (path.splitOn '/') with
    | [] => ['.']
    | part :: parts => part ++ Path.joined '/' parts := by
  rw [normpath_eq, leadingSlashes_of_relative h]
  simp only [lt_irrefl, decide_false, replicate_zero, nil_append]
  cases hparts : normParts false (path.splitOn '/') with
  | nil => rfl
  | cons part parts =>
    have hne := (mem_normParts (hparts ▸ mem_cons_self : part ∈ normParts false _)).2.1
    rw [Path.intercalate_cons, if_neg fun hnil ↦ hne (append_eq_nil_iff.mp hnil).1]

theorem normParts_normpath (h : ¬ ['/'] <+: path)
    (hclimb : (normParts false (path.splitOn '/')).head? ≠ some upward) :
    ¬ ['/'] <+: normpath path ∧
      normParts false ((normpath path).splitOn '/') = normParts false (path.splitOn '/') := by
  have hup := notMem_normParts_false hclimb
  rw [normpath_of_relative h]
  cases hparts : normParts false (path.splitOn '/') with
  | nil => exact ⟨by decide, by decide⟩
  | cons part parts =>
    have hmem : ∀ q ∈ part :: parts, q ≠ [] ∧ q ≠ ['.'] ∧ q ≠ upward ∧ '/' ∉ q := by
      intro q hq
      rw [← hparts] at hq
      obtain ⟨-, hne, hdot⟩ := mem_normParts hq
      exact ⟨hne, hdot, fun hq' ↦ hup (hq' ▸ hq), slash_notMem_of_mem_normParts hq⟩
    obtain ⟨hne, -, -, hslash⟩ := hmem part mem_cons_self
    dsimp only
    refine ⟨?_, ?_⟩
    · obtain ⟨c, cs, rfl⟩ := exists_cons_of_ne_nil hne
      rw [cons_append, cons_prefix_cons]
      rintro ⟨rfl, -⟩
      exact hslash mem_cons_self
    · have hsplit := Path.splitOn_joined (cons_ne_nil part parts) fun q hq ↦ (hmem q hq).2.2.2
      rw [Path.joined_cons, drop_one, tail_cons] at hsplit
      rw [hsplit]
      exact normParts_eq_self fun q hq ↦ ⟨(hmem q hq).1, (hmem q hq).2.1, (hmem q hq).2.2.1⟩

/-- A relative path climbs where its normalized text begins with two dots as a part. -/
theorem climbs_iff (h : ¬ ['/'] <+: path) :
    normpath path = upward ∨ upward ++ ['/'] <+: normpath path ↔
      (normParts false (path.splitOn '/')).head? = some upward := by
  rw [normpath_of_relative h]
  cases hparts : normParts false (path.splitOn '/') with
  | nil => exact iff_of_false (by decide) (by simp)
  | cons part parts =>
    have hslash : '/' ∉ part := slash_notMem_of_mem_normParts (hparts ▸ mem_cons_self)
    dsimp only
    rw [Path.prefix_append_joined_closed (by decide) hslash, head?_cons, Option.some.injEq]
    constructor
    · rintro (htext | ⟨rfl, -⟩)
      · cases parts with
        | nil => rwa [Path.joined_nil, append_nil] at htext
        | cons t rest =>
          have hmem : '/' ∈ upward := by
            rw [← htext]
            simp
          exact absurd hmem (by decide)
      · rfl
    · rintro rfl
      cases parts with
      | nil => exact Or.inl (by simp)
      | cons t rest => exact Or.inr ⟨rfl, cons_ne_nil t rest⟩

end

end Python
