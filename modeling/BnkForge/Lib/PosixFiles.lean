import BnkForge.Lib.Path
import Mathlib.Data.List.Infix

/-!
# Files and links

A tree of directories, files and symbolic links, in which files have several names where they are
hard links of each other: how a path is followed part by part, and how the operations of the system
make directories, files and links on the way. A way that was found in an earlier state and whose new
links are confined leads where it led before, or below the directory of the links (`Leads.follow`).
-/

namespace Posix

open List

abbrev Name := List Char

scoped instance : LawfulBEq Name := List.instLawfulBEq

/-- The names from the root of the tree to a place in it. -/
abbrev Place := List Name

/-- What is at a place. Files with the same number are one file with several names. -/
inductive Node
  | dir
  | file (inode : Nat)
  | link (target : List Char)
  deriving DecidableEq, Repr

/-- The directory itself. -/
def here : Name := ['.']

/-- The directory around. -/
def up : Name := ['.', '.']

def parts (path : List Char) : List Name := (path.splitOn '/').filter (· ≠ [])

def start (cur : Place) (path : List Char) : Place := if ['/'].isPrefixOf path then [] else cur

/-- The nodes, and the places where something was created or overwritten. -/
structure Disk where
  nodes : List (Place × Node)
  written : List Place := []
  deriving DecidableEq, Repr

def Disk.node (d : Disk) (p : Place) : Option Node := if p = [] then some .dir else d.nodes.lookup p

/-- The place is inside of the directory. -/
def Below (root p : Place) : Prop := root <+: p ∧ p ≠ root

instance (root p : Place) : Decidable (Below root p) := inferInstanceAs (Decidable (_ ∧ _))

/-! ### Following paths -/

/-- The place that a path leads to, and how many parts could still be looked up. A strict look-up needs
all but the last part to be there. -/
def follow (d : Disk) (strict : Bool) : Nat → Place → List Name → Option (Place × Nat)
  | limit, cur, [] => some (cur, limit)
  | 0, _, _ :: _ => none
  | limit + 1, cur, part :: rest =>
    if part = here then follow d strict limit cur rest
    else if part = up then follow d strict limit cur.dropLast rest
    else
      match d.node (cur ++ [part]) with
      | some (.link target) => follow d strict limit (start cur target) (parts target ++ rest)
      | some .dir => follow d strict limit (cur ++ [part]) rest
      | _ => if strict = true ∧ rest ≠ [] then none else follow d strict limit (cur ++ [part]) rest

def Disk.put (d : Disk) (p : Place) (n : Node) : Disk := ⟨(p, n) :: d.nodes, d.written ++ [p]⟩

def Disk.names (d : Disk) (inode : Nat) : List Place :=
  (d.nodes.map Prod.fst).filter fun p ↦ d.node p = some (.file inode)

def Disk.freshInode (d : Disk) : Nat :=
  (d.nodes.map fun e ↦ match e.2 with | .file inode => inode + 1 | _ => 0).foldr max 0

/-- The directories of a path are made where they are missing. -/
def descend : Nat → Disk → Place → List Name → Option (Disk × Place × Nat)
  | limit, d, cur, [] => some (d, cur, limit)
  | 0, _, _, _ :: _ => none
  | limit + 1, d, cur, part :: rest =>
    if part = here then descend limit d cur rest
    else if part = up then descend limit d cur.dropLast rest
    else
      match d.node (cur ++ [part]) with
      | none => descend limit (d.put (cur ++ [part]) .dir) (cur ++ [part]) rest
      | some .dir => descend limit d (cur ++ [part]) rest
      | some (.file _) => none
      | some (.link target) =>
        match follow d true limit (start cur target) (parts target) with
        | some (p, limit) => if d.node p = some .dir then descend limit d p rest else none
        | none => none

def openFile (limit : Nat) (d : Disk) (cur : Place) (name : Name) : Option Disk :=
  match follow d true limit cur [name] with
  | some (p, _) =>
    match d.node p with
    | none => some (d.put p (.file d.freshInode))
    | some (.file inode) => some { d with written := d.written ++ d.names inode }
    | _ => none
  | none => none

/-- A symbolic link is made in the place of what is there, which cannot be a directory. -/
def replaceLink (d : Disk) (p : Place) (target : List Char) : Option Disk :=
  if d.node p = some .dir ∨ target = [] then none else some (d.put p (.link target))

def isThere (limit : Nat) (d : Disk) (cur : Place) (path : List Char) : Bool :=
  (follow d true limit (start cur path) (parts path)).any fun r ↦ (d.node r.1).isSome

def lastNode (limit : Nat) (d : Disk) (cur : Place) (path : List Char) : Option Node := do
  let last ← (parts path).getLast?
  if last = here ∨ last = up then none
  else
    let (p, _) ← follow d true limit (start cur path) (parts path).dropLast
    d.node (p ++ [last])

/-- A place where nothing is gets another name of a file, or of a symbolic link. -/
def makeLink (d : Disk) (p : Place) (source : Option Node) : Option Disk :=
  match source, d.node p with
  | some (.file inode), none => some (d.put p (.file inode))
  | some (.link target), none => some (d.put p (.link target))
  | _, _ => none

/-! ### Confined ways -/

def lookUp (d : Disk) (cur : Place) (part : Name) : Place × List Name :=
  if part = here then (cur, [])
  else if part = up then (cur.dropLast, [])
  else
    match d.node (cur ++ [part]) with
    | some (.link target) => (start cur target, parts target)
    | _ => (cur ++ [part], [])

/-- A link inside of the directory leads into it and no part behind it climbs; what is missing is missing
in the directory. -/
def admits (d : Disk) (root : Place) (limit : Nat) (cur : Place) (part : Name) (rest : List Name) : Bool :=
  if part = here ∨ part = up then true
  else
    match d.node (cur ++ [part]) with
    | some (.link target) => decide (Below root (cur ++ [part]) → up ∉ rest ∧
        ∀ r ∈ follow d false limit (start cur target) (parts target), root <+: r.1)
    | none => decide (root <+: cur)
    | _ => true

def confined (d : Disk) (root : Place) : Nat → Place → List Name → Bool
  | _, _, [] => true
  | 0, _, _ :: _ => true
  | limit + 1, cur, part :: rest =>
    admits d root limit cur part rest &&
      confined d root limit (lookUp d cur part).1 ((lookUp d cur part).2 ++ rest)

section Follow

variable {d d' d₀ : Disk} {root cur p q : Place} {xs ys : List Name} {part : Name} {limit l : Nat}
  {strict : Bool} {target : List Char} {n : Node}

theorem lookUp_link (hhere : part ≠ here) (hup : part ≠ up)
    (h : d.node (cur ++ [part]) = some (.link target)) :
    lookUp d cur part = (start cur target, parts target) := by
  rw [lookUp, if_neg hhere, if_neg hup, h]

theorem lookUp_enter (hhere : part ≠ here) (hup : part ≠ up)
    (h : ∀ target, d.node (cur ++ [part]) ≠ some (.link target)) : lookUp d cur part = (cur ++ [part], []) := by
  rw [lookUp, if_neg hhere, if_neg hup]
  split
  · next target hlink => exact absurd hlink (h target)
  · rfl

/-- A look-up that is not strict goes on from the place of its first part. -/
theorem follow_cons (limit : Nat) (cur : Place) (part : Name) (xs : List Name) :
    follow d false (limit + 1) cur (part :: xs) =
      follow d false limit (lookUp d cur part).1 ((lookUp d cur part).2 ++ xs) := by
  rw [follow, lookUp]
  by_cases hhere : part = here
  · rw [if_pos hhere, if_pos hhere, nil_append]
  by_cases hup : part = up
  · rw [if_neg hhere, if_neg hhere, if_pos hup, if_pos hup, nil_append]
  rw [if_neg hhere, if_neg hhere, if_neg hup, if_neg hup]
  split
  · next hlink => rw [hlink]
  · next hdir => rw [hdir, nil_append]
  · next hlink _ =>
    rw [if_neg (by simp)]
    split
    · next target htarget => exact absurd htarget (hlink target)
    · rfl

/-- A path is followed piece by piece. -/
theorem follow_append (limit : Nat) (cur : Place) (xs ys : List Name) :
    follow d false limit cur (xs ++ ys) =
      (follow d false limit cur xs).bind fun r ↦ follow d false r.2 r.1 ys := by
  induction limit generalizing cur xs with
  | zero => cases xs <;> rfl
  | succ limit ih =>
    cases xs with
    | nil => rfl
    | cons part xs => rw [cons_append, follow_cons, follow_cons, ← append_assoc, ih]

theorem le_of_follow (h : follow d false limit cur xs = some (p, l)) : l ≤ limit := by
  induction limit generalizing cur xs with
  | zero =>
    cases xs with
    | nil =>
      cases h
      exact Nat.le_refl 0
    | cons part xs => cases h
  | succ limit ih =>
    cases xs with
    | nil =>
      cases h
      exact Nat.le_refl _
    | cons part xs =>
      rw [follow_cons] at h
      exact Nat.le_succ_of_le (ih h)

/-- A strict look-up leads where one leads that is not strict. -/
theorem follow_of_strict (h : follow d true limit cur xs = some (p, l)) :
    follow d false limit cur xs = some (p, l) := by
  induction limit generalizing cur xs with
  | zero =>
    cases xs with
    | nil => exact h
    | cons part xs => cases h
  | succ limit ih =>
    cases xs with
    | nil => exact h
    | cons part xs =>
      rw [follow] at h ⊢
      split at h
      · next hhere => rw [if_pos hhere, ih h]
      next hhere =>
      split at h
      · next hup => rw [if_neg hhere, if_pos hup, ih h]
      next hup =>
      rw [if_neg hhere, if_neg hup]
      split at h
      · exact ih h
      · exact ih h
      · obtain ⟨-, h⟩ := Option.ite_none_left_eq_some.mp h
        rw [if_neg (by simp), ih h]

/-! ### Confined ways lead into the directory -/

/-- The rest of a way is confined. -/
theorem confined_cons (h : confined d root (limit + 1) cur (part :: xs) = true) :
    confined d root limit (lookUp d cur part).1 ((lookUp d cur part).2 ++ xs) = true :=
  (Bool.and_eq_true_iff.mp h).2

theorem confined_append (h : confined d root limit cur (xs ++ ys) = true)
    (hfollow : follow d false limit cur xs = some (p, l)) : confined d root l p ys = true := by
  induction limit generalizing cur xs with
  | zero =>
    cases xs with
    | nil =>
      cases hfollow
      exact h
    | cons part xs => cases hfollow
  | succ limit ih =>
    cases xs with
    | nil =>
      cases hfollow
      exact h
    | cons part xs =>
      rw [cons_append] at h
      rw [follow_cons] at hfollow
      have hrest := confined_cons h
      rw [← append_assoc] at hrest
      exact ih hrest hfollow

theorem admits_left (h : admits d root limit cur part (xs ++ ys) = true) :
    admits d root limit cur part xs = true := by
  rw [admits] at h ⊢
  split
  · rfl
  next hpart =>
  rw [if_neg hpart] at h
  split at h
  · refine decide_eq_true fun hbelow ↦ ?_
    obtain ⟨hup, hleads⟩ := of_decide_eq_true h hbelow
    exact ⟨mt (mem_append_left ys) hup, hleads⟩
  · exact h
  · rfl

theorem confined_left (h : confined d root limit cur (xs ++ ys) = true) : confined d root limit cur xs = true := by
  induction limit generalizing cur xs with
  | zero => cases xs <;> rfl
  | succ limit ih =>
    cases xs with
    | nil => rfl
    | cons part xs =>
      rw [cons_append] at h
      obtain ⟨hadmits, hrest⟩ := Bool.and_eq_true_iff.mp h
      rw [← append_assoc] at hrest
      exact Bool.and_eq_true_iff.mpr ⟨admits_left hadmits, ih hrest⟩

theorem confined_link (hhere : part ≠ here) (hup : part ≠ up) (hbelow : Below root (cur ++ [part]))
    (hlink : d.node (cur ++ [part]) = some (.link target))
    (h : confined d root (limit + 1) cur (part :: xs) = true) : up ∉ xs ∧
      ∀ r ∈ follow d false limit (start cur target) (parts target), root <+: r.1 := by
  have hadmits := (Bool.and_eq_true_iff.mp h).1
  rw [admits, if_neg (not_or.mpr ⟨hhere, hup⟩), hlink] at hadmits
  exact of_decide_eq_true hadmits hbelow

theorem confined_missing (hhere : part ≠ here) (hup : part ≠ up) (hnone : d.node (cur ++ [part]) = none)
    (h : confined d root (limit + 1) cur (part :: xs) = true) : root <+: cur := by
  have hadmits := (Bool.and_eq_true_iff.mp h).1
  rw [admits, if_neg (not_or.mpr ⟨hhere, hup⟩), hnone] at hadmits
  exact of_decide_eq_true hadmits

theorem below_append (h : root <+: cur) (part : Name) : Below root (cur ++ [part]) :=
  ⟨h.trans (prefix_append cur [part]), by
    rintro rfl
    exact absurd h.length_le (by simp)⟩

/-- A confined way that begins in the directory and does not climb stays in it. -/
theorem follow_below (hcur : root <+: cur) (hup : up ∉ xs)
    (h : confined d root limit cur xs = true) (hfollow : follow d false limit cur xs = some (p, l)) :
    root <+: p := by
  induction limit using Nat.strong_induction_on generalizing cur xs with
  | _ limit ih =>
    cases limit with
    | zero =>
      cases xs with
      | nil =>
        cases hfollow
        exact hcur
      | cons part xs => cases hfollow
    | succ limit =>
      cases xs with
      | nil =>
        cases hfollow
        exact hcur
      | cons part xs =>
        obtain ⟨hpart, hxs⟩ := not_or.mp (mt mem_cons.mpr hup)
        have hrest := confined_cons h
        rw [follow_cons] at hfollow
        by_cases hhere : part = here
        · rw [lookUp, if_pos hhere] at hfollow hrest
          exact ih limit (Nat.lt_succ_self _) hcur hxs hrest hfollow
        by_cases hlink : ∃ target, d.node (cur ++ [part]) = some (.link target)
        · obtain ⟨target, htarget⟩ := hlink
          obtain ⟨hclimb, hleads⟩ := confined_link hhere (Ne.symm hpart) (below_append hcur part) htarget h
          rw [lookUp_link hhere (Ne.symm hpart) htarget] at hfollow hrest
          rw [follow_append] at hfollow
          obtain ⟨r, hr, hfollow⟩ := Option.bind_eq_some_iff.mp hfollow
          have hle := le_of_follow hr
          exact ih r.2 (Nat.lt_succ_of_le hle) (hleads r hr) hxs
            (confined_append hrest hr) hfollow
        · rw [lookUp_enter hhere (Ne.symm hpart) (not_exists.mp hlink)] at hfollow hrest
          exact ih limit (Nat.lt_succ_self _) (below_append hcur part).1 hxs hrest hfollow

def IsInnerLink (d : Disk) (root cur : Place) (part : Name) : Prop :=
  part ≠ here ∧ part ≠ up ∧ Below root (cur ++ [part]) ∧ ∃ target, d.node (cur ++ [part]) = some (.link target)

/-- Nothing was inside of the directory earlier, and nothing has changed outside. -/
structure Filled (root : Place) (d₀ d : Disk) : Prop where
  fresh : ∀ p, Below root p → d₀.node p = none
  outside : ∀ p, ¬ Below root p → d.node p = d₀.node p

/-- Apart from the links in the directory all parts lead where they led before. -/
theorem lookUp_eq_of_filled (h : Filled root d₀ d) (hlink : ¬ IsInnerLink d root cur part) :
    lookUp d cur part = lookUp d₀ cur part := by
  by_cases hhere : part = here
  · rw [lookUp, lookUp, if_pos hhere, if_pos hhere]
  by_cases hup : part = up
  · rw [lookUp, lookUp, if_neg hhere, if_neg hhere, if_pos hup, if_pos hup]
  by_cases hbelow : Below root (cur ++ [part])
  · rw [lookUp_enter hhere hup fun target htarget ↦ hlink ⟨hhere, hup, hbelow, target, htarget⟩,
      lookUp_enter hhere hup (by simp [h.fresh _ hbelow])]
  · rw [lookUp, lookUp, h.outside _ hbelow]

/-- The way leads into the directory: it goes on as it went before, or it is inside and does not climb. -/
def Leads (d₀ : Disk) (root cur : Place) (xs : List Name) : Prop :=
  (∃ limit p l, follow d₀ false limit cur xs = some (p, l) ∧ root <+: p) ∨ (root <+: cur ∧ up ∉ xs)

theorem Leads.nil (h : Leads d₀ root cur []) : root <+: cur := by
  rcases h with ⟨limit, p, l, hfollow, hp⟩ | ⟨hcur, -⟩
  · cases limit <;> cases hfollow <;> exact hp
  · exact hcur

/-- A way that leads into the directory still does behind first parts that are confined. -/
theorem Leads.follow (hfilled : Filled root d₀ d) (hleads : Leads d₀ root cur (xs ++ ys)) (hys : up ∉ ys)
    (h : confined d root limit cur xs = true) (hfollow : follow d false limit cur xs = some (p, l)) :
    Leads d₀ root p ys := by
  induction limit generalizing cur xs with
  | zero =>
    cases xs with
    | nil =>
      cases hfollow
      exact hleads
    | cons part xs => cases hfollow
  | succ limit ih =>
    cases xs with
    | nil =>
      cases hfollow
      exact hleads
    | cons part xs =>
      rw [cons_append] at hleads
      rcases hleads with ⟨limit₀, p₀, l₀, hfollow₀, hp₀⟩ | ⟨hcur, hclimb⟩
      · by_cases hinner : IsInnerLink d root cur part
        · -- behind a link that the archive has made, the way stays inside
          obtain ⟨hhere, hup, hbelow, target, htarget⟩ := hinner
          obtain ⟨hclimb, hinside⟩ := confined_link hhere hup hbelow htarget h
          have hrest := confined_cons h
          rw [follow_cons, lookUp_link hhere hup htarget, follow_append] at hfollow
          rw [lookUp_link hhere hup htarget] at hrest
          obtain ⟨r, hr, hfollow⟩ := Option.bind_eq_some_iff.mp hfollow
          exact .inr ⟨follow_below (hinside r hr) hclimb (confined_append hrest hr) hfollow, hys⟩
        · cases limit₀ with
          | zero => cases hfollow₀
          | succ limit₀ =>
            have hrest := confined_cons h
            rw [follow_cons] at hfollow
            rw [follow_cons, ← lookUp_eq_of_filled hfilled hinner, ← append_assoc]
              at hfollow₀
            exact ih (.inl ⟨limit₀, p₀, l₀, hfollow₀, hp₀⟩) hrest hfollow
      · rw [← cons_append, mem_append, not_or] at hclimb
        exact .inr ⟨follow_below hcur hclimb.1 h hfollow, hys⟩

/-! ### Directories that are made on the way -/

/-- Nothing was created or overwritten outside of the directory. -/
structure Inside (root : Place) (d d' : Disk) : Prop where
  written : ∀ p ∈ d'.written, p ∈ d.written ∨ Below root p
  outside : ∀ p, ¬ Below root p → d'.node p = d.node p

theorem Inside.trans {d₁ d₂ d₃ : Disk} (h : Inside root d₁ d₂) (h' : Inside root d₂ d₃) :
    Inside root d₁ d₃ where
  written p hp := (h'.written p hp).elim (h.written p) .inr
  outside p hp := (h'.outside p hp).trans (h.outside p hp)

theorem Filled.trans (h : Filled root d₀ d) (h' : Inside root d d') : Filled root d₀ d' :=
  ⟨h.fresh, fun p hp ↦ (h'.outside p hp).trans (h.outside p hp)⟩

theorem Below.ne_nil (h : Below root p) : p ≠ [] := by
  rintro rfl
  exact h.2 (prefix_nil.mp h.1).symm

theorem node_put (hp : p ≠ []) (n : Node) (q : Place) :
    (d.put p n).node q = if q = p then some n else d.node q := by
  unfold Disk.node Disk.put
  by_cases hq : q = p
  · subst hq
    rw [if_neg hp, if_pos rfl, lookup_cons_self]
  · rw [if_neg hq, lookup_cons, beq_eq_false_iff_ne.mpr hq]

theorem inside_put (hbelow : Below root p) (n : Node) : Inside root d (d.put p n) where
  written q hq := (mem_append.mp hq).imp id fun hq ↦ by rwa [mem_singleton.mp hq]
  outside q hq := by rw [node_put hbelow.ne_nil, if_neg (by rintro rfl; exact hq hbelow)]

/-- Directories were made where nothing was in the directory. -/
structure Grown (root : Place) (d d' : Disk) : Prop extends Inside root d d' where
  kept : ∀ p n, d.node p = some n → d'.node p = some n
  made : ∀ p n, d'.node p = some n → d.node p = some n ∨ n = .dir

theorem Grown.refl (root : Place) (d : Disk) : Grown root d d :=
  ⟨⟨fun _ hp ↦ .inl hp, fun _ _ ↦ rfl⟩, fun _ _ h ↦ h, fun _ _ h ↦ .inl h⟩

theorem Grown.trans {d₁ d₂ d₃ : Disk} (h : Grown root d₁ d₂) (h' : Grown root d₂ d₃) : Grown root d₁ d₃ where
  toInside := h.toInside.trans h'.toInside
  kept p n hn := h'.kept p n (h.kept p n hn)
  made p n hn := (h'.made p n hn).elim (h.made p n) .inr

theorem grown_put (hbelow : Below root p) (hnone : d.node p = none) : Grown root d (d.put p .dir) where
  toInside := inside_put hbelow .dir
  kept q n hn := by
    rw [node_put hbelow.ne_nil, if_neg (by rintro rfl; simp [hnone] at hn), hn]
  made q n hn := by
    rw [node_put hbelow.ne_nil] at hn
    split at hn
    · exact .inr (Option.some.inj hn).symm
    · exact .inl hn

theorem Grown.link_iff (h : Grown root d d') : d'.node p = some (.link target) ↔ d.node p = some (.link target) :=
  ⟨fun hn ↦ (h.made _ _ hn).resolve_right (by simp), h.kept _ _⟩

theorem Grown.file_iff {inode : Nat} (h : Grown root d d') :
    d'.node p = some (.file inode) ↔ d.node p = some (.file inode) :=
  ⟨fun hn ↦ (h.made _ _ hn).resolve_right (by simp), h.kept _ _⟩

theorem Grown.lookUp_eq (h : Grown root d d') : lookUp d' cur part = lookUp d cur part := by
  by_cases hhere : part = here
  · rw [lookUp, lookUp, if_pos hhere, if_pos hhere]
  by_cases hup : part = up
  · rw [lookUp, lookUp, if_neg hhere, if_neg hhere, if_pos hup, if_pos hup]
  by_cases hlink : ∃ target, d.node (cur ++ [part]) = some (.link target)
  · obtain ⟨target, htarget⟩ := hlink
    rw [lookUp_link hhere hup htarget, lookUp_link hhere hup (h.kept _ _ htarget)]
  · have hlink := not_exists.mp hlink
    rw [lookUp_enter hhere hup hlink, lookUp_enter hhere hup fun target ↦ mt h.link_iff.mp (hlink target)]

theorem Grown.follow_eq (h : Grown root d d') (limit : Nat) (cur : Place) (xs : List Name) :
    follow d' false limit cur xs = follow d false limit cur xs := by
  induction limit generalizing cur xs with
  | zero => cases xs <;> rfl
  | succ limit ih =>
    cases xs with
    | nil => rfl
    | cons part xs => rw [follow_cons, follow_cons, h.lookUp_eq, ih]

theorem Grown.admits (hgrown : Grown root d d') (h : admits d root limit cur part xs = true) :
    admits d' root limit cur part xs = true := by
  by_cases hpart : part = here ∨ part = up
  · rw [Posix.admits, if_pos hpart]
  rw [Posix.admits, if_neg hpart] at h ⊢
  cases hnode : d'.node (cur ++ [part]) with
  | none =>
    cases hd : d.node (cur ++ [part]) with
    | none =>
      rw [hd] at h
      exact h
    | some n => simp [hgrown.kept _ _ hd] at hnode
  | some n =>
    cases n with
    | link target =>
      rw [hgrown.link_iff.mp hnode] at h
      simpa only [hgrown.follow_eq] using h
    | dir => rfl
    | file inode => rfl

theorem Grown.confined (hgrown : Grown root d d') (h : confined d root limit cur xs = true) :
    confined d' root limit cur xs = true := by
  induction limit generalizing cur xs with
  | zero => cases xs <;> rfl
  | succ limit ih =>
    cases xs with
    | nil => rfl
    | cons part xs =>
      obtain ⟨hadmits, hrest⟩ := Bool.and_eq_true_iff.mp h
      rw [← hgrown.lookUp_eq] at hrest
      exact Bool.and_eq_true_iff.mpr ⟨hgrown.admits hadmits, ih hrest⟩

/-- On a confined way directories are made in the directory, and it leads where it led before. -/
theorem descend_grown (h : descend limit d cur xs = some (d', p, l)) (hconfined : confined d root limit cur xs = true) :
    Grown root d d' ∧ follow d false limit cur xs = some (p, l) := by
  induction xs generalizing limit d cur with
  | nil =>
    cases limit <;> cases h <;> exact ⟨.refl root _, rfl⟩
  | cons part xs ih =>
    cases limit with
    | zero => cases h
    | succ limit =>
      have hrest := confined_cons hconfined
      rw [follow_cons]
      rw [descend] at h
      split at h
      · next hhere =>
        rw [lookUp, if_pos hhere] at hrest ⊢
        exact ih h hrest
      next hhere =>
      split at h
      · next hup =>
        rw [lookUp, if_neg hhere, if_pos hup] at hrest ⊢
        exact ih h hrest
      next hup =>
      split at h
      · next hnone =>
        rw [lookUp_enter hhere hup (by simp [hnone])] at hrest ⊢
        have hput := grown_put (below_append (confined_missing hhere hup hnone hconfined) part) hnone
        obtain ⟨hgrown, hfollow⟩ := ih h (hput.confined hrest)
        exact ⟨hput.trans hgrown, (hput.follow_eq _ _ _).symm.trans hfollow⟩
      · next hdir =>
        rw [lookUp_enter hhere hup (by simp [hdir])] at hrest ⊢
        exact ih h hrest
      · cases h
      · next target htarget =>
        rw [lookUp_link hhere hup htarget] at hrest ⊢
        split at h
        · next q l' hfollow =>
          obtain ⟨-, h⟩ := Option.ite_none_right_eq_some.mp h
          have hlenient := follow_of_strict hfollow
          obtain ⟨hgrown, hfollow'⟩ := ih h (confined_append hrest hlenient)
          exact ⟨hgrown, by rw [follow_append, hlenient, Option.bind_some, hfollow']⟩
        · cases h

/-- The names of a file are the places where it is, apart from the root of the tree. -/
theorem mem_names {inode : Nat} : p ∈ d.names inode ↔ d.node p = some (.file inode) := by
  rw [Disk.names, mem_filter, decide_eq_true_iff, and_iff_right_iff_imp]
  intro h
  unfold Disk.node at h
  split at h
  · cases h
  · obtain ⟨before, after, hsplit, -⟩ := lookup_eq_some_iff.mp h
    rw [hsplit]
    simp

end Follow

end Posix
