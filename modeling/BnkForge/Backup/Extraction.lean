import BnkForge.Lib.PosixFiles
import BnkForge.Lib.PythonPath

/-!
# Extracting an archive

`BackupService._extract_archive` (`backend/services/backup_service.py:312–331`) with
`TarFile.extractall` of Python, which makes the members in their order. All names are checked before
anything is extracted, but what a name means may depend on links that earlier members have made; the
files stay in the directory if those are confined (`extractArchive_contained`).
-/

namespace BnkForge.Backup

open Posix

inductive MemberType
  | file
  | directory
  | symlink (target : List Char)
  | hardLink (target : List Char)
  deriving DecidableEq, Repr

structure Member where
  name : List Char
  type : MemberType
  deriving DecidableEq, Repr

inductive ExtractError
  /-- `INVALID_ARCHIVE`: the archive contains an unsafe path. -/
  | unsafePath (name : List Char)
  /-- What the system or the archive raises while members are extracted. -/
  | extraction
  deriving DecidableEq, Repr

/-- `os.path.commonpath([target_root, member_path]) == target_root`, with the path resolved. -/
def isSafe (resolveLimit : Nat) (root : Place) (d : Disk) (m : Member) : Bool :=
  (follow d false resolveLimit (start root m.name) (parts m.name)).any fun r ↦ decide (root <+: r.1)

def makeMember (limit : Nat) (root : Place) (left : Nat) (d : Disk) (cur : Place) (last : Name) :
    List Member → MemberType → Option Disk
  | _, .file => openFile left d cur last
  | _, .directory => (descend left d cur [last]).map Prod.fst
  | _, .symlink target => replaceLink d (cur ++ [last]) target
  | [], .hardLink target =>
    if isThere limit d root target then makeLink d (cur ++ [last]) (lastNode limit d root target) else none
  | m :: earlier, .hardLink target =>
    if isThere limit d root target then makeLink d (cur ++ [last]) (lastNode limit d root target)
    else if Python.normpath m.name = Python.normpath target then
      makeMember limit root left d cur last earlier m.type
    else makeMember limit root left d cur last earlier (.hardLink target)

/-- `extract` of one member, behind the earlier ones. -/
def extractMember (limit : Nat) (root : Place) (earlier : List Member) (d : Disk) (m : Member) :
    Option Disk :=
  match m.type with
  | .directory => (descend limit d (start root m.name) (parts m.name)).map Prod.fst
  | type => do
    let last ← (parts m.name).getLast?
    let (d, cur, left) ← descend limit d (start root m.name) (parts m.name).dropLast
    if last = here ∨ last = up then none else makeMember limit root left d cur last earlier type

/-- `extractall`, behind the earlier members. -/
def extractMembers (limit : Nat) (root : Place) : List Member → Disk → List Member → Option Disk
  | _, d, [] => some d
  | earlier, d, m :: members => do
    let d ← extractMember limit root earlier d m
    extractMembers limit root (m :: earlier) d members

/-- `_extract_archive`. -/
def extractArchive (resolveLimit limit : Nat) (root : Place) (d : Disk) (members : List Member) :
    Except ExtractError Disk :=
  match members.find? fun m ↦ !isSafe resolveLimit root d m with
  | some m => .error (.unsafePath m.name)
  | none =>
    match extractMembers limit root [] d members with
    | some d => .ok d
    | none => .error .extraction

/-! ### Confined members -/

def linkIsInside (d : Disk) (root p : Place) : Bool :=
  match d.node p with
  | some (.link _) => decide (Below root p)
  | _ => true

def fileIsInside (d : Disk) (root p : Place) : Bool :=
  match d.node p with
  | some (.file inode) => decide (∀ q ∈ d.names inode, Below root q)
  | _ => true

def replacesInside (limit : Nat) (root : Place) (d : Disk) (m : Member) : Bool :=
  (follow d false limit (start root m.name) (parts m.name).dropLast).all fun r ↦
    (parts m.name).getLast?.all fun last ↦ linkIsInside d root (r.1 ++ [last])

def overwritesInside (limit : Nat) (root : Place) (d : Disk) (m : Member) : Bool :=
  (follow d false limit (start root m.name) (parts m.name)).all fun r ↦ fileIsInside d root r.1

def Member.isConfined (limit : Nat) (root : Place) (d : Disk) (m : Member) : Bool :=
  match m.type with
  | .directory => confined d root limit (start root m.name) (parts m.name)
  | .file => confined d root limit (start root m.name) (parts m.name) && overwritesInside limit root d m
  | .symlink _ =>
    confined d root limit (start root m.name) (parts m.name).dropLast && replacesInside limit root d m
  | .hardLink _ =>
    confined d root limit (start root m.name) (parts m.name) && overwritesInside limit root d m &&
      replacesInside limit root d m

def runConfined (limit : Nat) (root : Place) : List Member → Disk → List Member → Bool
  | _, _, [] => true
  | earlier, d, m :: members =>
    m.isConfined limit root d &&
      (extractMember limit root earlier d m).all fun d ↦ runConfined limit root (m :: earlier) d members

/-- The directory is there, with nothing in it. -/
structure IsFresh (root : Place) (d : Disk) : Prop where
  dir : d.node root = some .dir
  empty : ∀ e ∈ d.nodes, ¬ Below root e.1
  written : d.written = []

/-! ### One member -/

section

variable {limit resolveLimit left : Nat} {root cur : Place} {d d' d₀ : Disk} {last : Name} {m : Member}
  {earlier members : List Member} {type : MemberType}

theorem not_below_self : ¬ Below root root := fun h ↦ h.2 rfl

theorem below_of_leads (hfilled : Filled root d₀ d) (hroot : d₀.node root = some .dir)
    (hleads : Leads d₀ root cur [last]) (hhere : last ≠ here) (hup : last ≠ up)
    (hdir : d.node (cur ++ [last]) ≠ some .dir) (hlink : linkIsInside d root (cur ++ [last]) = true) :
    Below root (cur ++ [last]) := by
  by_contra hbelow
  rcases hleads with ⟨limit, p, l, hfollow, hp⟩ | ⟨hcur, -⟩
  · have hnode := hfilled.outside _ hbelow
    have hnolink : ∀ target, d₀.node (cur ++ [last]) ≠ some (.link target) := by
      intro target htarget
      rw [linkIsInside, hnode, htarget] at hlink
      exact hbelow (of_decide_eq_true hlink)
    cases limit with
    | zero => cases hfollow
    | succ limit =>
      rw [follow_cons, lookUp_enter hhere hup hnolink] at hfollow
      obtain rfl : cur ++ [last] = p := by
        cases limit <;> exact (Prod.mk.inj (Option.some.inj hfollow)).1
      have hself : cur ++ [last] = root := by
        by_contra hne
        exact hbelow ⟨hp, hne⟩
      exact hdir (by rw [hnode, hself, hroot])
  · exact hbelow (below_append hcur last)

theorem openFile_inside (hfilled : Filled root d₀ d) (hroot : d₀.node root = some .dir)
    (hleads : Leads d₀ root cur [last]) (hway : confined d root left cur [last] = true)
    (hfile : ∀ r ∈ follow d false left cur [last], fileIsInside d root r.1 = true)
    (h : openFile left d cur last = some d') : Inside root d d' := by
  unfold openFile at h
  split at h
  · next p l hfollow =>
    have hlenient := follow_of_strict hfollow
    have hp : root <+: p := (Leads.follow hfilled hleads List.not_mem_nil hway hlenient).nil
    split at h
    · next hnone =>
      cases h
      refine inside_put ⟨hp, ?_⟩ _
      rintro rfl
      rw [hfilled.outside _ not_below_self, hroot] at hnone
      cases hnone
    · next inode hnode =>
      cases h
      have hnames := hfile _ hlenient
      rw [fileIsInside, hnode] at hnames
      exact ⟨fun q hq ↦ (List.mem_append.mp hq).imp id (of_decide_eq_true hnames q), fun _ _ ↦ rfl⟩
    · cases h
  · cases h

theorem replaceLink_inside {p : Place} {target : List Char} (hbelow : d.node p ≠ some .dir → Below root p)
    (h : replaceLink d p target = some d') : Inside root d d' := by
  obtain ⟨hdir, h⟩ := Option.ite_none_left_eq_some.mp h
  cases h
  exact inside_put (hbelow (not_or.mp hdir).1) _

theorem makeLink_inside {p : Place} {source : Option Node} (hbelow : d.node p = none → Below root p)
    (h : makeLink d p source = some d') : Inside root d d' := by
  unfold makeLink at h
  split at h
  · next hnone =>
    cases h
    exact inside_put (hbelow hnone) _
  · next hnone =>
    cases h
    exact inside_put (hbelow hnone) _
  · cases h

theorem makeMember_file :
    makeMember limit root left d cur last earlier .file = openFile left d cur last := by
  cases earlier <;> rfl

theorem makeMember_symlink {target : List Char} :
    makeMember limit root left d cur last earlier (.symlink target) =
      replaceLink d (cur ++ [last]) target := by
  cases earlier <;> rfl

theorem makeMember_inside (hfilled : Filled root d₀ d) (hroot : d₀.node root = some .dir)
    (hleads : Leads d₀ root cur [last]) (hhere : last ≠ here) (hup : last ≠ up)
    (hway : confined d root left cur [last] = true)
    (hfile : ∀ r ∈ follow d false left cur [last], fileIsInside d root r.1 = true)
    (hlink : linkIsInside d root (cur ++ [last]) = true)
    (h : makeMember limit root left d cur last earlier type = some d') : Inside root d d' := by
  have hbelow : d.node (cur ++ [last]) ≠ some .dir → Below root (cur ++ [last]) := fun hdir ↦
    below_of_leads hfilled hroot hleads hhere hup hdir hlink
  have hmissing : d.node (cur ++ [last]) = none → Below root (cur ++ [last]) := fun hnone ↦
    hbelow (by simp [hnone])
  have hdirectory : (descend left d cur [last]).map Prod.fst = some d' → Inside root d d' := by
    intro h
    obtain ⟨r, hr, rfl⟩ := Option.map_eq_some_iff.mp h
    exact (descend_grown hr hway).1.toInside
  induction earlier generalizing type with
  | nil =>
    cases type with
    | file => exact openFile_inside hfilled hroot hleads hway hfile h
    | directory => exact hdirectory h
    | symlink target => exact replaceLink_inside hbelow h
    | hardLink target =>
      obtain ⟨-, h⟩ := Option.ite_none_right_eq_some.mp h
      exact makeLink_inside hmissing h
  | cons m earlier ih =>
    cases type with
    | file => exact openFile_inside hfilled hroot hleads hway hfile h
    | directory => exact hdirectory h
    | symlink target => exact replaceLink_inside hbelow h
    | hardLink target =>
      unfold makeMember at h
      split at h
      · exact makeLink_inside hmissing h
      split at h
      · exact ih h
      · exact ih h

theorem linkIsInside_of_grown {p : Place} (hgrown : Grown root d d') (h : linkIsInside d root p = true) :
    linkIsInside d' root p = true := by
  unfold linkIsInside at h ⊢
  split
  · next target hnode =>
    rw [hgrown.link_iff.mp hnode] at h
    exact h
  · rfl

theorem fileIsInside_of_grown {p : Place} (hgrown : Grown root d d') (h : fileIsInside d root p = true) :
    fileIsInside d' root p = true := by
  unfold fileIsInside at h ⊢
  split
  · next inode hnode =>
    rw [hgrown.file_iff.mp hnode] at h
    refine decide_eq_true fun q hq ↦ of_decide_eq_true h q ?_
    exact mem_names.mpr (hgrown.file_iff.mp (mem_names.mp hq))
  · rfl

theorem leads_of_isSafe (h : isSafe resolveLimit root d₀ m = true) :
    Leads d₀ root (start root m.name) (parts m.name) := by
  obtain ⟨⟨p, l⟩, hfollow, hp⟩ := (Option.any_eq_true _ _).mp h
  exact .inl ⟨resolveLimit, p, l, hfollow, of_decide_eq_true hp⟩

theorem descend_leads (hfilled : Filled root d₀ d) (hsafe : isSafe resolveLimit root d₀ m = true)
    (hparts : parts m.name = (parts m.name).dropLast ++ [last]) (hup : last ≠ up)
    (hway : confined d root limit (start root m.name) (parts m.name).dropLast = true)
    (h : descend limit d (start root m.name) (parts m.name).dropLast = some (d', cur, left)) :
    Grown root d d' ∧ follow d false limit (start root m.name) (parts m.name).dropLast = some (cur, left) ∧
      Leads d₀ root cur [last] := by
  obtain ⟨hgrown, hfollow⟩ := descend_grown h hway
  have hleads := leads_of_isSafe hsafe
  rw [hparts] at hleads
  exact ⟨hgrown, hfollow, hleads.follow hfilled (by simp [hup.symm]) hway hfollow⟩

theorem fileIsInside_of_overwritesInside (h : overwritesInside limit root d m = true)
    (hparts : parts m.name = (parts m.name).dropLast ++ [last])
    (hfollow : follow d false limit (start root m.name) (parts m.name).dropLast = some (cur, left))
    (hgrown : Grown root d d') : ∀ r ∈ follow d' false left cur [last], fileIsInside d' root r.1 = true := by
  intro r hr
  rw [hgrown.follow_eq] at hr
  have hwhole : follow d false limit (start root m.name) (parts m.name) = some r := by
    rw [hparts, follow_append, hfollow, Option.bind_some]
    exact hr
  rw [overwritesInside, hwhole] at h
  exact fileIsInside_of_grown hgrown h

theorem linkIsInside_of_replacesInside (h : replacesInside limit root d m = true)
    (hlast : (parts m.name).getLast? = some last)
    (hfollow : follow d false limit (start root m.name) (parts m.name).dropLast = some (cur, left))
    (hgrown : Grown root d d') : linkIsInside d' root (cur ++ [last]) = true := by
  rw [replacesInside, hfollow, hlast] at h
  exact linkIsInside_of_grown hgrown h

theorem extractMember_inside (hfilled : Filled root d₀ d) (hroot : d₀.node root = some .dir)
    (hsafe : isSafe resolveLimit root d₀ m = true) (hconfined : m.isConfined limit root d = true)
    (h : extractMember limit root earlier d m = some d') : Inside root d d' := by
  obtain ⟨name, type⟩ := m
  unfold extractMember at h
  dsimp only at h
  split at h
  · obtain ⟨r, hr, rfl⟩ := Option.map_eq_some_iff.mp h
    exact (descend_grown hr hconfined).1.toInside
  next hdirectory =>
  obtain ⟨last, hlast, h⟩ := Option.bind_eq_some_iff.mp h
  obtain ⟨⟨d₁, cur, left⟩, hdescend, h⟩ := Option.bind_eq_some_iff.mp h
  obtain ⟨hordinary, h⟩ := Option.ite_none_left_eq_some.mp h
  obtain ⟨hhere, hup⟩ := not_or.mp hordinary
  have hparts : parts name = (parts name).dropLast ++ [last] :=
    (List.dropLast_append_getLast? last hlast).symm
  have hleads : confined d root limit (start root name) (parts name).dropLast = true →
      Grown root d d₁ ∧ follow d false limit (start root name) (parts name).dropLast = some (cur, left) ∧
        Leads d₀ root cur [last] := fun hway ↦ descend_leads hfilled hsafe hparts hup hway hdescend
  cases type with
  | directory => exact absurd rfl hdirectory
  | symlink target =>
    obtain ⟨hway, hreplaces⟩ := Bool.and_eq_true_iff.mp hconfined
    obtain ⟨hgrown, hfollow, hlast'⟩ := hleads hway
    rw [makeMember_symlink] at h
    refine hgrown.toInside.trans (replaceLink_inside (fun hdir ↦ ?_) h)
    exact below_of_leads (hfilled.trans hgrown.toInside) hroot hlast' hhere hup hdir
      (linkIsInside_of_replacesInside hreplaces hlast hfollow hgrown)
  | file =>
    obtain ⟨hway, hoverwrites⟩ := Bool.and_eq_true_iff.mp hconfined
    rw [hparts] at hway
    obtain ⟨hgrown, hfollow, hlast'⟩ := hleads (confined_left hway)
    rw [makeMember_file] at h
    refine hgrown.toInside.trans (openFile_inside (hfilled.trans hgrown.toInside) hroot hlast'
      (hgrown.confined (confined_append hway hfollow)) ?_ h)
    exact fileIsInside_of_overwritesInside hoverwrites hparts hfollow hgrown
  | hardLink target =>
    obtain ⟨hfile, hreplaces⟩ := Bool.and_eq_true_iff.mp hconfined
    obtain ⟨hway, hoverwrites⟩ := Bool.and_eq_true_iff.mp hfile
    rw [hparts] at hway
    obtain ⟨hgrown, hfollow, hlast'⟩ := hleads (confined_left hway)
    refine hgrown.toInside.trans (makeMember_inside (hfilled.trans hgrown.toInside) hroot hlast' hhere hup
      (hgrown.confined (confined_append hway hfollow)) ?_ ?_ h)
    · exact fileIsInside_of_overwritesInside hoverwrites hparts hfollow hgrown
    · exact linkIsInside_of_replacesInside hreplaces hlast hfollow hgrown

/-! ### All members -/

theorem extractMembers_inside (hfilled : Filled root d₀ d) (hroot : d₀.node root = some .dir)
    {done rest : List Member} (hsafe : ∀ m ∈ done, isSafe resolveLimit root d₀ m = true)
    (hconfined : runConfined limit root earlier d (done ++ rest) = true)
    (h : extractMembers limit root earlier d done = some d') : Inside root d d' := by
  induction done generalizing d earlier with
  | nil =>
    cases h
    exact (Grown.refl root _).toInside
  | cons m done ih =>
    obtain ⟨d₁, hd₁, h⟩ := Option.bind_eq_some_iff.mp h
    obtain ⟨hm, hdone⟩ := List.forall_mem_cons.mp hsafe
    obtain ⟨hturn, hrun⟩ := Bool.and_eq_true_iff.mp hconfined
    rw [hd₁] at hrun
    have hinside := extractMember_inside hfilled hroot hm hturn hd₁
    exact hinside.trans (ih (hfilled.trans hinside) hdone hrun h)

theorem IsFresh.filled (h : IsFresh root d) : Filled root d d where
  fresh p hp := by
    rw [Disk.node, if_neg hp.ne_nil, List.lookup_eq_none_iff]
    exact fun e he ↦ bne_iff_ne.mpr fun heq ↦ h.empty e he (heq ▸ hp)
  outside _ _ := rfl

end

def place (path : String) : Place := parts path.toList

def restoreDisk : Disk where
  nodes := [(place "etc", .dir), (place "tmp", .dir), (place "tmp/restore", .dir)]

def requiredMembers : List Member :=
  [⟨"metadata.json".toList, .file⟩, ⟨"dump.sql.gz".toList, .file⟩, ⟨"wrapped_key.enc".toList, .file⟩]

def linkedArchive : List Member :=
  requiredMembers ++ [⟨"logs".toList, .symlink "data/logs".toList⟩, ⟨"data/logs".toList, .directory⟩,
    ⟨"logs/restore.log".toList, .file⟩, ⟨"last.log".toList, .hardLink "logs/restore.log".toList⟩]

/-- An archive that writes through a link of its own. -/
def escapingArchive : List Member :=
  requiredMembers ++ [⟨"logs".toList, .symlink "/etc".toList⟩, ⟨"logs/restore.log".toList, .file⟩]

end BnkForge.Backup
