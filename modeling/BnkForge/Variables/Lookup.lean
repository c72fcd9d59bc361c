import BnkForge.Lib.PythonText
import BnkForge.Variables.Rows

/-!
# Dependencies by path

`find_dependency_by_path` (`backend/services/execution/variable_assembler.py:968–1073`). The modules of the
stack are preferred for one and the same rule, but a module of another stack with the exact path comes
before one of the stack that matches by its end or without `infra/`.
-/

namespace BnkForge.Variables

open Python List

section

variable (rows : List ProjectModule) (projectId : Nat) (modulePath : String)

/-- `text.endswith("/" + part)`. -/
def endsWithPart (text part : String) : Bool := ('/' :: part.toList).isSuffixOf text.toList

/-- `path.replace("infra/", "")`. -/
def normalizedPath (path : String) : List Char := replace "infra/".toList [] path.toList

/-- `_suffix_or_normalized_match` of a path of the library. -/
def suffixOrNormalizedMatch (libPath : String) : Bool :=
  endsWithPart libPath modulePath || endsWithPart modulePath libPath ||
    normalizedPath modulePath == normalizedPath libPath

def isExact (m : ProjectModule) : Bool := m.projectId == projectId && m.library.path == some modulePath

/-- The loop over one list of candidates, with the ids seen before: a path that is missing has no
`endswith`. -/
def searchCandidates : List Nat → List ProjectModule → Except Raised (Option ProjectModule × List Nat)
  | seen, [] => .ok (none, seen)
  | seen, m :: ms =>
    if m.id ∈ seen then searchCandidates seen ms
    else
      match m.library.path with
      | none => .error .attributeError
      | some libPath =>
        if suffixOrNormalizedMatch modulePath libPath then .ok (some m, m.id :: seen)
        else searchCandidates (m.id :: seen) ms

def searchModules (stackInstanceId : Option Nat) : Except Raised (Option ProjectModule) :=
  let allModules := rows.filter fun m ↦ m.projectId = projectId
  let sameStack := if stackInstanceId.isSome then
      allModules.filter fun m ↦ m.stackInstanceId = stackInstanceId
    else []
  match searchCandidates modulePath [] sameStack with
  | .error e => .error e
  | .ok (some m, _) => .ok (some m)
  | .ok (none, seen) =>
    match searchCandidates modulePath seen allModules with
    | .error e => .error e
    | .ok (found, _) => .ok found

/-- `find_dependency_by_path` over the rows in the order in which the database gives them. -/
def findDependencyByPath (stackInstanceId : Option Nat) : Except Raised (Option ProjectModule) :=
  let inStack := if stackInstanceId.isSome then
      rows.find? fun m ↦ isExact projectId modulePath m && m.stackInstanceId == stackInstanceId
    else none
  match inStack with
  | some m => .ok (some m)
  | none =>
    match rows.find? (isExact projectId modulePath) with
    | some m => .ok (some m)
    | none => searchModules rows projectId modulePath stackInstanceId

def Matches (m : ProjectModule) : Prop :=
  m.library.path = some modulePath ∨ ∃ libPath, m.library.path = some libPath ∧
    suffixOrNormalizedMatch modulePath libPath = true

def stackRows (s : Nat) : List ProjectModule :=
  (rows.filter fun m ↦ m.projectId = projectId).filter fun m ↦ m.stackInstanceId = some s

def StackFirst (s : Nat) : Prop :=
  (∃ m ∈ stackRows rows projectId s, m.library.path = some modulePath) ∨
    (∀ m ∈ rows, m.projectId = projectId → m.library.path ≠ some modulePath) ∧
    ∀ before m after, stackRows rows projectId s = before ++ m :: after → m.library.path = none →
      ∃ m' ∈ before, Matches modulePath m'

end

section

variable {rows ms : List ProjectModule} {projectId s : Nat} {modulePath : String} {m : ProjectModule}
  {seen : List Nat}

theorem matches_iff : Matches modulePath m ↔
    ∃ libPath, m.library.path = some libPath ∧ suffixOrNormalizedMatch modulePath libPath = true := by
  refine or_iff_right_of_imp fun h ↦ ⟨modulePath, h, ?_⟩
  rw [suffixOrNormalizedMatch, Bool.or_eq_true]
  exact Or.inr (beq_self_eq_true _)

theorem searchCandidates_cases (hids : (ms.map ProjectModule.id).Nodup)
    (hseen : ∀ m ∈ ms, m.id ∉ seen) :
    (searchCandidates modulePath seen ms = .error .attributeError ∧ ∃ before m after,
      ms = before ++ m :: after ∧ m.library.path = none ∧ ∀ m' ∈ before, ¬ Matches modulePath m') ∨
    (∃ m seen', searchCandidates modulePath seen ms = .ok (some m, seen') ∧ ∃ before after,
      ms = before ++ m :: after ∧ Matches modulePath m ∧ ∀ m' ∈ before, m'.library.path ≠ none) ∨
    (∃ seen', searchCandidates modulePath seen ms = .ok (none, seen') ∧
      ∀ m ∈ ms, ¬ Matches modulePath m) := by
  induction ms generalizing seen with
  | nil => exact Or.inr (Or.inr ⟨seen, rfl, nofun⟩)
  | cons m ms ih =>
    obtain ⟨hnot, hids⟩ := nodup_cons.mp hids
    unfold searchCandidates
    rw [if_neg (hseen m mem_cons_self)]
    cases hpath : m.library.path with
    | none => exact Or.inl ⟨rfl, [], m, ms, rfl, hpath, nofun⟩
    | some libPath =>
      dsimp only
      by_cases hmatch : suffixOrNormalizedMatch modulePath libPath = true
      · rw [if_pos hmatch]
        exact Or.inr (Or.inl ⟨m, _, rfl, [], ms, rfl, matches_iff.mpr ⟨libPath, hpath, hmatch⟩, nofun⟩)
      · rw [if_neg hmatch]
        have hno : ¬ Matches modulePath m := fun h ↦ by
          obtain ⟨libPath', hpath', hmatch'⟩ := matches_iff.mp h
          cases hpath.symm.trans hpath'
          exact hmatch hmatch'
        have hrest : ∀ m' ∈ ms, m'.id ∉ m.id :: seen := fun m' hm' hin ↦
          (mem_cons.mp hin).elim (fun heq ↦ hnot (heq ▸ mem_map_of_mem hm'))
            (hseen m' (mem_cons_of_mem m hm'))
        rcases ih hids hrest with ⟨herror, before, m', after, rfl, hnone, hbefore⟩ |
          ⟨m', seen', hok, before, after, rfl, hmatch', hbefore⟩ | ⟨seen', hok, hall⟩
        · exact Or.inl ⟨herror, m :: before, m', after, rfl, hnone,
            forall_mem_cons.mpr ⟨hno, hbefore⟩⟩
        · exact Or.inr (Or.inl ⟨m', seen', hok, m :: before, after, rfl, hmatch',
            forall_mem_cons.mpr ⟨by rw [hpath]; exact nofun, hbefore⟩⟩)
        · exact Or.inr (Or.inr ⟨seen', hok, forall_mem_cons.mpr ⟨hno, hall⟩⟩)

theorem mem_stackRows : m ∈ stackRows rows projectId s ↔
    m ∈ rows ∧ m.projectId = projectId ∧ m.stackInstanceId = some s := by
  rw [stackRows, mem_filter, mem_filter, decide_eq_true_eq, decide_eq_true_eq, and_assoc]

theorem isExact_iff : isExact projectId modulePath m = true ↔
    m.projectId = projectId ∧ m.library.path = some modulePath := by
  rw [isExact, Bool.and_eq_true, beq_iff_eq, beq_iff_eq]

theorem mem_before_of_match {before after before' after' : List ProjectModule} {m' : ProjectModule}
    (heq : before ++ m :: after = before' ++ m' :: after') (hmatch : Matches modulePath m)
    (hbefore : ∀ x ∈ before, x.library.path ≠ none) (hnone : m'.library.path = none) : m ∈ before' := by
  have hne : m ≠ m' := by
    rintro rfl
    obtain ⟨libPath, hpath, -⟩ := matches_iff.mp hmatch
    cases hnone.symm.trans hpath
  rcases append_eq_append_iff.mp heq with ⟨a, rfl, hrest⟩ | ⟨c, rfl, hrest⟩
  · cases a with
    | nil => exact absurd (List.cons.inj hrest).1 hne
    | cons x a =>
      obtain ⟨rfl, -⟩ := List.cons.inj hrest
      exact mem_append_right before mem_cons_self
  · cases c with
    | nil => exact absurd (List.cons.inj hrest).1.symm hne
    | cons x c =>
      obtain ⟨rfl, -⟩ := List.cons.inj hrest
      exact absurd hnone (hbefore m' (mem_append_right before' mem_cons_self))

theorem searchModules_in_stack_iff (hids : (rows.map ProjectModule.id).Nodup)
    (hmatch : ∃ m ∈ stackRows rows projectId s, Matches modulePath m) :
    (∃ m, searchModules rows projectId modulePath (some s) = .ok (some m) ∧
      m.stackInstanceId = some s) ↔
    ∀ before m after, stackRows rows projectId s = before ++ m :: after → m.library.path = none →
      ∃ m' ∈ before, Matches modulePath m' := by
  have hids' : ((stackRows rows projectId s).map ProjectModule.id).Nodup :=
    ((filter_sublist.trans filter_sublist).map _).nodup hids
  unfold searchModules
  dsimp only [Option.isSome_some]
  rw [if_pos rfl]
  rw [show (rows.filter fun m ↦ m.projectId = projectId).filter (fun m ↦ m.stackInstanceId = some s) =
    stackRows rows projectId s from rfl]
  rcases @searchCandidates_cases _ modulePath [] hids' fun m _ ↦ not_mem_nil with
    ⟨herror, before, m, after, heq, hnone, hbefore⟩ |
      ⟨m, seen', hok, before, after, heq, hmatch', hbefore⟩ | ⟨seen', hok, hall⟩
  · rw [herror]
    refine iff_of_false ?_ fun h ↦ ?_
    · rintro ⟨m, h, -⟩
      cases h
    · obtain ⟨m', hm', hmatch'⟩ := h before m after heq hnone
      exact hbefore m' hm' hmatch'
  · rw [hok]
    have hm : m ∈ stackRows rows projectId s := heq ▸ mem_append_right before mem_cons_self
    refine iff_of_true ⟨m, rfl, (mem_stackRows.mp hm).2.2⟩ fun before' m' after' heq' hnone ↦ ?_
    exact ⟨m, mem_before_of_match (heq.symm.trans heq') hmatch' hbefore hnone, hmatch'⟩
  · obtain ⟨m, hm, hmatches⟩ := hmatch
    exact absurd hmatches (hall m hm)

end

/-- Some module of the stack matches the path: the module that is found is one of the stack exactly when
one of the stack has the path itself, or none of the project does. -/
theorem findDependencyByPath_in_stack_iff (rows : List ProjectModule) (projectId s : Nat)
    (modulePath : String) (hids : (rows.map ProjectModule.id).Nodup)
    (hmatch : ∃ m ∈ stackRows rows projectId s, Matches modulePath m) :
    (∃ m, findDependencyByPath rows projectId modulePath (some s) = .ok (some m) ∧
      m.stackInstanceId = some s) ↔ StackFirst rows projectId modulePath s := by
  unfold findDependencyByPath StackFirst
  dsimp only [Option.isSome_some]
  rw [if_pos rfl]
  cases hin : rows.find? fun m ↦ isExact projectId modulePath m && m.stackInstanceId == some s with
  | some m =>
    obtain ⟨hexact, hstack⟩ := Bool.and_eq_true_iff.mp (List.find?_some
      (p := fun m ↦ isExact projectId modulePath m && m.stackInstanceId == some s) hin)
    obtain ⟨hproject, hpath⟩ := isExact_iff.mp hexact
    have hm := mem_stackRows.mpr ⟨List.mem_of_find?_eq_some hin, hproject, beq_iff_eq.mp hstack⟩
    exact iff_of_true ⟨m, rfl, beq_iff_eq.mp hstack⟩ (Or.inl ⟨m, hm, hpath⟩)
  | none =>
    have hnotin : ¬ ∃ m ∈ stackRows rows projectId s, m.library.path = some modulePath := by
      rintro ⟨m, hm, hpath⟩
      obtain ⟨hmem, hproject, hstack⟩ := mem_stackRows.mp hm
      exact List.find?_eq_none.mp hin m hmem
        (Bool.and_eq_true_iff.mpr ⟨isExact_iff.mpr ⟨hproject, hpath⟩, beq_iff_eq.mpr hstack⟩)
    rw [or_iff_right hnotin]
    cases hany : rows.find? (isExact projectId modulePath) with
    | some m =>
      obtain ⟨hproject, hpath⟩ := isExact_iff.mp (List.find?_some hany)
      have hmem := List.mem_of_find?_eq_some hany
      refine iff_of_false ?_ fun h ↦ h.1 m hmem hproject hpath
      rintro ⟨m', hok, hstack⟩
      cases hok
      exact hnotin ⟨m, mem_stackRows.mpr ⟨hmem, hproject, hstack⟩, hpath⟩
    | none =>
      have hno : ∀ m ∈ rows, m.projectId = projectId → m.library.path ≠ some modulePath :=
        fun m hmem hproject hpath ↦
          List.find?_eq_none.mp hany m hmem (isExact_iff.mpr ⟨hproject, hpath⟩)
      rw [and_iff_right hno]
      exact searchModules_in_stack_iff hids hmatch

def libraryModule (id s : Nat) (path : String) : ProjectModule :=
  ⟨id, 1, some s, true, [], Dict.empty, ⟨some path, [], []⟩⟩

/-- A module of the stack whose path ends with the one asked for. -/
theorem findDependencyByPath_in_stack_iff_suffix :
    ∃ m, findDependencyByPath [libraryModule 1 15 "infra/aws/vpc", libraryModule 2 16 "infra/aws/vpc"] 1
      "aws/vpc" (some 16) = .ok (some m) ∧ m.stackInstanceId = some 16 := by
  refine (findDependencyByPath_in_stack_iff
    [libraryModule 1 15 "infra/aws/vpc", libraryModule 2 16 "infra/aws/vpc"] 1 16 "aws/vpc" (by decide)
    ⟨libraryModule 2 16 "infra/aws/vpc", List.mem_cons_self, Or.inr ⟨_, rfl, by decide⟩⟩).mpr ?_
  refine Or.inr ⟨by decide, fun before m after heq hnone ↦ ?_⟩
  have hm : m ∈ [libraryModule 2 16 "infra/aws/vpc"] := by
    have hmem : m ∈ before ++ m :: after := List.mem_append_right before List.mem_cons_self
    rwa [← heq] at hmem
  cases List.mem_singleton.mp hm
  cases hnone

/-- The exact path in another stack comes before its end in the stack itself. -/
theorem exact_path_of_other_stack_found :
    ¬ ∀ (rows : List ProjectModule) (projectId s : Nat) (modulePath : String),
      (rows.map ProjectModule.id).Nodup → (∀ m ∈ rows, m.library.path ≠ none) →
      (∃ m ∈ stackRows rows projectId s, Matches modulePath m) →
      ∃ m, findDependencyByPath rows projectId modulePath (some s) = .ok (some m) ∧
        m.stackInstanceId = some s := by
  intro h
  obtain ⟨m, hok, hstack⟩ := h [libraryModule 1 15 "aws/vpc", libraryModule 2 16 "infra/aws/vpc"] 1 16
    "aws/vpc" (by decide) (by decide)
    ⟨libraryModule 2 16 "infra/aws/vpc", List.mem_cons_self, Or.inr ⟨_, rfl, by decide⟩⟩
  have hfound : findDependencyByPath [libraryModule 1 15 "aws/vpc", libraryModule 2 16 "infra/aws/vpc"] 1
      "aws/vpc" (some 16) = .ok (some (libraryModule 1 15 "aws/vpc")) := rfl
  cases hfound.symm.trans hok
  cases hstack

end BnkForge.Variables
