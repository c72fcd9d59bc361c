import BnkForge.Container.Accepted
import BnkForge.Container.Engine
import BnkForge.Lib.PythonPath

/-!
# Paths that stay in the workspace

The two checks of a path that an artifact may name, `validate_workspace_relative_path`
(`backend/services/module_metadata.py:91–110`) and `_is_workspace_relative`
(`backend/services/execution/container_engine.py:650–664`): joined to any absolute root, a path that either of
them accepts leads to a place within the root. The paths are resolved as texts; links are not followed.
-/

namespace BnkForge.Container

open Python ExceptResult

/-- The path begins with the character. -/
def StartsWith (c : Char) (path : List Char) : Prop := [c] <+: path

section

variable {path : List Char}

theorem isPrefixOf_eq_false_iff {c : Char} : [c].isPrefixOf path = false ↔ ¬ StartsWith c path := by
  rw [← Bool.not_eq_true, List.isPrefixOf_iff_prefix, StartsWith]

theorem escapes_iff (h : ¬ StartsWith '/' path) :
    (normpath path == ['.', '.'] || ['.', '.', '/'].isPrefixOf (normpath path)) = true ↔
      (normParts false (path.splitOn '/')).head? = some upward := by
  rw [Bool.or_eq_true, beq_iff_eq, List.isPrefixOf_iff_prefix]
  exact climbs_iff h

/-- `_is_workspace_relative` by its cases. -/
theorem isWorkspaceRelative_iff : isWorkspaceRelative path = true ↔
    path ≠ [] ∧ ¬ StartsWith '/' path ∧ ¬ StartsWith '\\' path ∧
      (normParts false (path.splitOn '/')).head? ≠ some upward := by
  by_cases hslash : StartsWith '/' path
  · simp [isWorkspaceRelative, hslash, List.isPrefixOf_iff_prefix.mpr hslash]
  · have hnot := isPrefixOf_eq_false_iff.mpr hslash
    have hescapes := not_congr (escapes_iff hslash)
    rw [Bool.not_eq_true] at hescapes
    rw [isWorkspaceRelative, Bool.and_eq_true, Bool.not_eq_true', Bool.not_eq_true', hescapes, hnot,
      Bool.or_false, Bool.or_eq_false_iff, isPrefixOf_eq_false_iff, List.isEmpty_eq_false_iff]
    tauto

/-- `validate_workspace_relative_path` by its cases. -/
theorem validateRelativePath_eq_ok {value field : String} {accepted : List Char} :
    validateRelativePath value field = .ok accepted ↔
      strip value.toList ≠ [] ∧ ¬ StartsWith '/' (strip value.toList) ∧ ¬ StartsWith '~' (strip value.toList) ∧
        Char.ofNat 0 ∉ strip value.toList ∧
        (normParts false ((strip value.toList).splitOn '/')).head? ≠ some upward ∧
        normpath (strip value.toList) = accepted := by
  unfold validateRelativePath
  dsimp only
  generalize strip value.toList = candidate
  simp only [bind_eq_ok, require_eq_ok, exists_const, Bool.not_eq_true', List.isEmpty_eq_false_iff,
    Bool.or_eq_false_iff (x := ['/'].isPrefixOf candidate), isPrefixOf_eq_false_iff, Except.ok.injEq]
  have hescapes : ¬ StartsWith '/' candidate →
      ((normpath candidate == ['.', '.'] || ['.', '.', '/'].isPrefixOf (normpath candidate) ||
          ['/'].isPrefixOf (normpath candidate)) = false ↔
        (normParts false (candidate.splitOn '/')).head? ≠ some upward) := by
    intro hslash
    rw [Bool.or_eq_false_iff, ← Bool.not_eq_true, escapes_iff hslash]
    exact and_iff_left_of_imp fun hclimb ↦ isPrefixOf_eq_false_iff.mpr (normParts_normpath hslash hclimb).1
  have hnull : candidate.contains (Char.ofNat 0) = false ↔ Char.ofNat 0 ∉ candidate := by
    rw [← Bool.not_eq_true, List.contains_iff_mem]
  rw [hnull]
  constructor
  · rintro ⟨hne, ⟨hslash, htilde⟩, hchars, hup, haccepted⟩
    exact ⟨hne, hslash, htilde, hchars, (hescapes hslash).mp hup, haccepted⟩
  · rintro ⟨hne, hslash, htilde, hchars, hup, haccepted⟩
    exact ⟨hne, ⟨hslash, htilde⟩, hchars, (hescapes hslash).mpr hup, haccepted⟩

theorem head?_normParts_of_notMem (h : upward ∉ path.splitOn '/') :
    (normParts false (path.splitOn '/')).head? ≠ some upward :=
  fun hup ↦ h (mem_normParts (List.mem_of_head? hup)).1

theorem not_startsWith_of_strip (h : ¬ StartsWith '/' (strip path)) : ¬ StartsWith '/' path := by
  rintro ⟨rest, rfl⟩
  refine h ?_
  rw [List.singleton_append, strip_cons rfl]
  exact List.prefix_append ['/'] _

end

/-- Joined to an absolute root, a path that either check accepts leads to a place within the root. What is
accepted is every relative path none of whose parts climbs, but for the first characters that the checks
refuse on purpose and, in one of them, the null character. -/
theorem relative_paths_contained (root : List Char) (hroot : StartsWith '/' root) :
    (∀ value field accepted, validateRelativePath value field = .ok accepted →
        Within (normpath root) (normpath (pathJoin root accepted)) ∧
          Within (normpath root) (normpath (pathJoin root value.toList))) ∧
      (∀ path, isWorkspaceRelative path = true → Within (normpath root) (normpath (pathJoin root path))) ∧
      (∀ value field, strip value.toList ≠ [] → ¬ StartsWith '/' (strip value.toList) →
        upward ∉ (strip value.toList).splitOn '/' →
          ((∃ accepted, validateRelativePath value field = .ok accepted) ↔
            ¬ StartsWith '~' (strip value.toList) ∧ Char.ofNat 0 ∉ strip value.toList)) ∧
      ∀ path, path ≠ [] → ¬ StartsWith '/' path → upward ∉ path.splitOn '/' →
        (isWorkspaceRelative path = true ↔ ¬ StartsWith '\\' path) := by
  refine ⟨fun value field accepted h ↦ ?_, fun path h ↦ ?_, fun value field hne hslash hup ↦ ?_,
    fun path hne hslash hup ↦ ?_⟩
  · obtain ⟨-, hslash, -, -, hclimb, rfl⟩ := validateRelativePath_eq_ok.mp h
    obtain ⟨hslash', hparts⟩ := normParts_normpath hslash hclimb
    rw [← hparts] at hclimb
    refine ⟨within_normpath_pathJoin hroot hslash' hclimb,
      within_normpath_pathJoin hroot (not_startsWith_of_strip hslash) (head?_normParts_of_strip ?_)⟩
    rwa [← hparts]
  · obtain ⟨-, hslash, -, hclimb⟩ := isWorkspaceRelative_iff.mp h
    exact within_normpath_pathJoin hroot hslash hclimb
  · constructor
    · rintro ⟨accepted, h⟩
      obtain ⟨-, -, htilde, hnull, -⟩ := validateRelativePath_eq_ok.mp h
      exact ⟨htilde, hnull⟩
    · rintro ⟨htilde, hnull⟩
      exact ⟨_, validateRelativePath_eq_ok.mpr
        ⟨hne, hslash, htilde, hnull, head?_normParts_of_notMem hup, rfl⟩⟩
  · rw [isWorkspaceRelative_iff]
    exact ⟨fun h ↦ h.2.2.1, fun h ↦ ⟨hne, hslash, h, head?_normParts_of_notMem hup⟩⟩

/-- A path below a workspace stays in it. -/
theorem relative_path_contained_in_work : Within "/work".toList "/work/b".toList := by
  have hroot : StartsWith '/' "/work".toList := ⟨"work".toList, rfl⟩
  exact (relative_paths_contained _ hroot).2.1 "a/../b".toList (by decide +kernel)

/-- Each check refuses a path of one part for its first character. -/
theorem single_parts_refused :
    "~a".toList.splitOn '/' = ["~a".toList] ∧
      (validateRelativePath "~a" "path").toOption = none ∧
      "\\a".toList.splitOn '/' = ["\\a".toList] ∧ isWorkspaceRelative "\\a".toList = false := by
  decide +kernel

end BnkForge.Container
