import BnkForge.Config.Location
import BnkForge.Lib.Assoc

/-!
# Operations between renames

The location of the state is written anew for every operation, from the project as it is by then. What
a module is applied under stays where it was.
-/

namespace BnkForge.Config

open Python Secrets Transition

/-! ### The system -/

inductive Operation
  | apply
  | plan
  | destroy
  deriving DecidableEq, Repr

/-- The last apply of a module: where its state was written, and the name that the project had, which
the program does not keep. -/
structure Applied where
  location : Text × Text
  projectName : Text

/-- The tables, and the last apply of each module with its state in S3. -/
structure StateSystem where
  db : Database
  applied : Nat → Option Applied

inductive StateEvent
  /-- `update_project` with a name, which may be refused. -/
  | rename (nonce : Nat) (projectId : Nat) (name : Text)
  | operate (op : Operation) (moduleId : Nat) (defaultRegion : Option Text)

def Database.moduleOf (db : Database) (moduleId : Nat) : Option (Project × ProjectModule) :=
  (db.modules.find? fun m ↦ m.id == moduleId).bind fun m ↦
    (db.projects.find? fun p ↦ p.id == m.projectId).map fun p ↦ (p, m)

def stateStep (cipher : Cipher) (s : StateSystem) : StateEvent → Option StateSystem
  | .rename nonce projectId name =>
    match updateProject cipher nonce s.db projectId { name := some name } with
    | .ok db => some { s with db := db }
    | .error _ => some s
  | .operate op moduleId defaultRegion =>
    (s.db.moduleOf moduleId).map fun (p, m) ↦
      match op, (writeBackendConfig p m defaultRegion).location with
      | .apply, some location =>
        { s with applied := Function.update s.applied moduleId (some ⟨location, p.name⟩) }
      | _, _ => s

def FindsState (s : StateSystem) (e : StateEvent) (_ : StateSystem) : Prop :=
  match e with
  | .rename .. => True
  | .operate _ moduleId defaultRegion => ∀ pm ∈ s.db.moduleOf moduleId,
    ∀ last ∈ s.applied moduleId,
      (writeBackendConfig pm.1 pm.2 defaultRegion).location = some last.location

def NamedAsApplied (s : StateSystem) : StateEvent → Prop
  | .rename .. => True
  | .operate _ moduleId _ => ∀ pm ∈ s.db.moduleOf moduleId, ∀ last ∈ s.applied moduleId,
    pm.1.name = last.projectName

/-- No module has been applied. -/
def StateSystem.start (db : Database) : StateSystem := ⟨db, fun _ ↦ none⟩

/-! ### What a rename changes -/

section

variable {cipher : Cipher} {nonce : Nat} {db : Database} {p : Project} {m : ProjectModule}

theorem applyUpdate_name_only {name : Text} :
    (applyUpdate cipher nonce p { name := some name }).backend = p.backend ∧
      (applyUpdate cipher nonce p { name := some name }).usesS3 = p.usesS3 := by
  obtain ⟨-, -, htype, -, hcolumns, hconfig⟩ :=
    freezeEncryptionPassphrase_frame cipher nonce p
  unfold applyUpdate Project.backend Project.usesS3
  simp only [Option.none_or]
  split
  · exact ⟨rfl, rfl⟩
  · dsimp only
    split
    · exact ⟨rfl, rfl⟩
    · rw [hconfig, hcolumns, htype]
      exact ⟨rfl, rfl⟩

theorem moduleOf_setProject {q : Project}
    (hname : ∀ other ∈ db.projects, other.id ≠ q.id → other.name ≠ q.name) {moduleId : Nat} :
    (db.setProject q hname).moduleOf moduleId =
      (db.moduleOf moduleId).map fun pm ↦ (if pm.1.id = q.id then q else pm.1, pm.2) := by
  have hfind : ∀ k, (db.setProject q hname).projects.find? (fun p ↦ p.id == k) =
      (db.projects.find? fun p ↦ p.id == k).map fun p ↦ if p.id = q.id then q else p := by
    intro k
    refine Assoc.find?_map_of_eq (fun p ↦ ?_) _
    split
    · next hid => rw [hid]
    · rfl
  unfold Database.moduleOf
  rw [Option.map_bind]
  refine congrArg _ (funext fun m ↦ ?_)
  rw [hfind, Function.comp_apply, Option.map_map, Option.map_map]
  rfl

theorem moduleOf_mem {moduleId : Nat} {pm : Project × ProjectModule}
    (h : db.moduleOf moduleId = some pm) : pm.1 ∈ db.projects := by
  obtain ⟨m, -, hproject⟩ := Option.bind_eq_some_iff.mp h
  obtain ⟨p, hp, rfl⟩ := Option.map_eq_some_iff.mp hproject
  exact List.mem_of_find?_eq_some hp

theorem updateProject_eq_ok {db' : Database} {projectId : Nat} {data : ProjectUpdate}
    (hok : updateProject cipher nonce db projectId data = .ok db') :
    ∃ p ∈ db.projects, ∃ hname,
      db' = db.setProject (applyUpdate cipher nonce p data) hname := by
  unfold updateProject at hok
  split at hok
  · cases hok
  · next q hq =>
    obtain ⟨⟨p, hp, hid, rfl⟩, hnames⟩ := updatedProject_eq_ok hq
    cases hok
    exact ⟨p, hp, _, rfl⟩

theorem stateLocation_inj {bk : BackendConfig} {name name' path : Text} :
    stateLocation bk name path = stateLocation bk name' path ↔ name = name' := by
  constructor
  · intro h
    have hkey := congrArg Prod.snd h
    simp only [stateLocation] at hkey
    exact List.append_cancel_left (List.append_cancel_right hkey)
  · rintro rfl
    rfl

end

/-! ### What the runs keep -/

def AppliedAt (s : StateSystem) : Prop :=
  ∀ moduleId last, s.applied moduleId = some last → ∀ pm, s.db.moduleOf moduleId = some pm →
    pm.1.usesS3 = true ∧
      last.location = stateLocation pm.1.backend last.projectName pm.2.pathInProject

section

variable {cipher : Cipher} {s t : StateSystem}

theorem appliedAt_rename (h : AppliedAt s) {nonce projectId : Nat} {name : Text} {db : Database}
    (hok : updateProject cipher nonce s.db projectId { name := some name } = .ok db) :
    AppliedAt { s with db := db } := by
  obtain ⟨p, hp, hname, rfl⟩ := updateProject_eq_ok hok
  intro moduleId last hlast pm hpm
  rw [moduleOf_setProject] at hpm
  obtain ⟨before, hbefore, rfl⟩ := Option.map_eq_some_iff.mp hpm
  have hstate := h moduleId last hlast before hbefore
  split
  · next hid =>
    rw [applyUpdate_id] at hid
    rw [List.inj_on_of_nodup_map s.db.projectIds (moduleOf_mem hbefore) hp hid] at hstate
    rw [applyUpdate_name_only.1, applyUpdate_name_only.2]
    exact hstate
  · exact hstate

theorem appliedAt_apply (h : AppliedAt s) {moduleId : Nat} {defaultRegion : Option Text}
    {pm : Project × ProjectModule} (hpm : s.db.moduleOf moduleId = some pm) {location : Text × Text}
    (hlocation : (writeBackendConfig pm.1 pm.2 defaultRegion).location = some location) :
    AppliedAt { s with
      applied := Function.update s.applied moduleId (some ⟨location, pm.1.name⟩) } := by
  intro moduleId' last hlast found hfound
  rcases eq_or_ne moduleId' moduleId with rfl | hne
  · simp only [Function.update_self, Option.some.injEq] at hlast
    cases hpm.symm.trans hfound
    rw [location_writeBackendConfig] at hlocation
    split at hlocation
    · next hs3 =>
      cases hlocation
      cases hlast
      exact ⟨hs3, rfl⟩
    · cases hlocation
  · simp only [Function.update_of_ne hne] at hlast
    exact h moduleId' last hlast found hfound

theorem appliedAt_step (h : AppliedAt s) {e : StateEvent} (hst : stateStep cipher s e = some t) :
    AppliedAt t := by
  cases e with
  | rename nonce projectId name =>
    simp only [stateStep] at hst
    split at hst
    · next hok =>
      cases hst
      exact appliedAt_rename h hok
    · cases hst
      exact h
  | operate op moduleId defaultRegion =>
    obtain ⟨⟨p, m⟩, hpm, rfl⟩ := Option.map_eq_some_iff.mp hst
    dsimp only
    split
    · next hlocation => exact appliedAt_apply h hpm hlocation
    · exact h

theorem findsState_iff (h : AppliedAt s) {e : StateEvent} : FindsState s e t ↔ NamedAsApplied s e := by
  cases e with
  | rename nonce projectId name => exact Iff.rfl
  | operate op moduleId defaultRegion =>
    refine forall₄_congr fun pm hpm last hlast ↦ ?_
    obtain ⟨hs3, hlocation⟩ := h moduleId last hlast pm hpm
    rw [location_writeBackendConfig, if_pos hs3, hlocation, Option.some_inj, stateLocation_inj]

end

/-- Every operation of a history of renames finds the state of the last apply of its module if and only
if its project has the name by then that it had at that apply. -/
theorem state_found_iff (cipher : Cipher) (db : Database) {es : List StateEvent} {s : StateSystem}
    (h : Run (stateStep cipher) Free (.start db) es s) :
    AllSteps (stateStep cipher) FindsState (.start db) es ↔
      Run (stateStep cipher) NamedAsApplied (.start db) es s :=
  h.allSteps_iff (I := AppliedAt) nofun (fun _ _ _ hs hst ↦ appliedAt_step hs hst)
    fun _ _ _ hs _ ↦ findsState_iff hs

instance (s : StateSystem) (e : StateEvent) : Decidable (NamedAsApplied s e) :=
  match e with
  | .rename .. => isTrue trivial
  | .operate _ moduleId _ => inferInstanceAs (Decidable (∀ pm ∈ s.db.moduleOf moduleId,
      ∀ last ∈ s.applied moduleId, pm.1.name = last.projectName))

/-- The project `team` is renamed and named back between an apply and a destroy; another project does not
get its name of between. -/
def namedBack : List StateEvent :=
  [.operate .apply 1 none, .rename 0 1 "crew".toList, .rename 0 2 "crew".toList,
    .rename 0 1 "team".toList, .operate .destroy 1 none]

theorem namedBack_found :
    ∃ s, Run (stateStep markingCipher) Free (.start (sharingBucket "a/b" "c")) namedBack s ∧
      AllSteps (stateStep markingCipher) FindsState (.start (sharingBucket "a/b" "c")) namedBack := by
  obtain ⟨s, hrun, -⟩ : ∃ s, Run (stateStep markingCipher) NamedAsApplied
      (.start (sharingBucket "a/b" "c")) namedBack s ∧ True := Run.exists_of_exec (by decide +kernel)
  exact ⟨s, hrun.free, (state_found_iff markingCipher _ hrun.free).mpr hrun⟩

def renamedAfterApply : List StateEvent :=
  [.operate .apply 1 none, .rename 0 1 "crew".toList]

theorem renamed_not_found :
    (∃ s, Run (stateStep markingCipher) Free (.start (sharingBucket "a/b" "c")) renamedAfterApply s ∧
      ∃ pm ∈ s.db.moduleOf 1, ∃ last ∈ s.applied 1,
        (writeBackendConfig pm.1 pm.2 none).location ≠ some last.location) ∧
    ¬ ∀ cipher db es s, Run (stateStep cipher) Free (.start db) es s →
      AllSteps (stateStep cipher) FindsState (.start db) es := by
  obtain ⟨s, hrun, pm, hpm, last, hlast, hmoved⟩ : ∃ s, Run (stateStep markingCipher) Free
      (.start (sharingBucket "a/b" "c")) renamedAfterApply s ∧
      ∃ pm ∈ s.db.moduleOf 1, ∃ last ∈ s.applied 1,
        (writeBackendConfig pm.1 pm.2 none).location ≠ some last.location :=
    Run.exists_of_exec (by decide +kernel)
  refine ⟨⟨s, hrun, pm, hpm, last, hlast, hmoved⟩, fun h ↦ hmoved ?_⟩
  obtain ⟨t, hst⟩ : ∃ t, stateStep markingCipher s (.operate .destroy 1 none) = some t := by
    rw [stateStep, Option.mem_def.mp hpm]
    exact ⟨_, rfl⟩
  exact hrun.allSteps_last (h _ _ _ t (hrun.append (.single trivial hst))) hst pm hpm last hlast

end BnkForge.Config
