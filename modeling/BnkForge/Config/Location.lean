import BnkForge.Config.Projects
import BnkForge.Lib.Path

/-!
# Where the state of a module is

The bucket and the key that `write_backend_config` writes for an operation: whether they are those of
the last apply of the module, and whether two modules have the same key.
-/

namespace BnkForge.Config

open Python Secrets Transition List

/-! ### Keys -/

/-- The key of an S3 backend. -/
def Backend.key (b : Backend) : Option Text := b.location.map Prod.snd

def Overlaps (name path name' path' : Text) : Prop :=
  (name = name' ∧ path = path') ∨
  (∃ mid, name = name' ++ '/' :: mid ∧ path' = mid ++ '/' :: path) ∨
  ∃ mid, name' = name ++ '/' :: mid ∧ path = mid ++ '/' :: path'

section

variable {p q : Project} {m n : ProjectModule} {region region' : Option Text}

def stateLocation (bk : BackendConfig) (name path : Text) : Text × Text :=
  (textOr bk.s3StateBucket (name ++ "-terraform-state".toList),
    textOr bk.s3StateKeyPrefix [] ++ name ++ '/' :: (path ++ "/terraform.tfstate".toList))

theorem location_writeBackendConfig : (writeBackendConfig p m region).location =
    if p.usesS3 then some (stateLocation p.backend p.name m.pathInProject) else none := by
  unfold writeBackendConfig
  split
  · rfl
  · rfl

theorem key_writeBackendConfig (hs3 : p.usesS3 = true) :
    (writeBackendConfig p m region).key = some (stateKey p m) := by
  rw [Backend.key, location_writeBackendConfig, if_pos hs3]
  rfl

theorem stateKey_eq_iff : stateKey p m = stateKey q n ↔
    Overlaps (prefixedName p) m.pathInProject (prefixedName q) n.pathInProject := by
  have hpath : ∀ path mid rest : Text, path ++ "/terraform.tfstate".toList =
      mid ++ '/' :: (rest ++ "/terraform.tfstate".toList) ↔ path = mid ++ '/' :: rest := by
    intro path mid rest
    rw [← cons_append, ← append_assoc, append_left_inj]
  rw [stateKey, stateKey, Path.append_cons_eq_append_cons_iff, Overlaps, append_left_inj]
  simp only [hpath]

end

/-- The S3 keys of two modules differ if and only if the modules are of one project, or the prefixed
names of their projects do not overlap with the paths below them. -/
theorem state_keys_differ_iff (db : Database) {p q : Project} {m n : ProjectModule}
    (region region' : Option Text) (hp : p ∈ db.projects) (hq : q ∈ db.projects)
    (hm : m ∈ db.modules) (hn : n ∈ db.modules) (hpm : m.projectId = p.id) (hqn : n.projectId = q.id)
    (hps : p.usesS3 = true) (hqs : q.usesS3 = true) (hne : m ≠ n) :
    (writeBackendConfig p m region).key ≠ (writeBackendConfig q n region').key ↔
      p.id = q.id ∨
        ¬ Overlaps (prefixedName p) m.pathInProject (prefixedName q) n.pathInProject := by
  rw [key_writeBackendConfig hps, key_writeBackendConfig hqs, Ne, Option.some_inj, stateKey_eq_iff]
  refine (or_iff_right_of_imp fun hid hoverlap ↦ ?_).symm
  have hpq : p = q := List.inj_on_of_nodup_map db.projectIds hp hq hid
  subst hpq
  rcases hoverlap with ⟨-, hpath⟩ | ⟨mid, hname, -⟩ | ⟨mid, hname, -⟩
  · exact hne (List.inj_on_of_nodup_map db.paths hm hn
      (Prod.ext (hpm.trans hqn.symm) hpath))
  · exact absurd (List.self_eq_append_right.mp hname) (List.cons_ne_nil _ _)
  · exact absurd (List.self_eq_append_right.mp hname) (List.cons_ne_nil _ _)

theorem state_keys_differ_of_names (db : Database) {p q : Project} {m n : ProjectModule}
    (hp : p ∈ db.projects) (hq : q ∈ db.projects) (hne : p ≠ q)
    (hprefixes : textOr p.backend.s3StateKeyPrefix [] = textOr q.backend.s3StateKeyPrefix [])
    (hpname : '/' ∉ p.name) (hqname : '/' ∉ q.name) : stateKey p m ≠ stateKey q n := by
  intro hkeys
  rw [stateKey_eq_iff, prefixedName, prefixedName, hprefixes] at hkeys
  rcases hkeys with ⟨hname, -⟩ | ⟨mid, hname, -⟩ | ⟨mid, hname, -⟩
  · exact hne (inj_on_of_nodup_map db.projectNames hp hq (append_cancel_left hname))
  · rw [append_assoc] at hname
    refine hpname ?_
    rw [append_cancel_left hname]
    exact mem_append_right _ mem_cons_self
  · rw [append_assoc] at hname
    refine hqname ?_
    rw [append_cancel_left hname]
    exact mem_append_right _ mem_cons_self

/-- A project with its state in the bucket `shared`. -/
def sharing (id : Nat) (name : String) : Project where
  id := id
  name := name.toList
  backendType := some "s3".toList
  backendConfig := some { s3StateBucket := some "shared".toList }

/-- The projects `team` and `team/a`, with a module each. -/
def sharingBucket (path path' : String) : Database where
  projects := [sharing 1 "team", sharing 2 "team/a"]
  modules := [⟨1, 1, path.toList⟩, ⟨2, 2, path'.toList⟩]
  projectIds := by decide
  projectNames := by decide +kernel
  moduleIds := (by decide : [1, 2].Nodup)
  paths := List.Nodup.of_map Prod.fst (by decide : [1, 2].Nodup)

theorem sharingBucket_keys_differ :
    (writeBackendConfig (sharing 1 "team") ⟨1, 1, "a/b".toList⟩ none).key ≠
        (writeBackendConfig (sharing 2 "team/a") ⟨2, 2, "c".toList⟩ none).key ∧
      ((1 : Nat) = 2 ∨ ¬ Overlaps "team".toList "a/b".toList "team/a".toList "c".toList) := by
  have hkeys : (writeBackendConfig (sharing 1 "team") ⟨1, 1, "a/b".toList⟩ none).key ≠
      (writeBackendConfig (sharing 2 "team/a") ⟨2, 2, "c".toList⟩ none).key := by decide +kernel
  exact ⟨hkeys, (state_keys_differ_iff (sharingBucket "a/b" "c") none none List.mem_cons_self
    (List.mem_cons_of_mem _ List.mem_cons_self) List.mem_cons_self
    (List.mem_cons_of_mem _ List.mem_cons_self) rfl rfl (by decide +kernel) (by decide +kernel)
    (by decide +kernel)).mp hkeys⟩

/-- The module `a/b` of `team` and the module `b` of `team/a` have one key in one bucket. -/
theorem sharingBucket_keys_collide :
    (writeBackendConfig (sharing 1 "team") ⟨1, 1, "a/b".toList⟩ none).location =
        (writeBackendConfig (sharing 2 "team/a") ⟨2, 2, "b".toList⟩ none).location ∧
    ¬ ∀ (db : Database) (p q : Project) (m n : ProjectModule), p ∈ db.projects → q ∈ db.projects →
      m ∈ db.modules → n ∈ db.modules → m.projectId = p.id → n.projectId = q.id →
      p.usesS3 = true → q.usesS3 = true → m ≠ n →
        (writeBackendConfig p m none).key ≠ (writeBackendConfig q n none).key := by
  refine ⟨by decide +kernel, fun h ↦ ?_⟩
  exact h (sharingBucket "a/b" "b") _ _ ⟨1, 1, "a/b".toList⟩ ⟨2, 2, "b".toList⟩ List.mem_cons_self
    (List.mem_cons_of_mem _ List.mem_cons_self) List.mem_cons_self
    (List.mem_cons_of_mem _ List.mem_cons_self) rfl rfl (by decide +kernel) (by decide +kernel)
    (by decide +kernel) (by decide +kernel)

end BnkForge.Config
