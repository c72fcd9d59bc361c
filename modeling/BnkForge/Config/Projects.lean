import BnkForge.Config.Writer
import Mathlib.Data.List.Nodup

/-!
# Updates of projects

`update_project` with `_apply_state_config` and `_freeze_encryption_passphrase_before_rename`
(`backend/services/project_service.py:50–85`, `:242–258`, `:588–699`), as far as they change what the
state configuration is written from.
-/

namespace BnkForge.Config

open Secrets

structure Database where
  projects : List Project
  modules : List ProjectModule
  projectIds : (projects.map Project.id).Nodup
  projectNames : (projects.map Project.name).Nodup
  moduleIds : (modules.map ProjectModule.id).Nodup
  paths : (modules.map fun m ↦ (m.projectId, m.pathInProject)).Nodup

/-- `_freeze_encryption_passphrase_before_rename`. -/
def freezeEncryptionPassphrase (cipher : Cipher) (nonce : Nat) (p : Project) : Project :=
  let enc := p.encryption
  if !enc.stateEncryptionEnabled then p
  else if textOr enc.encryptionProvider "pbkdf2".toList ≠ "pbkdf2".toList then p
  else if isSet enc.encryptionPassphraseEncrypted then p
  else p.setEncryption { enc with
    encryptionPassphraseEncrypted := encryptValue cipher nonce (derivedPassphrase p) }

/-- The fields of `ProjectUpdate` that the configuration depends on. -/
structure ProjectUpdate where
  name : Option Text := none
  cloudProvider : Option Text := none
  backendType : Option Text := none
  region : Option Text := none
  stateConfig : Option BackendConfig := none

def applyUpdate (cipher : Cipher) (nonce : Nat) (p : Project) (data : ProjectUpdate) : Project :=
  let named :=
    match data.name.filter (· ≠ []) with
    | none => p
    | some name =>
      let frozen := if name = p.name then p else freezeEncryptionPassphrase cipher nonce p
      { frozen with name := name }
  { named with
    cloudProvider := data.cloudProvider.or named.cloudProvider
    backendType := data.backendType.or named.backendType
    region := data.region.or named.region
    backendConfig := data.stateConfig.or named.backendConfig }

inductive UpdateError
  | notFound
  /-- `A project with this name already exists. Please choose a different name.` -/
  | conflict
  deriving DecidableEq, Repr

def nameTaken (projects : List Project) (p : Project) (data : ProjectUpdate) : Bool :=
  match data.name.filter (· ≠ []) with
  | none => false
  | some name => name ≠ p.name && projects.any fun q ↦ q.name == name && q.id != p.id

/-- `update_project`: the row that is written. -/
def updatedProject (cipher : Cipher) (nonce : Nat) (projects : List Project) (projectId : Nat)
    (data : ProjectUpdate) : Except UpdateError Project :=
  match projects.find? fun p ↦ p.id == projectId with
  | none => .error .notFound
  | some p =>
    if nameTaken projects p data then .error .conflict else .ok (applyUpdate cipher nonce p data)

/-! ### The table after an update -/

section

variable {cipher : Cipher} {nonce : Nat} {db : Database} {p q : Project} {data : ProjectUpdate}

theorem setEncryption_eq (p : Project) (enc : EncryptionConfig) : (p.setEncryption enc).id = p.id ∧
    (p.setEncryption enc).name = p.name ∧ (p.setEncryption enc).cloudProvider = p.cloudProvider ∧
    (p.setEncryption enc).backendType = p.backendType ∧ (p.setEncryption enc).region = p.region ∧
    (p.setEncryption enc).backendColumns = p.backendColumns ∧
    (p.setEncryption enc).backendConfig = p.backendConfig := by
  unfold Project.setEncryption
  split <;> exact ⟨rfl, rfl, rfl, rfl, rfl, rfl, rfl⟩

theorem freezeEncryptionPassphrase_eq : freezeEncryptionPassphrase cipher nonce p = p ∨
    ∃ enc, freezeEncryptionPassphrase cipher nonce p = p.setEncryption enc := by
  unfold freezeEncryptionPassphrase
  dsimp only
  split
  · exact Or.inl rfl
  · split
    · exact Or.inl rfl
    · split
      · exact Or.inl rfl
      · exact Or.inr ⟨_, rfl⟩

theorem freezeEncryptionPassphrase_frame (cipher : Cipher) (nonce : Nat) (p : Project) :
    (freezeEncryptionPassphrase cipher nonce p).id = p.id ∧
      (freezeEncryptionPassphrase cipher nonce p).cloudProvider = p.cloudProvider ∧
      (freezeEncryptionPassphrase cipher nonce p).backendType = p.backendType ∧
      (freezeEncryptionPassphrase cipher nonce p).region = p.region ∧
      (freezeEncryptionPassphrase cipher nonce p).backendColumns = p.backendColumns ∧
      (freezeEncryptionPassphrase cipher nonce p).backendConfig = p.backendConfig := by
  rcases freezeEncryptionPassphrase_eq with h | ⟨enc, h⟩
  · rw [h]
    exact ⟨rfl, rfl, rfl, rfl, rfl, rfl⟩
  · rw [h]
    obtain ⟨hid, -, hrest⟩ := setEncryption_eq p enc
    exact ⟨hid, hrest⟩

@[simp] theorem applyUpdate_id : (applyUpdate cipher nonce p data).id = p.id := by
  unfold applyUpdate
  dsimp only
  split
  · rfl
  · split
    · rfl
    · exact (freezeEncryptionPassphrase_frame cipher nonce p).1

theorem applyUpdate_name : (applyUpdate cipher nonce p data).name = textOr data.name p.name := by
  unfold applyUpdate textOr
  dsimp only
  split
  · next hname => rw [hname, Option.getD_none]
  · next name hname => rw [hname, Option.getD_some]

theorem updatedProject_eq_ok {projectId : Nat}
    (hok : updatedProject cipher nonce db.projects projectId data = .ok q) :
    (∃ p ∈ db.projects, p.id = projectId ∧ q = applyUpdate cipher nonce p data) ∧
      ∀ other ∈ db.projects, other.id ≠ projectId → other.name ≠ q.name := by
  unfold updatedProject at hok
  split at hok
  · cases hok
  · next p hfound =>
    have hmem := List.mem_of_find?_eq_some hfound
    have hkey := List.find?_some hfound
    have hid : p.id = projectId := beq_iff_eq.mp hkey
    split at hok
    · cases hok
    · next hfree =>
      cases hok
      refine ⟨⟨p, hmem, hid, rfl⟩, fun other hother hne hname ↦ ?_⟩
      have hkept : other.name ≠ p.name := fun hsame ↦
        hne ((List.inj_on_of_nodup_map db.projectNames hother hmem hsame) ▸ hid)
      rw [applyUpdate_name, textOr] at hname
      rw [nameTaken] at hfree
      split at hfree
      · next hnone =>
        rw [hnone, Option.getD_none] at hname
        exact hkept hname
      · next name hsome =>
        rw [hsome, Option.getD_some] at hname
        refine hfree (Bool.and_eq_true_iff.mpr ⟨decide_eq_true fun hsame ↦ ?_, ?_⟩)
        · exact hkept (hname.trans hsame)
        · refine List.any_eq_true.mpr ⟨other, hother, Bool.and_eq_true_iff.mpr ⟨?_, ?_⟩⟩
          · exact beq_iff_eq.mpr hname
          · exact bne_iff_ne.mpr (hid ▸ hne)

end

def Database.setProject (db : Database) (p : Project)
    (hname : ∀ other ∈ db.projects, other.id ≠ p.id → other.name ≠ p.name) : Database where
  projects := db.projects.map fun q ↦ if q.id = p.id then p else q
  modules := db.modules
  projectIds := by
    have hids : (db.projects.map fun q ↦ if q.id = p.id then p else q).map Project.id =
        db.projects.map Project.id := by
      rw [List.map_map]
      refine List.map_congr_left fun q _ ↦ ?_
      rw [Function.comp_apply]
      split
      · next hid => exact hid.symm
      · rfl
    rw [hids]
    exact db.projectIds
  projectNames := by
    rw [List.map_map]
    refine (List.Nodup.of_map _ db.projectIds).map_on fun q hq r hr hsame ↦ ?_
    simp only [Function.comp_apply] at hsame
    split at hsame
    · next hqid =>
      split at hsame
      · next hrid => exact List.inj_on_of_nodup_map db.projectIds hq hr (hqid.trans hrid.symm)
      · next hrid => exact absurd hsame.symm (hname r hr hrid)
    · next hqid =>
      split at hsame
      · exact absurd hsame (hname q hq hqid)
      · exact List.inj_on_of_nodup_map db.projectNames hq hr hsame
  moduleIds := db.moduleIds
  paths := db.paths

/-- `update_project`: the tables after it. -/
def updateProject (cipher : Cipher) (nonce : Nat) (db : Database) (projectId : Nat)
    (data : ProjectUpdate) : Except UpdateError Database :=
  match hok : updatedProject cipher nonce db.projects projectId data with
  | .error e => .error e
  | .ok q => .ok (db.setProject q fun other hother hne ↦ by
      obtain ⟨⟨p, -, hid, hq⟩, hnames⟩ := updatedProject_eq_ok hok
      exact hnames other hother (hid ▸ applyUpdate_id (p := p) ▸ hq ▸ hne))

end BnkForge.Config
