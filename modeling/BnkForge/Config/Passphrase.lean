import BnkForge.Config.Projects
import BnkForge.Lib.ExceptResult

/-!
# The passphrase of encrypted state

State is encrypted under the passphrase that `write_encryption_config` generates for an apply. A
passphrase that is not stored is derived from the name of the project, so it has to be stored before a
rename. `_freeze_encryption_passphrase_before_rename` stores it where encryption is on by then.
-/

namespace BnkForge.Config

open Python Secrets Transition

/-! ### The system -/

structure EncryptedStates where
  project : Project
  states : List (Nat × Text)

inductive PassphraseEvent
  /-- An operation on a module, with whether a derived passphrase can be persisted and whether the
  state is written. -/
  | operate (nonce moduleId : Nat) (persists writes : Bool) (defaultRegion : Option Text)
  /-- `update_project`, where it is not refused. -/
  | update (nonce : Nat) (data : ProjectUpdate)
  /-- State encryption is switched on or off. -/
  | switch (enabled : Bool)

/-- The state of a module after an operation that has written it. State that was encrypted under another
passphrase cannot be read, so it is not written. -/
def writtenStates (states : List (Nat × Text)) (moduleId : Nat) (provider : Option KeyProvider) :
    List (Nat × Text) :=
  match provider with
  | some (.pbkdf2 (some passphrase)) =>
    match states.lookup moduleId with
    | none => (moduleId, passphrase) :: states
    | some _ => states
  | _ => states

def Project.switchEncryption (p : Project) (enabled : Bool) : Project :=
  p.setEncryption { p.encryption with stateEncryptionEnabled := enabled }

def passphraseStep (cipher : Cipher) (s : EncryptedStates) : PassphraseEvent → Option EncryptedStates
  | .operate nonce moduleId persists writes defaultRegion =>
    match writeEncryptionConfig cipher nonce persists s.project defaultRegion with
    | .error _ => some s
    | .ok (provider, project) =>
      some ⟨project, if writes then writtenStates s.states moduleId provider else s.states⟩
  | .update nonce data => some { s with project := applyUpdate cipher nonce s.project data }
  | .switch enabled => some { s with project := s.project.switchEncryption enabled }

def PassphraseStable (cipher : Cipher) (s : EncryptedStates) : Prop :=
  ∀ nonce persists defaultRegion generated project,
    writeEncryptionConfig cipher nonce persists s.project defaultRegion =
      .ok (some (.pbkdf2 generated), project) →
    ∀ state ∈ s.states, generated = some state.2

def RenamedSafely (s : EncryptedStates) : PassphraseEvent → Prop
  | .update _ data => textOr data.name s.project.name = s.project.name ∨
    isSet s.project.encryption.encryptionPassphraseEncrypted = true ∨
    s.project.encryption.stateEncryptionEnabled = true ∨ s.states = []
  | _ => True

def EncryptedStates.start (p : Project) : EncryptedStates := ⟨p, []⟩

/-! ### The passphrase of a project -/

/-- The provider is `pbkdf2`. -/
def usesPassphrase (enc : EncryptionConfig) : Prop :=
  textOr enc.encryptionProvider "pbkdf2".toList = "pbkdf2".toList

def passphraseOf (cipher : Cipher) (p : Project) : Except ConfigError (Option Text) :=
  if isSet p.encryption.encryptionPassphraseEncrypted then
    decrypted cipher p.encryption.encryptionPassphraseEncrypted
  else .ok (some (derivedPassphrase p))

section

variable {cipher : Cipher} {nonce : Nat} {p q : Project} {persists : Bool}
  {defaultRegion : Option Text}

theorem encryption_setEncryption {enc : EncryptionConfig} : (p.setEncryption enc).encryption = enc := by
  unfold Project.setEncryption
  split
  · rfl
  · next hnone => rw [Project.encryption, hnone, Option.getD_none]

theorem derivedPassphrase_congr (hid : p.id = q.id) (hname : p.name = q.name) :
    derivedPassphrase p = derivedPassphrase q := by
  rw [derivedPassphrase, derivedPassphrase, hid, hname]

theorem derivedPassphrase_ne_nil : derivedPassphrase p ≠ [] := by
  intro hnil
  have hlength := congrArg List.length hnil
  rw [derivedPassphrase, List.length_take, Sha256.length_hexdigest] at hlength
  cases hlength

theorem decrypted_encryptValue (cipher : Cipher) (nonce : Nat) {passphrase : Text}
    (hne : passphrase ≠ []) :
    isSet (encryptValue cipher nonce passphrase) = true ∧
      decrypted cipher (encryptValue cipher nonce passphrase) = .ok (some passphrase) := by
  have hencrypted := cipher.encrypt_ne_nil nonce passphrase
  rw [encryptValue, if_neg hne]
  constructor
  · exact decide_eq_true hencrypted
  · rw [decrypted, decryptValue, if_neg hencrypted, cipher.decrypt_encrypt]

theorem passphraseOf_stored (hnot : isSet p.encryption.encryptionPassphraseEncrypted ≠ true) :
    passphraseOf cipher (p.setEncryption { p.encryption with
      encryptionPassphraseEncrypted := encryptValue cipher nonce (derivedPassphrase p) }) =
      passphraseOf cipher p := by
  obtain ⟨hset, hread⟩ :=
    decrypted_encryptValue cipher nonce (derivedPassphrase_ne_nil (p := p))
  rw [passphraseOf, passphraseOf, if_neg hnot, encryption_setEncryption, if_pos hset, hread]

theorem cloudKeyProvider_ne {provider : Text} {generated : Option Text} :
    cloudKeyProvider cipher p defaultRegion provider ≠ .ok (.pbkdf2 generated) := by
  intro hok
  unfold cloudKeyProvider at hok
  dsimp only at hok
  split at hok
  · obtain ⟨keyId, -, hok⟩ := ExceptResult.bind_eq_ok.mp hok
    cases hok
  · split at hok
    · obtain ⟨keyId, -, hok⟩ := ExceptResult.bind_eq_ok.mp hok
      cases hok
    · split at hok
      · obtain ⟨url, -, hok⟩ := ExceptResult.bind_eq_ok.mp hok
        obtain ⟨keyName, -, hok⟩ := ExceptResult.bind_eq_ok.mp hok
        cases hok
      · split at hok
        · obtain ⟨address, -, hok⟩ := ExceptResult.bind_eq_ok.mp hok
          split at hok
          · obtain ⟨token, -, hok⟩ := ExceptResult.bind_eq_ok.mp hok
            cases hok
          · cases hok
        · cases hok

theorem writeEncryptionConfig_eq_ok {provider : Option KeyProvider}
    (hok : writeEncryptionConfig cipher nonce persists p defaultRegion = .ok (provider, q)) :
    q.encryption.encryptionProvider = p.encryption.encryptionProvider ∧
    passphraseOf cipher q = passphraseOf cipher p ∧
      ∀ generated, provider = some (.pbkdf2 generated) →
        usesPassphrase p.encryption ∧ passphraseOf cipher p = .ok generated := by
  unfold writeEncryptionConfig at hok
  dsimp only at hok
  split at hok
  · split at hok
    · next huses =>
      split at hok
      · next hset =>
        obtain ⟨passphrase, hread, hok⟩ := ExceptResult.bind_eq_ok.mp hok
        cases hok
        refine ⟨rfl, rfl, fun generated hgenerated ↦ ⟨huses, ?_⟩⟩
        cases hgenerated
        rw [passphraseOf, if_pos hset, hread]
      · next hset =>
        cases hok
        refine ⟨?_, ?_, fun generated hgenerated ↦ ⟨huses, ?_⟩⟩
        · split
          · rw [encryption_setEncryption]
          · rfl
        · split
          · exact passphraseOf_stored hset
          · rfl
        · cases hgenerated
          rw [passphraseOf, if_neg hset]
    · obtain ⟨found, hfound, hok⟩ := ExceptResult.bind_eq_ok.mp hok
      cases hok
      refine ⟨rfl, rfl, fun generated hgenerated ↦ ?_⟩
      cases hgenerated
      exact absurd hfound cloudKeyProvider_ne
  · cases hok
    exact ⟨rfl, rfl, nofun⟩

theorem passphraseOf_switchEncryption (cipher : Cipher) (p : Project) (enabled : Bool) :
    passphraseOf cipher (p.switchEncryption enabled) = passphraseOf cipher p ∧
      (p.switchEncryption enabled).encryption.encryptionProvider =
        p.encryption.encryptionProvider := by
  have hderived : derivedPassphrase (p.switchEncryption enabled) = derivedPassphrase p :=
    derivedPassphrase_congr (setEncryption_eq _ _).1 (setEncryption_eq _ _).2.1
  rw [passphraseOf, passphraseOf, hderived, Project.switchEncryption, encryption_setEncryption]
  exact ⟨rfl, rfl⟩

/-! ### An update -/

theorem freezeEncryptionPassphrase_of_isSet
    (hset : isSet p.encryption.encryptionPassphraseEncrypted = true) :
    freezeEncryptionPassphrase cipher nonce p = p := by
  unfold freezeEncryptionPassphrase
  dsimp only
  rw [if_pos hset, ite_self, ite_self]

theorem encryption_applyUpdate (cipher : Cipher) (nonce : Nat) (p : Project) (data : ProjectUpdate) :
    (applyUpdate cipher nonce p data).encryption =
      if textOr data.name p.name = p.name then p.encryption
      else (freezeEncryptionPassphrase cipher nonce p).encryption := by
  unfold applyUpdate textOr
  dsimp only
  split
  · next hnone =>
    rw [hnone, Option.getD_none, if_pos rfl]
    rfl
  · next name hsome =>
    rw [hsome, Option.getD_some]
    split
    · rfl
    · rfl

theorem provider_applyUpdate {data : ProjectUpdate} :
    (applyUpdate cipher nonce p data).encryption.encryptionProvider =
      p.encryption.encryptionProvider := by
  rw [encryption_applyUpdate]
  split
  · rfl
  · unfold freezeEncryptionPassphrase
    dsimp only
    repeat' split
    · rfl
    · rfl
    · rfl
    · rw [encryption_setEncryption]

theorem passphraseOf_of_isSet (hset : isSet p.encryption.encryptionPassphraseEncrypted = true)
    (hsame : q.encryption = p.encryption) : passphraseOf cipher q = passphraseOf cipher p := by
  rw [passphraseOf, passphraseOf, hsame, if_pos hset, if_pos hset]

theorem passphraseOf_applyUpdate {data : ProjectUpdate} (huses : usesPassphrase p.encryption)
    (hsafe : textOr data.name p.name = p.name ∨
      isSet p.encryption.encryptionPassphraseEncrypted = true ∨
      p.encryption.stateEncryptionEnabled = true) :
    passphraseOf cipher (applyUpdate cipher nonce p data) = passphraseOf cipher p := by
  have henc := encryption_applyUpdate cipher nonce p data
  by_cases hname : textOr data.name p.name = p.name
  · rw [if_pos hname] at henc
    rw [passphraseOf, passphraseOf, henc,
      derivedPassphrase_congr applyUpdate_id (applyUpdate_name.trans hname)]
  · rw [if_neg hname] at henc
    by_cases hset : isSet p.encryption.encryptionPassphraseEncrypted = true
    · rw [freezeEncryptionPassphrase_of_isSet hset] at henc
      exact passphraseOf_of_isSet hset henc
    · -- encryption is on, so the freeze stores what is derived from the old name
      have hon := (hsafe.resolve_left hname).resolve_left hset
      have hfreeze : freezeEncryptionPassphrase cipher nonce p = p.setEncryption { p.encryption with
          encryptionPassphraseEncrypted := encryptValue cipher nonce (derivedPassphrase p) } := by
        unfold freezeEncryptionPassphrase
        dsimp only
        rw [hon, if_neg hset, Bool.not_true, if_neg Bool.false_ne_true]
        exact if_neg (not_not_intro huses)
      rw [hfreeze] at henc
      rw [passphraseOf_of_isSet _ henc, passphraseOf_stored hset]
      rw [encryption_setEncryption]
      exact (decrypted_encryptValue cipher nonce derivedPassphrase_ne_nil).1

end

/-! ### What the runs keep -/

def EncryptedByProject (cipher : Cipher) (s : EncryptedStates) : Prop :=
  ∀ state ∈ s.states, usesPassphrase s.project.encryption ∧
    passphraseOf cipher s.project = .ok (some state.2)

section

variable {cipher : Cipher} {s t : EncryptedStates}

theorem EncryptedByProject.of_project (h : EncryptedByProject cipher s) {q : Project}
    (hprovider : q.encryption.encryptionProvider = s.project.encryption.encryptionProvider)
    (hpassphrase : passphraseOf cipher q = passphraseOf cipher s.project) :
    EncryptedByProject cipher { s with project := q } := by
  intro state hstate
  obtain ⟨huses, hstate⟩ := h state hstate
  exact ⟨by rwa [usesPassphrase, hprovider], hpassphrase.trans hstate⟩

theorem mem_writtenStates {states : List (Nat × Text)} {moduleId : Nat} {provider : Option KeyProvider}
    {state : Nat × Text} (h : state ∈ writtenStates states moduleId provider) :
    state ∈ states ∨ provider = some (.pbkdf2 (some state.2)) := by
  unfold writtenStates at h
  split at h
  · split at h
    · rcases List.mem_cons.mp h with rfl | h
      · exact Or.inr rfl
      · exact Or.inl h
    · exact Or.inl h
  · exact Or.inl h

theorem encryptedByProject_step (h : EncryptedByProject cipher s) {e : PassphraseEvent}
    (hok : RenamedSafely s e) (hst : passphraseStep cipher s e = some t) :
    EncryptedByProject cipher t := by
  cases e with
  | operate nonce moduleId persists writes defaultRegion =>
    simp only [passphraseStep] at hst
    split at hst
    · cases hst
      exact h
    · next provider project hconfig =>
      cases hst
      obtain ⟨hprovider, hpassphrase, hgiven⟩ := writeEncryptionConfig_eq_ok hconfig
      have hkept := h.of_project hprovider hpassphrase
      intro state hstate
      split at hstate
      · rcases mem_writtenStates hstate with hold | hnew
        · exact hkept state hold
        · obtain ⟨huses, hgiven⟩ := hgiven _ hnew
          exact ⟨by rwa [usesPassphrase, hprovider], hpassphrase.trans hgiven⟩
      · exact hkept state hstate
  | update nonce data =>
    cases hst
    intro state hstate
    have hstates : s.states ≠ [] := List.ne_nil_of_mem hstate
    have hsafe : textOr data.name s.project.name = s.project.name ∨
        isSet s.project.encryption.encryptionPassphraseEncrypted = true ∨
        s.project.encryption.stateEncryptionEnabled = true :=
      hok.imp_right fun h ↦ h.imp_right fun h ↦ h.resolve_right hstates
    exact h.of_project provider_applyUpdate (passphraseOf_applyUpdate (h state hstate).1 hsafe) state
      hstate
  | switch enabled =>
    cases hst
    obtain ⟨hpassphrase, hprovider⟩ := passphraseOf_switchEncryption cipher s.project enabled
    exact h.of_project hprovider hpassphrase

theorem EncryptedByProject.stable (h : EncryptedByProject cipher s) : PassphraseStable cipher s := by
  intro nonce persists defaultRegion generated project hconfig state hstate
  have hgiven := ((writeEncryptionConfig_eq_ok hconfig).2.2 generated rfl).2
  exact Except.ok.inj (hgiven.symm.trans (h state hstate).2)

end

/-- Where a project is renamed only while its passphrase is stored, encryption is on or no state is
encrypted, its encrypted states can be decrypted after every step. -/
theorem passphrase_stable (cipher : Cipher) (p : Project) {es : List PassphraseEvent}
    {s : EncryptedStates} (h : Run (passphraseStep cipher) RenamedSafely (.start p) es s) :
    AllSteps (passphraseStep cipher) (fun _ _ t ↦ PassphraseStable cipher t) (.start p) es :=
  h.allSteps (I := EncryptedByProject cipher) (List.forall_mem_nil _) fun _ _ _ hs hok hst ↦
    have ht := encryptedByProject_step hs hok hst
    ⟨ht, ht.stable⟩

/-! ### A project that is renamed -/

/-- A project with the defaults, whose state is encrypted. -/
def team : Project where
  id := 1
  name := "team".toList

instance (s : EncryptedStates) (e : PassphraseEvent) : Decidable (RenamedSafely s e) :=
  match e with
  | .update _ data => inferInstanceAs (Decidable (textOr data.name s.project.name = s.project.name ∨
      isSet s.project.encryption.encryptionPassphraseEncrypted = true ∨
      s.project.encryption.stateEncryptionEnabled = true ∨ s.states = []))
  | .operate .. | .switch _ => isTrue trivial

/-- The passphrase cannot be persisted at the apply; the rename comes while encryption is on. -/
def renamedWhileOn : List PassphraseEvent :=
  [.operate 0 1 false true none, .update 0 { name := some "crew".toList }, .switch false,
    .update 0 { name := some "core".toList }, .switch true, .operate 0 1 true true none]

theorem renamedWhileOn_stable :
    ∃ s, Run (passphraseStep markingCipher) RenamedSafely (.start team) renamedWhileOn s ∧
      AllSteps (passphraseStep markingCipher) (fun _ _ t ↦ PassphraseStable markingCipher t)
        (.start team) renamedWhileOn := by
  obtain ⟨s, hrun, -⟩ : ∃ s, Run (passphraseStep markingCipher) RenamedSafely (.start team)
      renamedWhileOn s ∧ True := Run.exists_of_exec (by decide +kernel)
  exact ⟨s, hrun, passphrase_stable markingCipher team hrun⟩

def renamedWhileOff : List PassphraseEvent :=
  [.operate 0 1 false true none, .switch false, .update 0 { name := some "crew".toList },
    .switch true]

def givenPassphrase (cipher : Cipher) (p : Project) : Option Text :=
  match writeEncryptionConfig cipher 0 false p none with
  | .ok (some (.pbkdf2 generated), _) => generated
  | _ => none

theorem givenPassphrase_eq_some {cipher : Cipher} {p : Project} {passphrase : Text}
    (h : givenPassphrase cipher p = some passphrase) :
    ∃ q, writeEncryptionConfig cipher 0 false p none = .ok (some (.pbkdf2 (some passphrase)), q) := by
  unfold givenPassphrase at h
  split at h
  · next generated q hconfig =>
    subst h
    exact ⟨q, hconfig⟩
  · cases h

/-- The state was encrypted under a passphrase that is not the one of the next operation. -/
theorem renamedWhileOff_unstable :
    (∃ s, Run (passphraseStep markingCipher) Free (.start team) renamedWhileOff s ∧
      ¬ PassphraseStable markingCipher s) ∧
    ¬ ∀ cipher p es s, Run (passphraseStep cipher) Free (.start p) es s →
      AllSteps (passphraseStep cipher) (fun _ _ t ↦ PassphraseStable cipher t) (.start p) es := by
  obtain ⟨s, hrun, state, hstate, hgiven, hother⟩ : ∃ s, Run (passphraseStep markingCipher) Free
      (.start team) renamedWhileOff s ∧ ∃ state ∈ s.states,
        (givenPassphrase markingCipher s.project).isSome = true ∧
          givenPassphrase markingCipher s.project ≠ some state.2 :=
    Run.exists_of_exec (by decide +kernel)
  have hunstable : ¬ PassphraseStable markingCipher s := by
    intro hstable
    obtain ⟨passphrase, hpassphrase⟩ := Option.isSome_iff_exists.mp hgiven
    obtain ⟨q, hconfig⟩ := givenPassphrase_eq_some hpassphrase
    exact hother (hpassphrase.trans (hstable _ _ _ _ _ hconfig state hstate))
  refine ⟨⟨s, hrun, hunstable⟩, fun h ↦ hunstable ?_⟩
  obtain ⟨-, -, hstable⟩ :=
    Run.related_last (show Run _ _ _ (renamedWhileOff.dropLast ++ [_]) s from hrun) (h _ _ _ s hrun)
  exact hstable

end BnkForge.Config
