import BnkForge.Auth.Seeding

/-!
# What seeding the credentials leaves behind

Every transaction rewrites the table row by row. No row of a person is changed and no role is, no
shipped default comes back, and the credential file holds the password that was generated for `admin`,
for any number of replicas and whatever fails on the way.
-/

namespace BnkForge.Auth

open Interleave Transition Python List

variable {hashing : PasswordHashing} {ι : Type}

/-! ### Rows -/

/-- A shipped default authenticates as `admin`. -/
def adminHolds (hashing : PasswordHashing) (u : User) : Bool :=
  u.username == adminName && holdsOneOf hashing adminKnownDefaultPasswords u

def exposedRow (hashing : PasswordHashing) (u : User) : Bool :=
  u.isActive && u.isServiceAccount && holdsOneOf hashing mcpKnownDefaultPasswords u

/-- Neither `admin`, nor a service account, nor the legacy row. -/
def ofPerson (u : User) : Bool := u.username != adminName && !u.isServiceAccount && !isLegacyMcp u

/-- A row and what a transaction makes of it. -/
structure RowChange (hashing : PasswordHashing) (u v : User) : Prop where
  id : v.id = u.id
  username : v.username = u.username
  role : v.role = u.role
  person : ofPerson u = true → v = u
  admin : adminHolds hashing v = true → adminHolds hashing u = true
  exposed : exposedRow hashing v = true → exposedRow hashing u = true

theorem RowChange.refl (u : User) : RowChange hashing u u := 
  ⟨rfl, rfl, rfl, fun _ ↦ rfl, fun h ↦ h, fun h ↦ h⟩

def AuthStore.UniqueNames (s : AuthStore) : Prop := (s.users.map (·.username)).Nodup

/-- A transaction changes rows and adds rows, none of them with a shipped default. -/
def Rewrites (hashing : PasswordHashing) (s t : AuthStore) : Prop :=
  ∃ (f : User → User) (new : List User), t.users = s.users.map f ++ new ∧
    (∀ u ∈ s.users, RowChange hashing u (f u)) ∧
    (∀ v ∈ new, adminHolds hashing v = false ∧ exposedRow hashing v = false) ∧
    (s.UniqueNames → t.UniqueNames)

def Kept (start now : List User) : Prop :=
  ∃ (f : User → User) (new : List User), now = start.map f ++ new ∧
    ∀ u ∈ start, (f u).id = u.id ∧ (f u).role = u.role ∧ (ofPerson u = true → f u = u)

theorem Kept.refl (users : List User) : Kept users users :=
  ⟨id, [], by simp, fun _ _ ↦ ⟨rfl, rfl, fun _ ↦ rfl⟩⟩

namespace Rewrites

variable {s t : AuthStore}

theorem of_map {f : User → User} (h : t.users = s.users.map f)
    (hf : ∀ u ∈ s.users, RowChange hashing u (f u)) : Rewrites hashing s t := by
  refine ⟨f, [], by simp [h], hf, nofun, fun hs ↦ ?_⟩
  have hnames : (s.users.map f).map (·.username) = s.users.map (·.username) := by
    rw [map_map]
    exact map_congr_left fun u hu ↦ (hf u hu).username
  rw [AuthStore.UniqueNames, h, hnames]
  exact hs

theorem of_eq (h : t.users = s.users) : Rewrites hashing s t :=
  of_map (f := fun u ↦ u) (by simp [h]) fun u _ ↦ .refl u

theorem of_insert {v : User} (h : t.users = s.users ++ [v])
    (hname : ∀ u ∈ s.users, u.username ≠ v.username) (hadmin : adminHolds hashing v = false)
    (hexposed : exposedRow hashing v = false) : Rewrites hashing s t := by
  refine ⟨fun u ↦ u, [v], by simp [h], fun u _ ↦ .refl u, ?_, fun hs ↦ ?_⟩
  · intro w hw
    rw [mem_singleton.mp hw]
    exact ⟨hadmin, hexposed⟩
  · rw [AuthStore.UniqueNames, h, map_append, map_singleton, nodup_append]
    refine ⟨hs, nodup_singleton _, fun name hmem name' hmem' ↦ ?_⟩
    obtain ⟨u, hu, rfl⟩ := mem_map.mp hmem
    rw [mem_singleton.mp hmem']
    exact hname u hu

theorem kept {start : List User} (h : Rewrites hashing s t) (hs : Kept start s.users) :
    Kept start t.users := by
  obtain ⟨g, old, hold, hg⟩ := hs
  obtain ⟨f, new, hnew, hf, -⟩ := h
  refine ⟨fun u ↦ f (g u), old.map f ++ new, ?_, fun u hu ↦ ?_⟩
  · simp only [hnew, hold, map_append, map_map, append_assoc, Function.comp_def]
  · have hmem : g u ∈ s.users := by
      rw [hold]
      exact mem_append_left _ (mem_map_of_mem hu)
    obtain ⟨hid, hrole, hperson⟩ := hg u hu
    have hrow := hf (g u) hmem
    refine ⟨hrow.id.trans hid, hrow.role.trans hrole, fun hu ↦ ?_⟩
    have hgu := hperson hu
    exact (hrow.person (by rwa [hgu])).trans hgu

theorem admin (h : Rewrites hashing s t) (hs : ∀ u ∈ s.users, adminHolds hashing u = false) :
    ∀ u ∈ t.users, adminHolds hashing u = false := by
  obtain ⟨f, new, hnew, hf, hclean, -⟩ := h
  intro v hv
  rw [hnew, mem_append, mem_map] at hv
  obtain ⟨u, hu, rfl⟩ | hv := hv
  · rw [Bool.eq_false_iff]
    intro hholds
    have := (hf u hu).admin hholds
    rw [hs u hu] at this
    cases this
  · exact (hclean v hv).1

theorem exposed (h : Rewrites hashing s t) {v : User} (hv : v ∈ t.users)
    (hexposed : exposedRow hashing v = true) :
    ∃ u ∈ s.users, u.username = v.username ∧ exposedRow hashing u = true := by
  obtain ⟨f, new, hnew, hf, hclean, -⟩ := h
  rw [hnew, mem_append, mem_map] at hv
  obtain ⟨u, hu, rfl⟩ | hv := hv
  · exact ⟨u, hu, (hf u hu).username.symm, (hf u hu).exposed hexposed⟩
  · rw [(hclean v hv).2] at hexposed
    cases hexposed

end Rewrites

/-! ### Passwords and their hashes -/

/-- What is documented of `passlib`: a shipped default authenticates against the hash of a password
only if it is that password. -/
def PasswordHashing.Sound (hashing : PasswordHashing) : Prop :=
  ∀ d ∈ mcpKnownDefaultPasswords, ∀ salt q,
    hashing.verifyPassword d (hashing.hashPassword salt q) = true → d = q

theorem admin_subset_mcp : adminKnownDefaultPasswords ⊆ mcpKnownDefaultPasswords := by decide

theorem not_holds_hash (hsound : hashing.Sound) {passwords : List Text}
    (hsub : passwords ⊆ mcpKnownDefaultPasswords) {q : Text} (hq : q ∉ passwords) {salt : Nat}
    {u : User} (hu : u.hashedPassword = hashing.hashPassword salt q) :
    holdsOneOf hashing passwords u = false := by
  rw [holdsOneOf, any_eq_false]
  intro d hd hverify
  rw [hu] at hverify
  rw [hsound d (hsub hd) salt q hverify] at hd
  exact hq hd

theorem not_mem_defaults {q : Text} (h : 24 ≤ q.length) : q ∉ mcpKnownDefaultPasswords := by
  intro hq
  have hshort : ∀ d ∈ mcpKnownDefaultPasswords, d.length < 24 := by decide
  have := hshort q hq
  omega

theorem holds_mcp_of_admin {u : User} (h : holdsOneOf hashing adminKnownDefaultPasswords u = true) :
    holdsOneOf hashing mcpKnownDefaultPasswords u = true := by
  rw [holdsOneOf, any_eq_true] at h ⊢
  obtain ⟨d, hd, hverify⟩ := h
  exact ⟨d, admin_subset_mcp hd, hverify⟩

theorem configuredAdmin_not_default {config : SeedConfig} {q : Text}
    (h : configuredAdmin config = some q) : q ∉ adminKnownDefaultPasswords := by
  obtain ⟨-, hq⟩ := Option.filter_eq_some_iff.mp h
  exact (of_decide_eq_true hq).2

theorem usableMcp_not_default {config : SeedConfig} {q : Text} (h : usableMcp config = some q) :
    q ∉ mcpKnownDefaultPasswords := by
  obtain ⟨-, hq⟩ := Option.filter_eq_some_iff.mp h
  exact (of_decide_eq_true hq).2

/-! ### The credential file -/

/-- No shipped default authenticates as `admin`. -/
def AdminClean (hashing : PasswordHashing) (s : AuthStore) : Prop :=
  ∀ u ∈ s.users, adminHolds hashing u = false

/-- The password that was generated for `admin` is the one in the file. -/
def FileHolds (hashing : PasswordHashing) (s : AuthStore) : Prop :=
  ∀ p, s.generatedAdmin = some p → s.credentialFile = some (p ++ ['\n']) ∧
    ∃ salt, ∃ u ∈ s.users, u.username = adminName ∧ u.hashedPassword = hashing.hashPassword salt p

/-- The invariant of a run that started with the users `start`. -/
structure SeedInv (hashing : PasswordHashing) (start : List User) (s : AuthStore) : Prop where
  names : s.UniqueNames
  kept : Kept start s.users
  file : FileHolds hashing s
  drawn : ∀ p, s.generatedAdmin = some p → p.length = 24

theorem eq_of_username {s : AuthStore} (hs : s.UniqueNames) {u v : User} (hu : u ∈ s.users)
    (hv : v ∈ s.users) (h : u.username = v.username) : u = v :=
  inj_on_of_nodup_map hs hu hv h

/-- While the generated password stands, `admin` holds no shipped default. -/
theorem SeedInv.clean_of_generated {start : List User} {s : AuthStore} (hsound : hashing.Sound)
    (hs : SeedInv hashing start s) {p : Text} (hp : s.generatedAdmin = some p) :
    AdminClean hashing s := by
  intro u hu
  obtain ⟨-, salt, admin, hadmin, hname, hhash⟩ := hs.file p hp
  by_cases h : u.username = adminName
  · obtain rfl := eq_of_username hs.names hu hadmin (h.trans hname.symm)
    have hlong : p ∉ mcpKnownDefaultPasswords := not_mem_defaults (hs.drawn p hp).ge
    rw [adminHolds, not_holds_hash hsound admin_subset_mcp (fun hmem ↦ hlong (admin_subset_mcp hmem))
      hhash, Bool.and_false]
  · simp only [adminHolds, Bool.and_eq_false_iff, beq_eq_false_iff_ne]
    exact .inl h

/-! ### The transactions -/

/-- What a transaction does, whatever it answers. -/
structure Transacts (hashing : PasswordHashing) (start : List User) (s t : AuthStore) : Prop where
  rewrites : Rewrites hashing s t
  inv : SeedInv hashing start t

section Transactions

variable {start : List User} {s t : AuthStore} {c : SeedChoice}

/-- Where no password of `admin` is on record, the file does not matter. -/
theorem SeedInv.unrecorded (hs : SeedInv hashing start s) (hrewrites : Rewrites hashing s t)
    (hnone : t.generatedAdmin = none) : Transacts hashing start s t where
  rewrites := hrewrites
  inv :=
    { names := by
        obtain ⟨-, -, -, -, -, hnames⟩ := hrewrites
        exact hnames hs.names
      kept := hrewrites.kept hs.kept
      file := fun p hp ↦ by rw [hnone] at hp; cases hp
      drawn := fun p hp ↦ by rw [hnone] at hp; cases hp }

/-- A password of `admin` is generated, written to the file and committed. -/
theorem SeedInv.recorded (hs : SeedInv hashing start s) (hrewrites : Rewrites hashing s t) {p : Text}
    (hp : t.generatedAdmin = some p) (hlength : p.length = 24)
    (hfile : t.credentialFile = some (p ++ ['\n'])) {salt : Nat} {u : User} (hu : u ∈ t.users)
    (hname : u.username = adminName) (hhash : u.hashedPassword = hashing.hashPassword salt p) :
    Transacts hashing start s t where
  rewrites := hrewrites
  inv :=
    { names := by
        obtain ⟨-, -, -, -, -, hnames⟩ := hrewrites
        exact hnames hs.names
      kept := hrewrites.kept hs.kept
      file := fun q hq ↦ by
        cases hp.symm.trans hq
        exact ⟨hfile, salt, u, hu, hname, hhash⟩
      drawn := fun q hq ↦ by
        cases hp.symm.trans hq
        exact hlength }

/-- The row of `admin`, the file and the record are as they were. -/
theorem SeedInv.unchanged (hs : SeedInv hashing start s) (hrewrites : Rewrites hashing s t)
    (hadmin : ∀ u ∈ s.users, u.username = adminName → u ∈ t.users)
    (hfile : t.credentialFile = s.credentialFile) (hrecord : t.generatedAdmin = s.generatedAdmin) :
    Transacts hashing start s t := by
  cases hp : s.generatedAdmin with
  | none => exact hs.unrecorded hrewrites (hrecord.trans hp)
  | some p =>
    obtain ⟨hholds, salt, u, hu, hname, hhash⟩ := hs.file p hp
    exact hs.recorded hrewrites (hrecord.trans hp) (hs.drawn p hp) (hfile.trans hholds)
      (hadmin u hu hname) hname hhash

theorem SeedInv.same (hs : SeedInv hashing start s) : Transacts hashing start s s :=
  hs.unchanged (.of_eq rfl) (fun _ hu _ ↦ hu) rfl rfl

theorem adminHolds_of_ne {u : User} (h : u.username ≠ adminName) : adminHolds hashing u = false := by
  simp only [adminHolds, Bool.and_eq_false_iff, beq_eq_false_iff_ne]
  exact .inl h

theorem rotateTo_spec (hsound : hashing.Sound) (hs : s.UniqueNames) {admin : User}
    (hadmin : admin ∈ s.users) (hname : admin.username = adminName)
    (hholds : holdsOneOf hashing adminKnownDefaultPasswords admin = true) {q : Text}
    (hq : q ∉ adminKnownDefaultPasswords) {salt : Nat}
    (ht : t.users = (s.rotateTo (hashing.hashPassword salt q)).users) :
    Rewrites hashing s t ∧ AdminClean hashing t ∧
      ∃ u ∈ t.users, u.username = adminName ∧ u.hashedPassword = hashing.hashPassword salt q := by
  have hnew : ∀ u : User, u.hashedPassword = hashing.hashPassword salt q →
      holdsOneOf hashing adminKnownDefaultPasswords u = false :=
    fun u hu ↦ not_holds_hash hsound admin_subset_mcp hq hu
  refine ⟨.of_map ht fun u hu ↦ ?_, fun v hv ↦ ?_, ?_⟩
  · split
    · next h =>
      obtain rfl := eq_of_username hs hu hadmin (h.trans hname.symm)
      refine ⟨rfl, rfl, rfl, fun hperson ↦ ?_, fun hadmin ↦ ?_, fun hexposed ↦ ?_⟩
      · simp [ofPerson, h] at hperson
      · rw [adminHolds, hnew _ rfl, Bool.and_false] at hadmin
        cases hadmin
      · simp only [exposedRow, Bool.and_eq_true] at hexposed ⊢
        exact ⟨hexposed.1, holds_mcp_of_admin hholds⟩
    · exact .refl u
  · rw [ht] at hv
    obtain ⟨u, hu, rfl⟩ := mem_map.mp hv
    dsimp only
    split
    · rw [adminHolds, hnew _ rfl, Bool.and_false]
    · next h => exact adminHolds_of_ne h
  · rw [ht]
    exact ⟨_, mem_map_of_mem hadmin, by rw [if_pos hname]; exact hname, by rw [if_pos hname]⟩

theorem persist_written {p : Text} {o : FileOutcome} {before after : Option Text}
    (h : persistGeneratedPassword p o before = (true, after)) : after = some (p ++ ['\n']) := by
  cases o <;> cases h
  rfl

theorem find?_adminName {admin : User}
    (h : (s.users.find? fun u ↦ u.username == adminName) = some admin) :
    admin ∈ s.users ∧ admin.username = adminName :=
  ⟨mem_of_find?_eq_some h, by simpa using find?_some h⟩

/-- The rotation leaves `admin` without a shipped default wherever it returns. -/
theorem rotateKnownDefaultAdmin_spec (config : SeedConfig) (hsound : hashing.Sound)
    (hs : SeedInv hashing start s) (hc : c.Drawn s) :
    Transacts hashing start s (rotateKnownDefaultAdmin hashing config c s).2 ∧
      ((rotateKnownDefaultAdmin hashing config c s).1 = .ok () →
        AdminClean hashing (rotateKnownDefaultAdmin hashing config c s).2) := by
  unfold rotateKnownDefaultAdmin
  split
  · next hnone =>
    refine ⟨hs.same, fun _ u hu ↦ adminHolds_of_ne fun h ↦ ?_⟩
    exact find?_eq_none.mp hnone u hu (by simpa using h)
  next admin hfind =>
  obtain ⟨hadmin, hname⟩ := find?_adminName hfind
  split
  · next hclean =>
    refine ⟨hs.same, fun _ u hu ↦ ?_⟩
    by_cases h : u.username = adminName
    · obtain rfl := eq_of_username hs.names hu hadmin (h.trans hname.symm)
      rw [adminHolds, Bool.and_eq_false_iff]
      exact .inr (by simpa using hclean)
    · exact adminHolds_of_ne h
  next hholds =>
  have hholds : holdsOneOf hashing adminKnownDefaultPasswords admin = true := by simpa using hholds
  have hnone : s.generatedAdmin = none := by
    cases hp : s.generatedAdmin with
    | none => rfl
    | some p =>
      have := hs.clean_of_generated hsound hp admin hadmin
      rw [adminHolds, hholds, hname] at this
      simp at this
  split
  · next configured hconfigured =>
    split
    · obtain ⟨hrewrites, hclean, -⟩ := rotateTo_spec
        (t := { s.rotateTo (hashing.hashPassword c.salt configured) with generatedAdmin := none })
        hsound hs.names hadmin hname hholds (configuredAdmin_not_default hconfigured) rfl
      exact ⟨hs.unrecorded hrewrites rfl, fun _ ↦ hclean⟩
    · exact ⟨hs.same, nofun⟩
  · split
    · exact ⟨hs.unrecorded (.of_eq rfl) hnone, nofun⟩
    next file hfile =>
    split
    · have hdrawn : c.generated ∉ adminKnownDefaultPasswords :=
        fun h ↦ not_mem_defaults hc.1.ge (admin_subset_mcp h)
      obtain ⟨hrewrites, hclean, u, hu, huname, huhash⟩ := rotateTo_spec
        (t := { s.rotateTo (hashing.hashPassword c.salt c.generated) with
          credentialFile := file, generatedAdmin := some c.generated })
        hsound hs.names hadmin hname hholds hdrawn rfl
      exact ⟨hs.recorded hrewrites rfl hc.1 (persist_written hfile) hu huname huhash, fun _ ↦ hclean⟩
    · exact ⟨hs.unrecorded (.of_eq rfl) hnone, nofun⟩

theorem not_taken {username : Text} (h : s.taken username = false) :
    ∀ u ∈ s.users, u.username ≠ username := by
  intro u hu
  have := any_eq_false.mp h u hu
  simp only [Bool.or_eq_true, beq_iff_eq, not_or] at this
  exact this.1

/-- The row of `admin` as it is created. -/
theorem insertAdmin_rewrites (hsound : hashing.Sound) (hnew : s.taken adminName = false) {q : Text}
    (hq : q ∉ adminKnownDefaultPasswords) {v : User} (hname : v.username = adminName)
    (hservice : v.isServiceAccount = false) (hhash : v.hashedPassword = hashing.hashPassword c.salt q)
    (ht : t.users = s.users ++ [v]) : Rewrites hashing s t := by
  refine .of_insert ht (fun u hu ↦ hname ▸ not_taken hnew u hu) ?_ ?_
  · rw [adminHolds, not_holds_hash hsound admin_subset_mcp hq hhash, Bool.and_false]
  · rw [exposedRow, hservice, Bool.and_false, Bool.false_and]

/-- Creating `admin`. -/
theorem createAdmin_spec (config : SeedConfig) (hsound : hashing.Sound)
    (hs : SeedInv hashing start s) (hc : c.Drawn s) :
    Transacts hashing start s (createAdmin hashing config c s).2 := by
  unfold createAdmin
  split
  · exact hs.same
  next hnew =>
  have hnew : s.taken adminName = false := by simpa using hnew
  have hnone : s.generatedAdmin = none := by
    cases hp : s.generatedAdmin with
    | none => rfl
    | some p =>
      obtain ⟨-, -, u, hu, hname, -⟩ := hs.file p hp
      exact absurd hname (not_taken hnew u hu)
  dsimp only
  split
  · next configured hconfigured =>
    split
    · exact hs.unrecorded (insertAdmin_rewrites hsound hnew
        (configuredAdmin_not_default hconfigured) rfl rfl rfl rfl) rfl
    · exact hs.same
  · split
    · exact hs.unrecorded (.of_eq rfl) hnone
    next file hfile =>
    split
    · have hdrawn : c.generated ∉ adminKnownDefaultPasswords :=
        fun h ↦ not_mem_defaults hc.1.ge (admin_subset_mcp h)
      exact hs.recorded (insertAdmin_rewrites hsound hnew hdrawn rfl rfl rfl rfl) rfl hc.1
        (persist_written hfile) (mem_append_right _ (mem_singleton_self _)) rfl rfl
    · exact hs.unrecorded (.of_eq rfl) hnone

theorem exposed_of_not_stale {skip : Option Text} {u : User} (h : isStale skip u = false)
    (hu : exposedRow hashing u = true) : skip = some u.username := by
  simp only [exposedRow, Bool.and_eq_true] at hu
  simpa only [isStale, hu.1.1, hu.1.2, Bool.true_and, bne_eq_false_iff_eq] using h

/-- Disabling the stale service accounts, where `admin` is none of them. -/
theorem disableStaleServiceUser_spec (hsound : hashing.Sound) {skip : Option Text}
    (hs : SeedInv hashing start s) (hc : c.Drawn s)
    (hadmin : ∀ u ∈ s.users, u.username = adminName → isStale skip u = false) :
    Transacts hashing start s (disableStaleServiceUser hashing skip c s).2 ∧
      ((disableStaleServiceUser hashing skip c s).1 = .ok () →
        ∀ v ∈ (disableStaleServiceUser hashing skip c s).2.users, exposedRow hashing v = true →
          skip = some v.username) := by
  unfold disableStaleServiceUser
  split
  · next hnone =>
    refine ⟨hs.same, fun _ v hv ↦ exposed_of_not_stale ?_⟩
    simp only [Bool.not_eq_true', any_eq_false, Bool.not_eq_true] at hnone
    exact hnone v hv
  split
  · exact ⟨hs.same, nofun⟩
  have hfind : (s.users.find? fun u ↦ u.username == adminName && isStale skip u) = none := by
    rw [find?_eq_none]
    intro u hu h
    simp only [Bool.and_eq_true, beq_iff_eq] at h
    rw [hadmin u hu h.1] at h
    cases h.2
  have hscrubbed : ∀ u ∈ s.users, ∀ v : User,
      v.hashedPassword = hashing.hashPassword c.salt (c.scrubbed u.id) →
      holdsOneOf hashing mcpKnownDefaultPasswords v = false := by
    intro u hu v hv
    have hlength := hc.2 u hu
    exact not_holds_hash hsound (List.Subset.refl _) (not_mem_defaults (by omega)) hv
  refine ⟨hs.unchanged (.of_map rfl fun u hu ↦ ?_) (fun u hu hname ↦ ?_) rfl ?_, fun _ v hv ↦ ?_⟩
  · split
    · next hstale =>
      simp only [isStale, Bool.and_eq_true] at hstale
      refine ⟨rfl, rfl, rfl, fun hperson ↦ ?_, fun hholds ↦ ?_, fun hexposed ↦ ?_⟩
      · simp [ofPerson, hstale.1.2] at hperson
      · rw [adminHolds, Bool.and_eq_true] at hholds
        have := holds_mcp_of_admin hholds.2
        rw [hscrubbed u hu _ rfl] at this
        cases this
      · simp [exposedRow] at hexposed
    · exact .refl u
  · refine mem_map.mpr ⟨u, hu, ?_⟩
    rw [hadmin u hu hname]
    rfl
  · simp only [hfind, Option.map_none, Option.none_or]
  · obtain ⟨u, hu, rfl⟩ := mem_map.mp hv
    split
    · intro hexposed
      simp [exposedRow] at hexposed
    · next hstale => exact exposed_of_not_stale (by simpa using hstale)

theorem adminName_reserved : isReservedHumanUsername adminName = true := by decide

theorem ensureServiceUser_spec (username : Text) {password : Text} (hsound : hashing.Sound)
    (hs : SeedInv hashing start s) {config : SeedConfig}
    (hpassword : usableMcp config = some password) :
    Transacts hashing start s (ensureServiceUser hashing username password c s).2 ∧
      ((ensureServiceUser hashing username password c s).1 ≠ .error .database →
        isReservedHumanUsername username = false →
        ∀ v ∈ (ensureServiceUser hashing username password c s).2.users, v.username = username →
          exposedRow hashing v = false) := by
  have hclean : ∀ v : User, v.hashedPassword = hashing.hashPassword c.salt password →
      holdsOneOf hashing mcpKnownDefaultPasswords v = false :=
    fun v hv ↦ not_holds_hash hsound (List.Subset.refl _) (usableMcp_not_default hpassword) hv
  unfold ensureServiceUser
  split
  · next hreserved => exact ⟨hs.same, fun _ h ↦ by rw [hreserved] at h; cases h⟩
  next hreserved =>
  have hname : username ≠ adminName := by
    rintro rfl
    exact hreserved adminName_reserved
  split
  · next hbad =>
    obtain ⟨-, hgood⟩ := Option.filter_eq_some_iff.mp hpassword
    have := of_decide_eq_true hgood
    exact absurd hbad (not_or.mpr this)
  dsimp only
  split
  · next hfind =>
    have hnew : ∀ u ∈ s.users, u.username ≠ username := fun u hu h ↦
      find?_eq_none.mp hfind u hu (by simpa using h)
    split
    · exact ⟨hs.same, fun h ↦ absurd rfl h⟩
    · refine ⟨hs.unchanged (.of_insert rfl hnew (adminHolds_of_ne hname) ?_)
        (fun u hu _ ↦ mem_append_left _ hu) rfl rfl, fun _ _ v hv hvname ↦ ?_⟩
      · rw [exposedRow, hclean _ rfl, Bool.and_false]
      · obtain hv | hv := mem_append.mp hv
        · exact absurd hvname (hnew v hv)
        · rw [mem_singleton.mp hv, exposedRow, hclean _ rfl, Bool.and_false]
  next user hfind =>
  have huser : user ∈ s.users := mem_of_find?_eq_some hfind
  have husername : user.username = username := by simpa using find?_some hfind
  split
  · next hrefused =>
    simp only [Bool.and_eq_true, Bool.not_eq_true'] at hrefused
    refine ⟨hs.same, fun _ _ v hv hvname ↦ ?_⟩
    obtain rfl := eq_of_username hs.names hv huser (hvname.trans husername.symm)
    rw [exposedRow, hrefused.1, Bool.and_false, Bool.false_and]
  next hours =>
  split
  · exact ⟨hs.same, fun h ↦ absurd rfl h⟩
  refine ⟨hs.unchanged (.of_map rfl fun u hu ↦ ?_) (fun u hu hadmin ↦ ?_) rfl rfl,
    fun _ _ v hv hvname ↦ ?_⟩
  · split
    · next h =>
      obtain rfl := eq_of_username hs.names hu huser (h.trans husername.symm)
      refine ⟨rfl, rfl, rfl, fun hperson ↦ ?_, fun hholds ↦ ?_, fun hexposed ↦ ?_⟩
      · simp only [ofPerson, Bool.and_eq_true, Bool.not_eq_true'] at hperson
        simp [hperson.1.2, hperson.2] at hours
      · rw [adminHolds_of_ne (h ▸ hname)] at hholds
        cases hholds
      · rw [exposedRow, hclean _ rfl, Bool.and_false] at hexposed
        cases hexposed
    · exact .refl u
  · refine mem_map.mpr ⟨u, hu, ?_⟩
    rw [if_neg]
    exact fun h ↦ hname (h.symm.trans hadmin)
  · obtain ⟨u, hu, rfl⟩ := mem_map.mp hv
    split
    · rw [exposedRow, hclean _ rfl, Bool.and_false]
    · next h => rw [if_neg h] at hvname; exact absurd hvname h

end Transactions

/-! ### The replicas -/

/-- What the stale service accounts are disabled under: `admin` is none of them, and where the
configured name is a reserved one, the row that is spared holds no shipped default. -/
def SparesNoDefault (hashing : PasswordHashing) (s : AuthStore) (_ : ι) (o : SeedOp)
    (_ : SeedChoice) : Prop :=
  match o with
  | .disableStale config =>
    (∀ u ∈ s.users, u.username = adminName → isStale (skipUsername config) u = false) ∧
      (isReservedHumanUsername config.mcpServiceUsername = true →
        ∀ u ∈ s.users, skipUsername config = some u.username → exposedRow hashing u = false)
  | _ => True

instance (s : AuthStore) (i : ι) (o : SeedOp) (c : SeedChoice) :
    Decidable (SparesNoDefault hashing s i o c) :=
  match o with
  | .disableStale _ => inferInstanceAs (Decidable (_ ∧ _))
  | .countUsers | .createAdmin _ | .rotateAdmin _ | .ensureService _ _ => isTrue trivial

/-- No shipped default comes back. -/
structure Settles (hashing : PasswordHashing) (s t : AuthStore) : Prop where
  admin : AdminClean hashing s → AdminClean hashing t
  exposed : ∀ v ∈ t.users, exposedRow hashing v = true →
    ∃ u ∈ s.users, u.username = v.username ∧ exposedRow hashing u = true

theorem Settles.refl (s : AuthStore) : Settles hashing s s :=
  ⟨fun h ↦ h, fun v hv h ↦ ⟨v, hv, rfl, h⟩⟩

theorem Settles.trans {s t u : AuthStore} (hst : Settles hashing s t) (htu : Settles hashing t u) :
    Settles hashing s u where
  admin h := htu.admin (hst.admin h)
  exposed v hv h := by
    obtain ⟨w, hw, hname, hexposed⟩ := htu.exposed v hv h
    obtain ⟨x, hx, hname', hexposed'⟩ := hst.exposed w hw hexposed
    exact ⟨x, hx, hname'.trans hname, hexposed'⟩

theorem Transacts.settles {start : List User} {s t : AuthStore} (h : Transacts hashing start s t) :
    Settles hashing s t :=
  ⟨h.rewrites.admin, fun _ hv ↦ h.rewrites.exposed hv⟩

def seeding (hashing : PasswordHashing) (ι : Type) (start : List User) :
    Contract AuthStore ι SeedChoice SeedOp where
  inv := SeedInv hashing start
  guard := SparesNoDefault hashing
  rely _ := Settles hashing
  guarantee _ := Settles hashing

theorem seeding_coherent (start : List User) : (seeding hashing ι start).Coherent where
  rely_refl _ := Settles.refl
  rely_trans _ _ _ _ := Settles.trans
  guarantee_rely _ _ _ _ _ h := h

/-- No active service account holds a shipped default. -/
def ServicesClean (hashing : PasswordHashing) (s : AuthStore) : Prop :=
  ∀ u ∈ s.users, exposedRow hashing u = false

/-- Only the account that is about to be reconciled may hold a shipped default. -/
def OnlySpared (hashing : PasswordHashing) (config : SeedConfig) (s : AuthStore) : Prop :=
  ∀ u ∈ s.users, exposedRow hashing u = true → skipUsername config = some u.username ∧
    isReservedHumanUsername config.mcpServiceUsername = false

section Replica

variable {start : List User} {s t : AuthStore} {config : SeedConfig} {i : ι}

theorem OnlySpared.settles (h : OnlySpared hashing config s) (hst : Settles hashing s t) :
    OnlySpared hashing config t := by
  intro v hv hexposed
  obtain ⟨u, hu, hname, hexposed'⟩ := hst.exposed v hv hexposed
  exact hname ▸ h u hu hexposed'

theorem ServicesClean.settles (h : ServicesClean hashing s) (hst : Settles hashing s t) :
    ServicesClean hashing t := by
  intro v hv
  rw [Bool.eq_false_iff]
  intro hexposed
  obtain ⟨u, hu, -, hexposed'⟩ := hst.exposed v hv hexposed
  rw [h u hu] at hexposed'
  cases hexposed'

theorem seedHandle_some {o : SeedOp} {c : SeedChoice} {r : SeedRes o}
    (h : seedHandle hashing i o c s = some (r, t)) :
    c.Drawn s ∧ (transaction hashing c s o).1 = r ∧ (transaction hashing c s o).2 = t := by
  simp only [seedHandle] at h
  split at h
  · next hc =>
    have h := Option.some.inj h
    exact ⟨hc, congrArg Prod.fst h, congrArg Prod.snd h⟩
  · cases h

/-- `admin` is left without a shipped default. -/
theorem seedAdminUser_safe (hsound : hashing.Sound) :
    Safe (seedHandle hashing) (seeding hashing ι start) i (seedAdminUser config)
      (fun r t ↦ r = .ok () → AdminClean hashing t) s := by
  intro t _ ht c r u _ hstep
  obtain ⟨-, rfl, rfl⟩ := seedHandle_some hstep
  refine ⟨ht, Settles.refl _, ?_⟩
  change Safe _ _ _ (if 0 < t.users.length then _ else _) _ t
  split
  · intro v hrely hv c r u _ hstep
    obtain ⟨hc, rfl, rfl⟩ := seedHandle_some hstep
    obtain ⟨hspec, hclean⟩ := rotateKnownDefaultAdmin_spec config hsound hv hc
    exact ⟨hspec.inv, hspec.settles, fun w hw _ hr ↦ hw.admin (hclean hr)⟩
  · next hempty =>
    have hnone : AdminClean hashing t := by
      intro u hu
      exact absurd (length_pos_of_mem hu) hempty
    intro v hrely hv c r u _ hstep
    obtain ⟨hc, rfl, rfl⟩ := seedHandle_some hstep
    have hspec := createAdmin_spec config hsound hv hc
    exact ⟨hspec.inv, hspec.settles, fun w hw _ _ ↦ hw.admin (hspec.settles.admin (hrely.admin hnone))⟩

theorem reconcileService_safe (hsound : hashing.Sound) (hs : AdminClean hashing s)
    (hspared : OnlySpared hashing config s) :
    Safe (seedHandle hashing) (seeding hashing ι start) i (reconcileService config)
      (fun r t ↦ r = .ok () → AdminClean hashing t ∧ ServicesClean hashing t) s := by
  unfold reconcileService
  split
  · next hnone =>
    have hclean : ServicesClean hashing s := by
      intro u hu
      rw [Bool.eq_false_iff]
      intro hexposed
      obtain ⟨hskip, -⟩ := hspared u hu hexposed
      rw [skipUsername, hnone] at hskip
      cases hskip
    exact fun t hst _ _ ↦ ⟨hst.admin hs, hclean.settles hst⟩
  · next password hpassword =>
    intro t hst ht c r u _ hstep
    obtain ⟨hc, rfl, rfl⟩ := seedHandle_some hstep
    obtain ⟨hspec, hclean⟩ := ensureServiceUser_spec (c := c) config.mcpServiceUsername hsound ht
      hpassword
    refine ⟨hspec.inv, hspec.settles, ?_⟩
    have hsettles := hst.trans hspec.settles
    have hservices : (transaction hashing c t (.ensureService config.mcpServiceUsername password)).1 ≠
        .error .database → ServicesClean hashing
          (transaction hashing c t (.ensureService config.mcpServiceUsername password)).2 := by
      intro hr v hv
      rw [Bool.eq_false_iff]
      intro hexposed
      obtain ⟨hskip, hreserved⟩ := hspared.settles hsettles v hv hexposed
      rw [skipUsername, hpassword] at hskip
      have := hclean hr hreserved v hv (Option.some.inj hskip).symm
      rw [hexposed] at this
      cases this
    -- Only an error of the database keeps the step from returning.
    dsimp only [Prog.bind]
    split
    · next hvalue =>
      have hne : (transaction hashing c t
          (.ensureService config.mcpServiceUsername password)).1 ≠ .error .database := by
        rw [hvalue]
        nofun
      exact fun w hw _ _ ↦ ⟨hw.admin (hsettles.admin hs), (hservices hne).settles hw⟩
    · refine fun w hw _ hr ↦ ⟨hw.admin (hsettles.admin hs), (hservices ?_).settles hw⟩
      rw [hr]
      nofun

theorem seedAuthStep_safe (hsound : hashing.Sound) (hs : SeedInv hashing start s) :
    Safe (seedHandle hashing) (seeding hashing ι start) i (seedAuthStep config)
      (fun r t ↦ r = .ok () → AdminClean hashing t ∧ ServicesClean hashing t) s := by
  refine Safe.bind (seeding_coherent start) ?_ hs
  refine Safe.mono (seedAdminUser_safe hsound) fun seeded t ht hadmin ↦ ?_
  cases seeded with
  | error e => exact fun _ _ _ ↦ nofun
  | ok =>
    intro u htu hu c r v hguard hstep
    obtain ⟨hc, rfl, rfl⟩ := seedHandle_some hstep
    obtain ⟨hspec, honly⟩ := disableStaleServiceUser_spec hsound hu hc hguard.1
    refine ⟨hspec.inv, hspec.settles, ?_⟩
    have hclean : AdminClean hashing _ := hspec.settles.admin (htu.admin (hadmin rfl))
    dsimp only [Prog.bind]
    split
    · exact fun _ _ _ ↦ nofun
    · next hok =>
      refine reconcileService_safe hsound hclean fun w hw hexposed ↦ ?_
      have hskip := honly hok w hw hexposed
      refine ⟨hskip, ?_⟩
      rw [Bool.eq_false_iff]
      intro hreserved
      obtain ⟨x, hx, hname, hexposed'⟩ := hspec.settles.exposed w hw hexposed
      rw [hguard.2 hreserved x hx (by rwa [hname])] at hexposed'
      cases hexposed'

end Replica

def replicas (users : List User) (credentialFile : Option Text) (nextUserId : Nat)
    (configs : ι → SeedConfig) : World AuthStore ι (Except SeedError Unit) SeedOp SeedRes :=
  ⟨⟨users, credentialFile, nextUserId, none⟩, fun i ↦ seedAuthStep (configs i)⟩

/-- Seeding leaves no published default and takes over no human account, for any replicas and
failures, where the service account that is spared holds no shipped default under a reserved name and
`admin` is no stale service account. -/
theorem seeding_leaves_no_default [DecidableEq ι] (hsound : hashing.Sound) {users : List User}
    (hunique : (users.map (·.username)).Nodup) {credentialFile : Option Text} {nextUserId : Nat}
    {configs : ι → SeedConfig} {es : List (ι × SeedChoice)}
    {w : World AuthStore ι (Except SeedError Unit) SeedOp SeedRes}
    (hrun : Run (step (seedHandle hashing)) (Guarded (SparesNoDefault hashing))
      (replicas users credentialFile nextUserId configs) es w) :
    Kept users w.store.users ∧ FileHolds hashing w.store ∧
      ∀ i, (w.threads i).result? = some (.ok ()) →
        AdminClean hashing w.store ∧ ServicesClean hashing w.store := by
  have hstart : SeedInv hashing users ⟨users, credentialFile, nextUserId, none⟩ :=
    ⟨hunique, .refl users, nofun, nofun⟩
  have hsafe := Run.safe (Q := fun _ r t ↦ r = .ok () → AdminClean hashing t ∧ ServicesClean hashing t)
    (seeding_coherent users) hrun ⟨hstart, fun i ↦ seedAuthStep_safe hsound hstart⟩
  refine ⟨hsafe.1.kept, hsafe.1.file, fun i hi ↦ ?_⟩
  exact (hsafe.2 i).result (seeding_coherent users) hsafe.1 hi rfl

def plainPasswords : PasswordHashing := ⟨fun _ p ↦ p, fun p hashed ↦ p == hashed⟩

theorem plainPasswords_sound : plainPasswords.Sound := fun _ _ _ _ h ↦ beq_iff_eq.mp h

/-- The passwords that are drawn, with no failure. -/
def calmChoice : SeedChoice :=
  ⟨0, List.replicate 24 'g', fun _ ↦ List.replicate 43 's', .written, true⟩

/-- The accounts of an old release: both hold a shipped default. -/
def oldRelease : List User :=
  [⟨0, adminName, localEmail adminName, "changeme".toList, .admin, true, false, false⟩,
    ⟨1, "mcp".toList, localEmail "mcp".toList, "mcp-service-changeme".toList, .admin, true, false, true⟩]

theorem seeding_leaves_no_default_oldRelease :
    ∃ w, Run (step (seedHandle plainPasswords)) (Guarded (SparesNoDefault plainPasswords))
        (replicas oldRelease none 2 fun _ : Fin 2 ↦ {})
        [(0, calmChoice), (1, calmChoice), (0, calmChoice), (1, calmChoice), (0, calmChoice)] w ∧
      (w.threads 0).result? = some (.ok ()) ∧
      (w.store.users.map fun u ↦ (u.hashedPassword.length, u.isActive)) = [(24, true), (43, false)] ∧
      w.store.credentialFile = some (calmChoice.generated ++ ['\n']) ∧
      AdminClean plainPasswords w.store ∧ ServicesClean plainPasswords w.store := by
  obtain ⟨w, hrun, hresult, haccounts, hfile⟩ : ∃ w,
      Run (step (seedHandle plainPasswords)) (Guarded (SparesNoDefault plainPasswords))
        (replicas oldRelease none 2 fun _ : Fin 2 ↦ {})
        [(0, calmChoice), (1, calmChoice), (0, calmChoice), (1, calmChoice), (0, calmChoice)] w ∧
      (w.threads 0).result? = some (.ok ()) ∧
      (w.store.users.map fun u ↦ (u.hashedPassword.length, u.isActive)) = [(24, true), (43, false)] ∧
      w.store.credentialFile = some (calmChoice.generated ++ ['\n']) :=
    Run.exists_of_exec (by decide +kernel)
  obtain ⟨-, -, hclean⟩ := seeding_leaves_no_default plainPasswords_sound (by decide +kernel) hrun
  exact ⟨w, hrun, hresult, haccounts, hfile, hclean 0 hresult⟩

/-- A release that did not refuse the name yet created the service account `Admin`. -/
def adminTwin : List User :=
  [⟨0, adminName, localEmail adminName, "own password".toList, .admin, true, false, false⟩,
    ⟨1, "Admin".toList, localEmail "Admin".toList, "mcp-service-changeme".toList, .admin, true, false,
      true⟩]

/-- The row of the configured name is spared, and then it is not reconciled. -/
theorem seeding_spares_default :
    ∃ w, Run (step (seedHandle plainPasswords)) Free
        (replicas adminTwin none 2 fun _ : Unit ↦
          { mcpServiceUsername := "Admin".toList, mcpServicePassword := some "a real secret".toList })
        [((), calmChoice), ((), calmChoice), ((), calmChoice), ((), calmChoice)] w ∧
      (w.threads ()).result? = some (.ok ()) ∧ ¬ ServicesClean plainPasswords w.store := by
  unfold ServicesClean
  exact Run.exists_of_exec (by decide +kernel)

end BnkForge.Auth
