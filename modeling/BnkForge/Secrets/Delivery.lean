import BnkForge.Secrets.Service

/-!
# What an execution gets of the secrets

After any operations on the secrets, the ones of a module are delivered exactly where their file
names lead to different places below the work directory, their contents are not empty and their
variables do not collide.
-/

namespace BnkForge.Secrets

open Transition Python List

/-! ### The rows and what they were given -/

/-- The column holds the text as `encrypt_value` left it. -/
def Sealed (cipher : Cipher) (column : Option Text) (text : Text) : Prop :=
  ∃ nonce, column = encryptValue cipher nonce text

def Holds (cipher : Cipher) (content : Content) (r : ProjectSecret) : Prop :=
  match content with
  | .file bytes => r.secretType = .file ∧ Sealed cipher r.fileContentEncrypted (b64encode bytes)
  | .value text => r.secretType = .value ∧ Sealed cipher r.valueEncrypted text

/-- Rows are told apart by their ids, and each holds what it was last given. -/
structure WellFormed (cipher : Cipher) (v : Vault) : Prop where
  nodup : (v.rows.map (·.id)).Nodup
  below : ∀ r ∈ v.rows, r.id < v.nextId
  holds : ∀ r ∈ v.rows, Holds cipher (v.contents r.id) r

section

variable {cipher : Cipher} {v : Vault} {row : ProjectSecret} {content : Content} {nonce : Nat}
  {target : Target}

theorem map_id_put : (v.put row).rows.map (·.id) = v.rows.map (·.id) := by
  simp only [Vault.put, map_map]
  apply map_congr_left
  intro r _
  simp only [Function.comp_apply]
  split
  · next h => exact h.symm
  · rfl

theorem WellFormed.put_record (h : WellFormed cipher v) (row : ProjectSecret)
    (hrow : ∃ r ∈ v.rows, r.id = row.id)
    (hholds : Holds cipher content row) : WellFormed cipher ((v.put row).record row.id content) where
  nodup := by
    have := h.nodup
    rwa [← map_id_put] at this
  below := by
    intro r hr
    obtain ⟨old, hold, rfl⟩ := mem_map.mp hr
    obtain ⟨r₀, hr₀, hid⟩ := hrow
    split
    · rw [← hid]
      exact h.below r₀ hr₀
    · exact h.below old hold
  holds := by
    intro r hr
    obtain ⟨old, hold, rfl⟩ := mem_map.mp hr
    simp only [Vault.record, Vault.put]
    split
    · rw [Function.update_self]
      exact hholds
    · next hne =>
      rw [Function.update_of_ne hne]
      exact h.holds old hold

theorem WellFormed.put (h : WellFormed cipher v) (hrow : ∃ r ∈ v.rows, r.id = row.id)
    (hholds : Holds cipher (v.contents row.id) row) : WellFormed cipher (v.put row) := by
  have hsame : (v.put row).record row.id (v.contents row.id) = v.put row := by
    rw [Vault.record]
    congr 1
    exact Function.update_eq_self _ _
  have := h.put_record row hrow hholds
  rwa [hsame] at this

theorem WellFormed.add_record (h : WellFormed cipher v)
    (hholds : Holds cipher content { row with id := v.nextId }) :
    WellFormed cipher ((v.add row).record v.nextId content) where
  nodup := by
    simp only [Vault.add, Vault.record, map_append, map_cons, map_nil]
    rw [nodup_append]
    refine ⟨h.nodup, by simp, ?_⟩
    intro a ha b hb
    obtain ⟨r, hr, rfl⟩ := mem_map.mp ha
    rw [mem_singleton.mp hb]
    exact Nat.ne_of_lt (h.below r hr)
  below := by
    intro r hr
    rcases mem_append.mp hr with hr | hr
    · exact Nat.lt_succ_of_lt (h.below r hr)
    · rw [mem_singleton.mp hr]
      exact Nat.lt_succ_self _
  holds := by
    intro r hr
    rcases mem_append.mp hr with hr | hr
    · simp only [Vault.record, Vault.add]
      rw [Function.update_of_ne (Nat.ne_of_lt (h.below r hr))]
      exact h.holds r hr
    · rw [mem_singleton.mp hr]
      simp only [Vault.record, Function.update_self]
      exact hholds

theorem WellFormed.upsertSecret {projectId : Nat} {name : Text}
    {fields : ProjectSecret → ProjectSecret} (h : WellFormed cipher v)
    (hid : ∀ r, (fields r).id = r.id)
    (hfields : ∀ r n, Holds cipher content { fields r with id := n }) :
    WellFormed cipher (upsertSecret projectId name fields content v) := by
  have hholds : ∀ r, Holds cipher content (fields r) := fun r ↦ hfields r (fields r).id
  unfold Secrets.upsertSecret
  split
  · exact h
  · split
    · next inactive hfind =>
      have hsame := hid { inactive with isActive := true }
      have hrow := h.put_record (fields { inactive with isActive := true })
        ⟨inactive, mem_of_find?_eq_some hfind, hsame.symm⟩ (hholds _)
      rwa [hsame] at hrow
    · exact h.add_record (hfields _ _)

theorem holds_fileFields {filename : Option Text} {bytes : Bytes} (r : ProjectSecret) (n : Nat) :
    Holds cipher (.file bytes) { fileFields cipher nonce filename bytes target r with id := n } :=
  ⟨rfl, nonce, rfl⟩

theorem holds_valueFields {text : Text} (r : ProjectSecret) (n : Nat) :
    Holds cipher (.value text) { valueFields cipher nonce text target r with id := n } :=
  ⟨rfl, nonce, rfl⟩

theorem mem_of_getSecret {projectId id : Nat} {secret : ProjectSecret}
    (h : v.getSecret projectId id = some secret) : secret ∈ v.rows ∧ secret.id = id := by
  have hfind := find?_some h
  simp only [Bool.and_eq_true, beq_iff_eq] at hfind
  exact ⟨mem_of_find?_eq_some h, hfind.1.1⟩

theorem WellFormed.step {v' : Vault} {e : Event} (h : WellFormed cipher v)
    (hstep : vaultStep cipher v e = some v') : WellFormed cipher v' := by
  cases e with
  | createFile nonce projectId name filename bytes target =>
    cases hstep
    exact h.upsertSecret (fun _ ↦ rfl) holds_fileFields
  | createValue nonce projectId name value target =>
    cases hstep
    exact h.upsertSecret (fun _ ↦ rfl) holds_valueFields
  | updateFile nonce projectId id file target =>
    cases hstep
    unfold updateFileSecret
    split
    · exact h
    · next secret hget =>
      obtain ⟨hmem, rfl⟩ := mem_of_getSecret hget
      split
      · exact h
      · next htype =>
        split
        · exact h.put ⟨secret, hmem, rfl⟩ (h.holds secret hmem)
        · exact h.put_record (retarget target { secret with filename := _, fileContentEncrypted := _ })
            ⟨secret, hmem, rfl⟩ ⟨not_not.mp htype, nonce, rfl⟩
  | updateValue nonce projectId id value target =>
    cases hstep
    unfold updateValueSecret
    split
    · exact h
    · next secret hget =>
      obtain ⟨hmem, rfl⟩ := mem_of_getSecret hget
      split
      · exact h
      · next htype =>
        split
        · exact h.put ⟨secret, hmem, rfl⟩ (h.holds secret hmem)
        · exact h.put_record (retarget target { secret with valueEncrypted := _ })
            ⟨secret, hmem, rfl⟩ ⟨not_not.mp htype, nonce, rfl⟩
  | delete projectId id =>
    cases hstep
    unfold deleteSecret
    split
    · exact h
    · next secret hget =>
      obtain ⟨hmem, rfl⟩ := mem_of_getSecret hget
      exact h.put ⟨secret, hmem, rfl⟩ (h.holds secret hmem)
  | reorder rows =>
    simp only [vaultStep] at hstep
    split at hstep
    · next hperm =>
      cases hstep
      exact ⟨(hperm.map _).nodup_iff.mpr h.nodup, fun r hr ↦ h.below r (hperm.mem_iff.mp hr),
        fun r hr ↦ h.holds r (hperm.mem_iff.mp hr)⟩
    · cases hstep

theorem wellFormed_of_run {es : List Event} (hrun : Run (vaultStep cipher) Free Vault.empty es v) :
    WellFormed cipher v :=
  hrun.invariant ⟨nodup_nil, nofun, nofun⟩ fun _ _ _ h _ hst ↦ h.step hst

end

/-! ### What exact delivery is -/

def ProjectSecret.wantedBy (m : Text) (s : ProjectSecret) : Bool :=
  (present s.targetModulePath).all (· == m)

def Vault.wanted (v : Vault) (projectId : Nat) (m : Text) : List ProjectSecret :=
  (v.rows.filter fun r ↦ r.projectId == projectId && r.isActive).filter (·.wantedBy m)

/-- A place below `work_dir/secrets`. -/
def WorkDir.Inside (w : WorkDir) (l : Location) : Prop := w.secretsAt <+: l ∧ l ≠ w.secretsAt

def placeOf (w : WorkDir) (fs : FileSystem) (s : ProjectSecret) : Option Location :=
  (fs.makedirs w.secretsAt).locate w.secretsAt s.fileName

def assigned (v : Vault) (w : WorkDir) (s : ProjectSecret) : Option (Text × Text) :=
  match v.contents s.id with
  | .file _ => (present s.targetVariableName).map (·, joinPath w.secretsDir s.fileName)
  | .value text => some (s.variableName, text)

structure Delivered (v : Vault) (w : WorkDir) (fs : FileSystem) (out : Prepared) (s : ProjectSecret) :
    Prop where
  file : ∀ bytes, v.contents s.id = .file bytes →
    ∃ l, placeOf w fs s = some l ∧ w.Inside l ∧ out.files l = some bytes
  assigns : ∀ name text, assigned v w s = some (name, text) → out.values name = some (some text)

def Apart (v : Vault) (projectId : Nat) (w : WorkDir) (fs : FileSystem) (m : Text) : Prop :=
  ∀ s ∈ v.wanted projectId m, ∀ s' ∈ v.wanted projectId m, s.id ≠ s'.id → s.secretType = .file →
    s'.secretType = .file → placeOf w fs s ≠ placeOf w fs s'

/-- The secrets of the module are delivered exactly: each one with what it was last given, files in
places of their own below `work_dir/secrets` and nowhere else, and nothing depends on the secrets
that are targeted at other modules. -/
def DeliveredExactly (cipher : Cipher) (v : Vault) (projectId : Nat) (w : WorkDir) (fs : FileSystem)
    (m : Text) : Prop :=
  ∃ out, prepareSecretsForExecution cipher v projectId w (some m) fs = .ok out ∧
    (∀ s ∈ v.wanted projectId m, Delivered v w fs out s) ∧ Apart v projectId w fs m ∧
    (∀ l, ¬ w.Inside l → out.files l = fs.files l) ∧
    ∀ v' : Vault, v'.wanted projectId m = v.wanted projectId m →
      prepareSecretsForExecution cipher v' projectId w (some m) fs = .ok out

/-- The module path is not empty, no secret of the module is empty, the file names lead to different
places below `work_dir/secrets`, and no two secrets set a variable to different texts. -/
structure Deliverable (v : Vault) (projectId : Nat) (w : WorkDir) (fs : FileSystem) (m : Text) :
    Prop where
  modulePath : m ≠ []
  content : ∀ s ∈ v.wanted projectId m, v.contents s.id ≠ .file [] ∧ v.contents s.id ≠ .value []
  inside : ∀ s ∈ v.wanted projectId m, s.secretType = .file → ∃ l, placeOf w fs s = some l ∧ w.Inside l
  apart : Apart v projectId w fs m
  agree : ∀ s ∈ v.wanted projectId m, ∀ s' ∈ v.wanted projectId m, ∀ name text text',
    assigned v w s = some (name, text) → assigned v w s' = some (name, text') → text = text'

/-! ### One secret after another -/

section

variable {cipher : Cipher} {v : Vault} {w : WorkDir} {fs : FileSystem} {out : Prepared}
  {s : ProjectSecret} {m : Text} {projectId : Nat}

theorem decryptValue_of_sealed {column : Option Text} {text : Text} (h : Sealed cipher column text) :
    decryptValue cipher column = .ok (if text = [] then none else some text) := by
  obtain ⟨nonce, rfl⟩ := h
  unfold encryptValue
  split
  · rfl
  · simp [decryptValue, cipher.encrypt_ne_nil, cipher.decrypt_encrypt]

theorem getDecryptedFileContent_of_sealed {bytes : Bytes}
    (h : Sealed cipher s.fileContentEncrypted (b64encode bytes)) :
    getDecryptedFileContent cipher s = if bytes = [] then .error .typeError else .ok bytes := by
  have hdecrypt := decryptValue_of_sealed h
  simp only [b64encode_eq_nil_iff] at hdecrypt
  rw [getDecryptedFileContent, hdecrypt]
  by_cases hbytes : bytes = []
  · simp only [if_pos hbytes]
  · simp only [if_neg hbytes, b64decode_b64encode]

def Prepared.addFile (w : WorkDir) (s : ProjectSecret) (l : Location) (bytes : Bytes) (out : Prepared) :
    Prepared :=
  let written : Prepared :=
    { out with
      filePaths := out.filePaths ++ [joinPath w.secretsDir s.fileName]
      files := Function.update out.files l (some bytes) }
  match present s.targetVariableName with
  | some name => written.assign name (some (joinPath w.secretsDir s.fileName))
  | none => written

theorem deliver_file {bytes : Bytes} (hcontent : v.contents s.id = .file bytes)
    (h : Holds cipher (v.contents s.id) s) :
    deliver cipher w (fs.makedirs w.secretsAt) out s =
      if bytes = [] then .error .typeError
      else
        match placeOf w fs s with
        | none => .error .osError
        | some l => .ok (out.addFile w s l bytes) := by
  rw [hcontent] at h
  obtain ⟨htype, hsealed⟩ := h
  unfold deliver placeOf Prepared.addFile
  simp only [htype, getDecryptedFileContent_of_sealed hsealed]
  by_cases hbytes : bytes = []
  · simp only [if_pos hbytes]
  · simp only [if_neg hbytes]
    cases (fs.makedirs w.secretsAt).locate w.secretsAt s.fileName with
    | none => rfl
    | some l =>
      simp only
      cases present s.targetVariableName <;> rfl

theorem deliver_value {text : Text} (hcontent : v.contents s.id = .value text)
    (h : Holds cipher (v.contents s.id) s) :
    deliver cipher w (fs.makedirs w.secretsAt) out s =
      .ok (out.assign s.variableName (if text = [] then none else some text)) := by
  rw [hcontent] at h
  obtain ⟨htype, hsealed⟩ := h
  simp only [deliver, htype, getDecryptedValue, decryptValue_of_sealed hsealed]

theorem secretType_of_holds_file {bytes : Bytes} (h : Holds cipher (v.contents s.id) s)
    (hcontent : v.contents s.id = .file bytes) : s.secretType = .file := by
  rw [hcontent] at h
  exact h.1

theorem content_of_secretType (h : Holds cipher (v.contents s.id) s) (htype : s.secretType = .file) :
    ∃ bytes, v.contents s.id = .file bytes := by
  cases hcontent : v.contents s.id with
  | file bytes => exact ⟨bytes, rfl⟩
  | value text =>
    rw [hcontent] at h
    cases htype.symm.trans h.1

theorem foldlM_filter {α β : Type} {ε : Type} {f : β → α → Except ε β} {skip : α → Bool}
    {xs : List α} {b : β} :
    xs.foldlM (fun b x ↦ if skip x then .ok b else f b x) b =
      (xs.filter fun x ↦ !skip x).foldlM f b := by
  induction xs generalizing b with
  | nil => rfl
  | cons x xs ih =>
    cases hx : skip x with
    | true =>
      simp only [foldlM_cons, hx, if_true, filter_cons, Bool.not_true]
      exact ih
    | false =>
      simp only [foldlM_cons, hx, filter_cons, Bool.not_false, if_true]
      congr 1
      funext b'
      exact ih

theorem not_skippedFor (hm : m ≠ []) : (!s.skippedFor (some m)) = s.wantedBy m := by
  have hpresent : present (some m) = some m := by
    cases m with
    | nil => exact absurd rfl hm
    | cons c cs => rfl
  simp only [ProjectSecret.skippedFor, ProjectSecret.wantedBy, hpresent]
  cases present s.targetModulePath <;> simp [bne]

theorem prepare_eq (hm : m ≠ []) :
    prepareSecretsForExecution cipher v projectId w (some m) fs =
      (v.wanted projectId m).foldlM (deliver cipher w (fs.makedirs w.secretsAt))
        ⟨fun _ ↦ none, [], fs.files⟩ := by
  unfold prepareSecretsForExecution Vault.wanted
  rw [foldlM_filter]
  simp only [not_skippedFor hm]

theorem prepare_eq_of_empty :
    prepareSecretsForExecution cipher v projectId w (some []) fs =
      (v.rows.filter fun r ↦ r.projectId == projectId && r.isActive).foldlM
        (deliver cipher w (fs.makedirs w.secretsAt)) ⟨fun _ ↦ none, [], fs.files⟩ := rfl

/-! ### Where every secret can be delivered -/

def addSecret (v : Vault) (w : WorkDir) (fs : FileSystem) (out : Prepared) (s : ProjectSecret) :
    Prepared :=
  match v.contents s.id, placeOf w fs s with
  | .file bytes, some l => out.addFile w s l bytes
  | .file _, none => out
  | .value text, _ => out.assign s.variableName (some text)

structure Fit (cipher : Cipher) (v : Vault) (w : WorkDir) (fs : FileSystem) (s : ProjectSecret) :
    Prop where
  holds : Holds cipher (v.contents s.id) s
  notEmpty : v.contents s.id ≠ .file [] ∧ v.contents s.id ≠ .value []
  place : s.secretType = .file → ∃ l, placeOf w fs s = some l

theorem deliver_eq_addSecret (h : Fit cipher v w fs s) :
    deliver cipher w (fs.makedirs w.secretsAt) out s = .ok (addSecret v w fs out s) := by
  cases hcontent : v.contents s.id with
  | file bytes =>
    obtain ⟨l, hl⟩ := h.place (secretType_of_holds_file h.holds hcontent)
    have hbytes : bytes ≠ [] := by
      rintro rfl
      exact h.notEmpty.1 hcontent
    rw [deliver_file hcontent h.holds, if_neg hbytes, addSecret, hcontent, hl]
  | value text =>
    have htext : text ≠ [] := by
      rintro rfl
      exact h.notEmpty.2 hcontent
    rw [deliver_value hcontent h.holds, if_neg htext, addSecret, hcontent]

theorem foldlM_deliver {S : List ProjectSecret} (h : ∀ s ∈ S, Fit cipher v w fs s) :
    S.foldlM (deliver cipher w (fs.makedirs w.secretsAt)) out = .ok (S.foldl (addSecret v w fs) out) := by
  induction S generalizing out with
  | nil => rfl
  | cons s S ih =>
    rw [foldlM_cons, deliver_eq_addSecret (h s mem_cons_self)]
    exact ih fun s' hs' ↦ h s' (mem_cons_of_mem _ hs')

theorem addFile_values {l : Location} {bytes : Bytes} :
    (out.addFile w s l bytes).values = match present s.targetVariableName with
      | some name => Function.update out.values name (some (some (joinPath w.secretsDir s.fileName)))
      | none => out.values := by
  unfold Prepared.addFile
  cases present s.targetVariableName <;> rfl

theorem addFile_files {l : Location} {bytes : Bytes} :
    (out.addFile w s l bytes).files = Function.update out.files l (some bytes) := by
  unfold Prepared.addFile
  cases present s.targetVariableName <;> rfl

theorem addSecret_values (h : Fit cipher v w fs s) (x : Text) :
    (addSecret v w fs out s).values x = match assigned v w s with
      | some (name, text) => if x = name then some (some text) else out.values x
      | none => out.values x := by
  unfold addSecret assigned
  cases hcontent : v.contents s.id with
  | file bytes =>
    obtain ⟨l, hl⟩ := h.place (secretType_of_holds_file h.holds hcontent)
    simp only [hl, addFile_values]
    cases present s.targetVariableName with
    | none => rfl
    | some name => exact Function.update_apply _ _ _ _
  | value text => exact Function.update_apply _ _ _ _

theorem addSecret_files (l : Location) :
    (addSecret v w fs out s).files l = match v.contents s.id, placeOf w fs s with
      | .file bytes, some l' => if l = l' then some bytes else out.files l
      | _, _ => out.files l := by
  unfold addSecret
  cases v.contents s.id with
  | file bytes =>
    cases placeOf w fs s with
    | none => rfl
    | some l' =>
      simp only [addFile_files, Function.update_apply]
  | value text => rfl

theorem foldl_values {S : List ProjectSecret} {name text : Text} (h : ∀ s ∈ S, Fit cipher v w fs s)
    (hagree : ∀ s ∈ S, ∀ text', assigned v w s = some (name, text') → text' = text)
    (hset : (∃ s ∈ S, assigned v w s = some (name, text)) ∨ out.values name = some (some text)) :
    (S.foldl (addSecret v w fs) out).values name = some (some text) := by
  induction S generalizing out with
  | nil => exact hset.resolve_left (by simp)
  | cons s S ih =>
    rw [foldl_cons]
    apply ih (fun s' hs' ↦ h s' (mem_cons_of_mem _ hs'))
      (fun s' hs' ↦ hagree s' (mem_cons_of_mem _ hs'))
    rw [addSecret_values (h s mem_cons_self)]
    -- this secret sets the variable, or leaves it to the others
    cases hassigned : assigned v w s with
    | none =>
      rcases hset with ⟨s', hs', h'⟩ | hset
      · rcases mem_cons.mp hs' with rfl | hs'
        · rw [hassigned] at h'
          cases h'
        · exact Or.inl ⟨s', hs', h'⟩
      · exact Or.inr hset
    | some p =>
      obtain ⟨name', text'⟩ := p
      by_cases hname : name = name'
      · subst hname
        have htext := hagree s mem_cons_self text' hassigned
        right
        simp [htext]
      · rcases hset with ⟨s', hs', h'⟩ | hset
        · rcases mem_cons.mp hs' with rfl | hs'
          · rw [hassigned] at h'
            cases h'
            exact absurd rfl hname
          · exact Or.inl ⟨s', hs', h'⟩
        · right
          simp [hname, hset]

theorem foldl_files {S : List ProjectSecret} {l : Location} {bytes : Bytes}
    (hagree : ∀ s ∈ S, ∀ bytes', v.contents s.id = .file bytes' → placeOf w fs s = some l →
      bytes' = bytes)
    (hset : (∃ s ∈ S, v.contents s.id = .file bytes ∧ placeOf w fs s = some l) ∨
      out.files l = some bytes) :
    (S.foldl (addSecret v w fs) out).files l = some bytes := by
  induction S generalizing out with
  | nil => exact hset.resolve_left (by simp)
  | cons s S ih =>
    rw [foldl_cons]
    apply ih fun s' hs' ↦ hagree s' (mem_cons_of_mem _ hs')
    rw [addSecret_files]
    by_cases hhere : ∃ bytes', v.contents s.id = .file bytes' ∧ placeOf w fs s = some l
    · obtain ⟨bytes', hcontent, hplace⟩ := hhere
      right
      simp [hcontent, hplace, hagree s mem_cons_self bytes' hcontent hplace]
    · rcases hset with ⟨s', hs', h'⟩ | hset
      · rcases mem_cons.mp hs' with rfl | hs'
        · exact absurd ⟨bytes, h'⟩ hhere
        · exact Or.inl ⟨s', hs', h'⟩
      · right
        split
        · next bytes' l' hcontent hplace =>
          have hne : l ≠ l' := by
            rintro rfl
            exact hhere ⟨bytes', hcontent, hplace⟩
          rw [if_neg hne, hset]
        · exact hset

theorem foldl_files_of_ne {S : List ProjectSecret} {l : Location}
    (h : ∀ s ∈ S, ∀ bytes, v.contents s.id = .file bytes → placeOf w fs s ≠ some l) :
    (S.foldl (addSecret v w fs) out).files l = out.files l := by
  induction S generalizing out with
  | nil => rfl
  | cons s S ih =>
    rw [foldl_cons, ih fun s' hs' ↦ h s' (mem_cons_of_mem _ hs'), addSecret_files]
    split
    · next bytes l' hcontent hplace =>
      have hne : l ≠ l' := by
        rintro rfl
        exact h s mem_cons_self bytes hcontent hplace
      rw [if_neg hne]
    · rfl

theorem mem_rows_of_wanted (h : s ∈ v.wanted projectId m) : s ∈ v.rows :=
  mem_of_mem_filter (mem_of_mem_filter h)

theorem deliveredExactly_of_deliverable (hv : WellFormed cipher v)
    (h : Deliverable v projectId w fs m) : DeliveredExactly cipher v projectId w fs m := by
  have hholds : ∀ s ∈ v.wanted projectId m, Holds cipher (v.contents s.id) s :=
    fun s hs ↦ hv.holds s (mem_rows_of_wanted hs)
  have hfit : ∀ s ∈ v.wanted projectId m, Fit cipher v w fs s := by
    intro s hs
    refine ⟨hholds s hs, h.content s hs, fun htype ↦ ?_⟩
    obtain ⟨l, hl, -⟩ := h.inside s hs htype
    exact ⟨l, hl⟩
  have hout : ∀ v' : Vault, v'.wanted projectId m = v.wanted projectId m →
      prepareSecretsForExecution cipher v' projectId w (some m) fs =
        .ok ((v.wanted projectId m).foldl (addSecret v w fs) ⟨fun _ ↦ none, [], fs.files⟩) := by
    intro v' hv'
    rw [prepare_eq h.modulePath, hv', foldlM_deliver hfit]
  refine ⟨_, hout v rfl, fun s hs ↦ ⟨fun bytes hcontent ↦ ?_, fun name text hassigned ↦ ?_⟩, h.apart,
    fun l hl ↦ ?_, hout⟩
  · have htype := secretType_of_holds_file (hholds s hs) hcontent
    obtain ⟨l, hl, hinside⟩ := h.inside s hs htype
    refine ⟨l, hl, hinside, foldl_files ?_ (Or.inl ⟨s, hs, hcontent, hl⟩)⟩
    intro s' hs' bytes' hcontent' hl'
    by_cases hid : s'.id = s.id
    · rw [hid, hcontent] at hcontent'
      cases hcontent'
      rfl
    · exact absurd (hl'.trans hl.symm)
        (h.apart s' hs' s hs hid (secretType_of_holds_file (hholds s' hs') hcontent') htype)
  · exact foldl_values hfit (fun s' hs' text' h' ↦ h.agree s' hs' s hs name text' text h' hassigned)
      (Or.inl ⟨s, hs, hassigned⟩)
  · apply foldl_files_of_ne
    intro s hs bytes hcontent hplace
    obtain ⟨l', hl', hinside⟩ := h.inside s hs (secretType_of_holds_file (hholds s hs) hcontent)
    cases hl'.symm.trans hplace
    exact hl hinside

/-! ### Where a secret cannot be delivered -/

theorem foldlM_invariant {α β ε : Type} {f : β → α → Except ε β} {P : β → Prop} {xs : List α} {b b' : β}
    (h : xs.foldlM f b = .ok b') (hb : P b)
    (hstep : ∀ x ∈ xs, ∀ c d, P c → f c x = .ok d → P d) :
    P b' ∧ ∀ x ∈ xs, ∃ c d, f c x = .ok d := by
  induction xs generalizing b with
  | nil =>
    cases h
    exact ⟨hb, nofun⟩
  | cons x xs ih =>
    rw [foldlM_cons] at h
    cases hx : f b x with
    | error e =>
      rw [hx] at h
      cases h
    | ok c =>
      rw [hx] at h
      obtain ⟨hb', hall⟩ := ih h (hstep x mem_cons_self b c hb hx)
        fun y hy ↦ hstep y (mem_cons_of_mem _ hy)
      refine ⟨hb', fun y hy ↦ ?_⟩
      rcases mem_cons.mp hy with rfl | hy
      · exact ⟨b, c, hx⟩
      · exact hall y hy

def NoEmptyText (out : Prepared) : Prop := ∀ x, out.values x ≠ some (some [])

theorem joinPath_ne_nil {a b : Text} (ha : a ≠ []) : joinPath a b ≠ [] := by
  unfold joinPath
  split
  · next h =>
    rintro rfl
    cases h
  · split <;> simp [ha]

theorem secretsDir_ne_nil : w.secretsDir ≠ [] := by
  unfold WorkDir.secretsDir joinPath
  split
  · nofun
  · split <;> simp

theorem NoEmptyText.assign {name : Text} {value : Option Text} (h : NoEmptyText out)
    (hvalue : value ≠ some []) : NoEmptyText (out.assign name value) := by
  intro x
  simp only [Prepared.assign, Function.update_apply]
  split
  · simpa using hvalue
  · exact h x

theorem deliver_ok {out' : Prepared} (h : Holds cipher (v.contents s.id) s) (hout : NoEmptyText out)
    (hok : deliver cipher w (fs.makedirs w.secretsAt) out s = .ok out') :
    NoEmptyText out' ∧ v.contents s.id ≠ .file [] := by
  cases hcontent : v.contents s.id with
  | file bytes =>
    rw [deliver_file hcontent h] at hok
    split at hok
    · cases hok
    · next hbytes =>
      split at hok
      · cases hok
      · cases hok
        refine ⟨fun x ↦ ?_, by simpa using hbytes⟩
        rw [addFile_values]
        cases present s.targetVariableName with
        | none => exact hout x
        | some name =>
          simp only [Function.update_apply]
          split
          · simpa using joinPath_ne_nil secretsDir_ne_nil
          · exact hout x
  | value text =>
    rw [deliver_value hcontent h] at hok
    cases hok
    refine ⟨hout.assign ?_, nofun⟩
    split
    · nofun
    · next htext => simpa using htext

def foreignSecret (cipher : Cipher) (projectId : Nat) (text : Text) : ProjectSecret :=
  { id := 0, projectId := projectId, name := ['x'], targetModulePath := some ['x'],
    valueEncrypted := encryptValue cipher 0 text }

theorem wanted_foreignSecret (cipher : Cipher) (text : Text) :
    Vault.wanted { v with rows := v.rows ++ [foreignSecret cipher projectId text] } projectId [] =
      v.wanted projectId [] := by
  simp only [Vault.wanted, filter_append]
  have hforeign : ([foreignSecret cipher projectId text].filter
      fun r ↦ r.projectId == projectId && r.isActive).filter (·.wantedBy []) = [] := by
    simp [foreignSecret, ProjectSecret.wantedBy, present]
  rw [hforeign, append_nil]

theorem prepare_foreignSecret {text : Text} (htext : text ≠ [])
    (h : prepareSecretsForExecution cipher v projectId w (some []) fs = .ok out) :
    prepareSecretsForExecution cipher
        { v with rows := v.rows ++ [foreignSecret cipher projectId text] } projectId w (some []) fs =
      .ok (out.assign ['x'] (some text)) := by
  have hdecrypt : decryptValue cipher (encryptValue cipher 0 text) =
      .ok (if text = [] then none else some text) := decryptValue_of_sealed ⟨0, rfl⟩
  rw [if_neg htext] at hdecrypt
  have hforeign : [foreignSecret cipher projectId text].filter
      (fun r ↦ r.projectId == projectId && r.isActive) = [foreignSecret cipher projectId text] := by
    simp [foreignSecret]
  rw [prepare_eq_of_empty] at h ⊢
  rw [filter_append, hforeign, foldlM_append, h]
  simp only [foreignSecret, deliver, getDecryptedValue, hdecrypt, foldlM_cons, foldlM_nil]
  rfl

theorem modulePath_ne_nil (h : DeliveredExactly cipher v projectId w fs m) : m ≠ [] := by
  rintro rfl
  obtain ⟨out, hout, -, -, -, hsame⟩ := h
  -- a foreign secret whose variable is not already set to its text
  obtain ⟨text, htext, hvalue⟩ : ∃ text : Text, text ≠ [] ∧ out.values ['x'] ≠ some (some text) := by
    cases hx : out.values ['x'] with
    | none => exact ⟨['x'], nofun, nofun⟩
    | some value =>
      cases value with
      | none => exact ⟨['x'], nofun, nofun⟩
      | some t => exact ⟨'x' :: t, nofun, by simp⟩
  have hforeign := hsame _ (wanted_foreignSecret cipher text)
  rw [prepare_foreignSecret htext hout] at hforeign
  apply hvalue
  have hvalues := congrArg (fun out ↦ out.values ['x']) (Except.ok.inj hforeign)
  rw [← hvalues]
  simp [Prepared.assign]

theorem deliverable_of_deliveredExactly (hv : WellFormed cipher v)
    (h : DeliveredExactly cipher v projectId w fs m) : Deliverable v projectId w fs m := by
  have hm := modulePath_ne_nil h
  obtain ⟨out, hout, hdelivered, hapart, -, -⟩ := h
  rw [prepare_eq hm] at hout
  have hholds : ∀ s ∈ v.wanted projectId m, Holds cipher (v.contents s.id) s :=
    fun s hs ↦ hv.holds s (mem_rows_of_wanted hs)
  obtain ⟨hnoempty, -⟩ := foldlM_invariant (P := NoEmptyText) hout nofun
    fun s hs c d hc hok ↦ (deliver_ok (hholds s hs) hc hok).1
  obtain ⟨-, hok⟩ := foldlM_invariant (P := fun _ ↦ True) hout trivial fun _ _ _ _ _ _ ↦ trivial
  refine ⟨hm, fun s hs ↦ ⟨?_, ?_⟩, fun s hs htype ↦ ?_, hapart, ?_⟩
  · obtain ⟨c, d, hcd⟩ := hok s hs
    intro hcontent
    rw [deliver_file hcontent (hholds s hs), if_pos rfl] at hcd
    cases hcd
  · intro hcontent
    have hassigned : assigned v w s = some (s.variableName, []) := by rw [assigned, hcontent]
    exact hnoempty _ ((hdelivered s hs).assigns _ _ hassigned)
  · obtain ⟨bytes, hcontent⟩ := content_of_secretType (hholds s hs) htype
    obtain ⟨l, hl, hinside, -⟩ := (hdelivered s hs).file bytes hcontent
    exact ⟨l, hl, hinside⟩
  · intro s hs s' hs' name text text' hassigned hassigned'
    have heq := ((hdelivered s hs).assigns _ _ hassigned).symm.trans
      ((hdelivered s' hs').assigns _ _ hassigned')
    exact Option.some.inj (Option.some.inj heq)

end

/-! ### Every sequence of operations -/

/-- After any operations on the secrets, the ones of a module are delivered exactly if and only if
the module path is not empty, none of them is empty, the file names lead to different places below
`work_dir/secrets`, and no two of them set a variable to different texts. -/
theorem secrets_delivered_exactly_iff (cipher : Cipher) (es : List Event) (v : Vault)
    (hrun : Run (vaultStep cipher) Free Vault.empty es v) (projectId : Nat) (w : WorkDir)
    (fs : FileSystem) (m : Text) :
    DeliveredExactly cipher v projectId w fs m ↔ Deliverable v projectId w fs m :=
  ⟨deliverable_of_deliveredExactly (wellFormed_of_run hrun),
    deliveredExactly_of_deliverable (wellFormed_of_run hrun)⟩

/-- `/work` in a file system where nothing else is. -/
def plainWorkDir : WorkDir := ⟨"/work".toList, ["work".toList]⟩

def plainFileSystem : FileSystem where
  isDir l := l.isPrefixOf ["work".toList]
  canOpen _ := true
  files _ := none

def uploads : List Event :=
  [.createFile 0 1 "cluster".toList (some "kubeconfig".toList) [1, 2, 3]
      ⟨none, some "kubeconfig_path".toList⟩,
    .createValue 1 1 "token".toList "abc".toList ⟨some "bnk/cert".toList, none⟩,
    .updateFile 2 1 0 (some (some "kubeconfig".toList, [4, 5])) ⟨none, none⟩]

def uploaded : Vault :=
  updateFileSecret markingCipher 2 1 0 (some (some "kubeconfig".toList, [4, 5])) ⟨none, none⟩
    (createValueSecret markingCipher 1 1 "token".toList "abc".toList
      ⟨some "bnk/cert".toList, none⟩
      (createFileSecret markingCipher 0 1 "cluster".toList (some "kubeconfig".toList) [1, 2, 3]
        ⟨none, some "kubeconfig_path".toList⟩ Vault.empty))

theorem secrets_delivered_exactly_uploads :
    Run (vaultStep markingCipher) Free Vault.empty uploads uploaded ∧
      uploaded.contents 0 = .file [4, 5] ∧
      DeliveredExactly markingCipher uploaded 1 plainWorkDir plainFileSystem "bnk/cert".toList := by
  have hrun : Run (vaultStep markingCipher) Free Vault.empty uploads uploaded :=
    Run.free_iff_exec.mpr rfl
  refine ⟨hrun, rfl, (secrets_delivered_exactly_iff _ _ _ hrun _ _ _ _).mpr ?_⟩
  have hagree : ∀ s ∈ uploaded.wanted 1 "bnk/cert".toList, ∀ s' ∈ uploaded.wanted 1 "bnk/cert".toList,
      ∀ p ∈ assigned uploaded plainWorkDir s, ∀ p' ∈ assigned uploaded plainWorkDir s',
      p.1 = p'.1 → p.2 = p'.2 := by decide
  refine ⟨by decide, by decide, ?_, ?_, ?_⟩
  · intro s hs htype
    refine ⟨["work".toList, "secrets".toList, "kubeconfig".toList], ?_, by decide, by decide⟩
    revert s
    decide
  · unfold Apart
    decide
  · intro s hs s' hs' name text text' hassigned hassigned'
    exact hagree s hs s' hs' (name, text) hassigned (name, text') hassigned' rfl

def upload (name filename : String) (content : Bytes) : Event :=
  .createFile 0 1 name.toList (some filename.toList) content ⟨none, none⟩

def afterUpload (name filename : String) (content : Bytes) (v : Vault) : Vault :=
  createFileSecret markingCipher 0 1 name.toList (some filename.toList) content ⟨none, none⟩ v

/-- Two secrets with files of one name are not delivered exactly, nor is a file whose name leads out of
the work directory, nor an empty file. -/
theorem secrets_not_delivered_exactly :
    (∃ es v, Run (vaultStep markingCipher) Free Vault.empty es v ∧
      es = [upload "east" "kubeconfig" [1], upload "west" "kubeconfig" [2]] ∧
      ¬ DeliveredExactly markingCipher v 1 plainWorkDir plainFileSystem "bnk/cert".toList) ∧
    (∃ es v, Run (vaultStep markingCipher) Free Vault.empty es v ∧ es = [upload "a" "/etc/profile" [1]] ∧
      ¬ DeliveredExactly markingCipher v 1 plainWorkDir
        { plainFileSystem with isDir := fun l ↦ l == ["etc".toList] } "bnk/cert".toList) ∧
    ∃ es v, Run (vaultStep markingCipher) Free Vault.empty es v ∧ es = [upload "a" "ca.pem" []] ∧
      ¬ DeliveredExactly markingCipher v 1 plainWorkDir plainFileSystem "bnk/cert".toList := by
  refine ⟨?_, ?_, ?_⟩
  · have hrun : Run (vaultStep markingCipher) Free Vault.empty
        [upload "east" "kubeconfig" [1], upload "west" "kubeconfig" [2]]
        (afterUpload "west" "kubeconfig" [2] (afterUpload "east" "kubeconfig" [1] Vault.empty)) :=
      Run.free_iff_exec.mpr rfl
    refine ⟨_, _, hrun, rfl, fun h ↦ ?_⟩
    have hapart := (deliverable_of_deliveredExactly (wellFormed_of_run hrun) h).apart
    revert hapart
    unfold Apart
    decide
  · have hrun : Run (vaultStep markingCipher) Free Vault.empty [upload "a" "/etc/profile" [1]]
        (afterUpload "a" "/etc/profile" [1] Vault.empty) := Run.free_iff_exec.mpr rfl
    refine ⟨_, _, hrun, rfl, fun h ↦ ?_⟩
    have hinside := (deliverable_of_deliveredExactly (wellFormed_of_run hrun) h).inside
      _ (List.mem_singleton.mpr rfl) rfl
    obtain ⟨l, hl, hinside, -⟩ := hinside
    have hplace : l = ["etc".toList, "profile".toList] := by
      apply Option.some.inj
      rw [← hl]
      decide
    rw [hplace] at hinside
    revert hinside
    decide
  · have hrun : Run (vaultStep markingCipher) Free Vault.empty [upload "a" "ca.pem" []]
        (afterUpload "a" "ca.pem" [] Vault.empty) := Run.free_iff_exec.mpr rfl
    refine ⟨_, _, hrun, rfl, fun h ↦ ?_⟩
    have hcontent := (deliverable_of_deliveredExactly (wellFormed_of_run hrun) h).content
    revert hcontent
    decide

end BnkForge.Secrets
