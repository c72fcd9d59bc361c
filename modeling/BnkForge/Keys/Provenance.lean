import BnkForge.Keys.Store

/-!
# Whose key production runs on

Boots of the backend one after another, each with its environment, and between them what the
operator does to the key file and its marker and the restores of a backup
(`backend/services/backup_service.py:539–583`). `validate_production`
(`backend/core/config.py:396–465`) refuses a key that counts as generated, in staging and in
production. A key carries where it comes from, which decides nothing in the program.
-/

namespace BnkForge.Keys

open Interleave Transition Python

/-! ### Boots and what happens between them -/

structure Boot where
  environment : String
  encryptionKey : Option Bytes
  deriving DecidableEq, Repr

/-- `validate_production` looks at the boot. -/
def Boot.gated (b : Boot) : Bool := ["staging", "production"].contains b.environment

/-- `not ENCRYPTION_KEY`. -/
def Boot.keyUnset (b : Boot) : Bool := b.encryptionKey.all List.isEmpty

/-- The settings are constructed, `validate_production` accepts the key or the process exits, and
`core.encryption` loads its key. -/
def boot (fernet : Fernet) (b : Boot) : Start KeyData := do
  let (_, autoGenerated) ← settingsInit fernet b.encryptionKey
  if b.gated && autoGenerated then exit else getEncryptionKey fernet

/-- What happens on the volume. -/
inductive Event
  /-- A boot with the outcomes of its file operations; it may be cut short. -/
  | boot (b : Boot) (outcomes : List Outcome)
  | placeKey (value : Bytes)
  | placeMarker
  | deleteKey
  | deleteMarker
  /-- `_replace_encryption_key`; writing the marker may fail. -/
  | restore (rawKey : Bytes) (markerWritten : Bool)
  deriving DecidableEq, Repr

/-- A key that has been generated is the operator's from the time the marker is put beside it. -/
def Node.vouch : Node → Node
  | .file ⟨bytes, .application⟩ => .file ⟨bytes, .adopted⟩
  | node => node

/-- `_replace_encryption_key`. -/
def replaceEncryptionKey (rawKey : Bytes) (markerWritten : Bool) (s : Volume Unit) : Volume Unit :=
  if s.key = .directory then s
  else
    { s with
      key := .file ⟨rawKey, .operator⟩
      marker := if markerWritten && s.marker != .directory then .file ⟨[], .operator⟩ else s.marker }

def volumeStep (fernet : Fernet) (s : Volume Unit) : Event → Option (Volume Unit)
  | .boot b outcomes => some ((boot fernet b).eval handle outcomes s).2
  | .placeKey value => some { s with key := .file ⟨value, .operator⟩ }
  | .placeMarker => some { s with key := s.key.vouch, marker := .file ⟨[], .operator⟩ }
  | .deleteKey => some { s with key := .absent }
  | .deleteMarker => some { s with marker := .absent }
  | .restore rawKey markerWritten => some (replaceEncryptionKey rawKey markerWritten s)

/-- A boot that `validate_production` looks at and accepts runs on a key that the operator has
supplied, or has marked after it was generated. -/
def OperatorKey (fernet : Fernet) (s : Volume Unit) (e : Event) : Prop :=
  match e with
  | .boot b outcomes => b.gated = true → ∀ key,
      ((boot fernet b).eval handle outcomes s).1 = some key → key.origin ≠ .application
  | _ => True

/-- The file operations of a boot succeed, and a boot that `validate_production` does not look at
does not meet a marker without a key while `ENCRYPTION_KEY` is unset. -/
def Provisioned (s : Volume Unit) (e : Event) : Prop :=
  match e with
  | .boot b outcomes => (∀ c ∈ outcomes, c.failed = false) ∧ s.key ≠ .directory ∧
      ¬ (b.gated = false ∧ b.keyUnset = true ∧ s.marker.isFile = true ∧ stripBytes s.key.bytes = [])
  | _ => True

instance (s : Volume Unit) (e : Event) : Decidable (Provisioned s e) :=
  match e with
  | .boot _ _ => inferInstanceAs (Decidable ((∀ _ ∈ _, _) ∧ _ ≠ _ ∧ ¬ _))
  | .placeKey _ => inferInstanceAs (Decidable True)
  | .placeMarker => inferInstanceAs (Decidable True)
  | .deleteKey => inferInstanceAs (Decidable True)
  | .deleteMarker => inferInstanceAs (Decidable True)
  | .restore _ _ => inferInstanceAs (Decidable True)

/-! ### A boot whose file operations succeed -/

def Vouched (s : Volume Unit) : Prop :=
  ∀ data, s.key = .file data → data.bytes ≠ [] → s.marker.isFile = true → data.origin ≠ .application

def alone : Contract (Volume Unit) Unit Outcome Op where
  inv s := Vouched s ∧ s.key ≠ .directory
  guard _ _ _ c := c.failed = false
  rely _ s t := t = s
  guarantee _ _ _ := True

theorem alone_coherent : alone.Coherent where
  rely_refl _ _ := rfl
  rely_trans _ _ _ _ hst htu := htu.trans hst
  guarantee_rely i j _ _ hij := absurd (Subsingleton.elim i j) hij

def SameFiles (s t : Volume Unit) : Prop := t.key = s.key ∧ t.marker = s.marker

variable {s t : Volume Unit} {c : Outcome}

theorem SameFiles.inv (h : SameFiles s t) (hs : alone.inv s) : alone.inv t := by
  refine ⟨fun data hdata ↦ ?_, ?_⟩
  · rw [h.1] at hdata
    rw [h.2]
    exact hs.1 data hdata
  · rw [h.1]
    exact hs.2

theorem isFile_ok {f : File} {r : Bool} (hok : c.failed = false)
    (h : handle () (.isFile f) c s = some (r, t)) : r = (s.node f).isFile ∧ SameFiles s t := by
  cases c with
  | ok =>
    cases h
    cases f <;> exact ⟨rfl, rfl, rfl⟩
  | fail n => cases hok
  | key drawn => cases h

theorem exists_ok {r : Bool} (hok : c.failed = false)
    (h : handle () (.exists? .key) c s = some (r, t)) : r = s.key.exists? ∧ SameFiles s t := by
  cases c with
  | ok =>
    cases h
    exact ⟨rfl, rfl, rfl⟩
  | fail n => cases hok
  | key drawn => cases h

theorem read_ok {r : Option KeyData} (hok : c.failed = false)
    (h : handle () (.read .key) c s = some (r, t)) :
    SameFiles s t ∧ ∀ data, r = some data ↔ s.key = .file data := by
  cases c with
  | ok =>
    simp only [handle, Volume.node] at h
    split at h
    · next data hdata =>
      cases h
      refine ⟨⟨rfl, rfl⟩, fun d ↦ ?_⟩
      rw [hdata]
      simp
    · next hnone =>
      cases h
      exact ⟨⟨rfl, rfl⟩, fun d ↦ ⟨nofun, fun hd ↦ absurd hd (hnone d)⟩⟩
  | fail n => cases hok
  | key drawn => cases h

theorem open_ok {r : Bool} (hok : c.failed = false) (hs : s.key ≠ .directory)
    (h : handle () (.openTrunc .key) c s = some (r, t)) :
    r = true ∧ (∃ origin, t.key = .file ⟨[], origin⟩) ∧ t.marker = s.marker := by
  cases c with
  | ok =>
    simp only [handle, Volume.node] at h
    split at h
    · next hdir => exact absurd hdir hs
    · cases h
      exact ⟨rfl, ⟨_, rfl⟩, rfl⟩
    · cases h
      exact ⟨rfl, ⟨_, rfl⟩, rfl⟩
  | fail n => cases hok
  | key drawn => cases h

theorem open_marker_ok {r : Bool} (hok : c.failed = false)
    (h : handle () (.openTrunc .marker) c s = some (r, t)) : t.key = s.key := by
  cases c with
  | ok =>
    simp only [handle] at h
    split at h <;> cases h <;> rfl
  | fail n => cases hok
  | key drawn => cases h

theorem write_ok {r : Bool} {data : KeyData} {origin : Origin} (hok : c.failed = false)
    (hs : s.key = .file ⟨[], origin⟩) (h : handle () (.write .key data) c s = some (r, t)) :
    t.key = .file data ∧ t.marker = s.marker := by
  cases c with
  | ok =>
    cases h
    refine ⟨?_, rfl⟩
    change Node.write data s.key = .file data
    rw [hs, Node.write, Node.bytes, List.drop_nil, List.append_nil]
  | fail n => cases hok
  | key drawn => cases h

theorem generate_ok {r : KeyData} (h : handle () .generate c s = some (r, t)) :
    t = s ∧ isGeneratedKey r.bytes = true := by
  cases c with
  | key drawn =>
    simp only [handle] at h
    split at h
    · next hdrawn =>
      cases h
      exact ⟨rfl, hdrawn⟩
    · cases h
  | _ => cases h

theorem alone_ret {α : Type} {Q : α → Volume Unit → Prop} {a : α} (h : Q a s) :
    Safe handle alone () (Prog.ret a) Q s := by
  rintro t rfl _
  exact h

theorem alone_exit {α : Type} {Q : α → Volume Unit → Prop} :
    Safe handle alone () (exit : Start α) Q s := by
  intro t _ _ c r
  exact r.elim

theorem stripBytes_ne_nil_of_text {bs : Bytes} {text : List Char} (hdecode : decode bs = some text)
    (htext : strip (universalNewlines text) ≠ []) : stripBytes bs ≠ [] := by
  intro hblank
  obtain ⟨cs, hcs, hspace⟩ := decode_of_blank (stripBytes_eq_nil_iff.mp hblank)
  cases hdecode.symm.trans hcs
  exact htext (strip_eq_nil_iff.mpr (isSpace_universalNewlines.mpr hspace))

theorem alone_loadKeyText : Safe handle alone () loadKeyText
    (fun a t ↦ SameFiles s t ∧ (a.bytes ≠ [] → stripBytes s.key.bytes ≠ [])) s := by
  rintro t rfl ht c found u hok h
  obtain ⟨-, hu⟩ := isFile_ok hok h
  refine ⟨hu.inv ht, trivial, ?_⟩
  cases found with
  | false => exact alone_ret ⟨hu, fun h ↦ absurd rfl h⟩
  | true =>
    rintro t rfl ht c r v hok h
    obtain ⟨hv, hread⟩ := read_ok hok h
    refine ⟨hv.inv ht, trivial, ?_⟩
    have hfiles : ∀ w, SameFiles v w → SameFiles _ w :=
      fun w hw ↦ ⟨hw.1.trans (hv.1.trans hu.1), hw.2.trans (hv.2.trans hu.2)⟩
    cases r with
    | none => exact alone_ret ⟨hfiles v ⟨rfl, rfl⟩, fun h ↦ absurd rfl h⟩
    | some data =>
      have hkey := (hread data).mp rfl
      rw [hu.1] at hkey
      change Safe handle alone () (strippedText data) _ v
      unfold strippedText
      split
      · exact alone_exit
      · next text htext =>
        refine alone_ret ⟨hfiles v ⟨rfl, rfl⟩, fun hne ↦ ?_⟩
        rw [hkey]
        exact stripBytes_ne_nil_of_text htext fun hnil ↦ hne (encode_eq_nil_iff.mpr hnil)

theorem alone_writeKeyFile0600 {key : KeyData}
    (hmarker : s.marker.isFile = true → key.origin ≠ .application) :
    Safe handle alone () (writeKeyFile0600 key)
      (fun _ t ↦ t.key = .file key ∧ t.marker = s.marker) s := by
  rintro t rfl ht c opened u hok h
  obtain ⟨rfl, ⟨origin, hopen⟩, humarker⟩ := open_ok hok ht.2 h
  refine ⟨⟨fun data hdata hne ↦ ?_, by rw [hopen]; nofun⟩, trivial, ?_⟩
  · rw [hopen] at hdata
    cases hdata
    exact absurd rfl hne
  rintro v rfl _ c written w hok h
  obtain ⟨hkey, hwmarker⟩ := write_ok hok hopen h
  refine ⟨⟨fun data hdata _ hfile ↦ ?_, by rw [hkey]; nofun⟩, trivial,
    alone_ret ⟨hkey, hwmarker.trans humarker⟩⟩
  rw [hkey] at hdata
  cases hdata
  rw [hwmarker, humarker] at hfile
  exact hmarker hfile

theorem alone_generateKey_bind {α : Type} {f : KeyData → Start α} {Q : α → Volume Unit → Prop}
    (h : alone.inv s → ∀ key, isGeneratedKey key.bytes = true → Safe handle alone () (f key) Q s) :
    Safe handle alone () (generateKey >>= f) Q s := by
  rintro t rfl ht c r u _ hstep
  obtain ⟨rfl, hr⟩ := generate_ok hstep
  exact ⟨ht, trivial, h ht r hr⟩

theorem stripBytes_ne_nil_of_isGeneratedKey {bs : Bytes} (h : isGeneratedKey bs = true) :
    stripBytes bs ≠ [] := by
  obtain ⟨hstrip, hne⟩ := stripBytes_of_isGeneratedKey h
  rwa [hstrip]

/-- What the settings leave behind: a key that does not count as generated is in the file and comes
from the operator, and a marker is left without a key only where it was found so. -/
structure Loaded (keyUnset : Bool) (s : Volume Unit) (autoGenerated : Bool) (t : Volume Unit) :
    Prop where
  trusted : autoGenerated = false →
    ∃ data, t.key = .file data ∧ stripBytes data.bytes ≠ [] ∧ data.origin ≠ .application
  missing : stripBytes t.key.bytes = [] → t.marker.isFile = true →
    keyUnset = true ∧ s.marker.isFile = true ∧ stripBytes s.key.bytes = []

theorem bytes_ne_nil_of_stripBytes {bs : Bytes} (h : stripBytes bs ≠ []) : bs ≠ [] := by
  rintro rfl
  exact h rfl

theorem loaded_of_found {keyUnset : Bool} (ht : alone.inv t) (hblank : stripBytes t.key.bytes ≠ []) :
    Loaded keyUnset s (!t.marker.isFile) t := by
  constructor
  · intro hmarker
    cases hkey : t.key with
    | file data =>
      rw [hkey] at hblank
      exact ⟨data, rfl, hblank, ht.1 data hkey (bytes_ne_nil_of_stripBytes hblank) (by simpa using hmarker)⟩
    | _ =>
      rw [hkey] at hblank
      exact absurd rfl hblank
  · exact fun h ↦ absurd h hblank

theorem alone_persistOrLoadKey :
    Safe handle alone () persistOrLoadKey (fun r t ↦ Loaded true s r.2 t) s := by
  rintro t rfl ht c markerPresent u hok h
  obtain ⟨rfl, hu⟩ := isFile_ok hok h
  have huinv := hu.inv ht
  refine ⟨huinv, trivial, ?_⟩
  change Safe handle alone () (loadKeyText >>= _) _ u
  refine Safe.bind alone_coherent ?_ huinv
  refine Safe.mono alone_loadKeyText fun key v hv hload ↦ ?_
  obtain ⟨hfiles, hkey⟩ := hload
  have hvt : SameFiles t v := ⟨hfiles.1.trans hu.1, hfiles.2.trans hu.2⟩
  split
  · next hne =>
    refine alone_ret ?_
    have hfound := hkey hne
    rw [← hfiles.1] at hfound
    change Loaded true t (!t.marker.isFile) v
    rw [← hvt.2]
    exact loaded_of_found hv hfound
  · split
    · next hmarker =>
      refine alone_generateKey_bind fun _ _ _ ↦ alone_ret ⟨nofun, fun hblank _ ↦ ?_⟩
      rw [hvt.1] at hblank
      exact ⟨rfl, hmarker, hblank⟩
    · next hmarker =>
      refine alone_generateKey_bind fun hv key hdrawn ↦ ?_
      refine Safe.bind alone_coherent ?_ hv
      refine Safe.mono (alone_writeKeyFile0600 fun hfile ↦ ?_) fun _ w _ hw ↦ ?_
      · rw [hvt.2] at hfile
        exact absurd hfile hmarker
      · refine alone_ret ⟨nofun, fun hblank _ ↦ ?_⟩
        rw [hw.1] at hblank
        exact absurd hblank (stripBytes_ne_nil_of_isGeneratedKey hdrawn)

theorem alone_seedEncryptionKeyIfAbsent {value : Bytes} (hs : alone.inv s)
    (hvalue : stripBytes value ≠ []) :
    Safe handle alone () (seedEncryptionKeyIfAbsent ⟨value, .operator⟩)
      (fun r t ↦ Loaded false s r.2 t) s := by
  refine Safe.bind alone_coherent ?_ hs
  refine Safe.mono alone_loadKeyText fun existing t ht hload ↦ ?_
  obtain ⟨hfiles, hexisting⟩ := hload
  split
  · next hne =>
    rintro t rfl _ c markerPresent u hok h
    obtain ⟨rfl, hu⟩ := isFile_ok hok h
    have huinv := hu.inv ht
    refine ⟨huinv, trivial, alone_ret ?_⟩
    have hfound := hexisting hne
    rw [← hfiles.1, ← hu.1] at hfound
    change Loaded false s (!t.marker.isFile) u
    rw [← hu.2]
    exact loaded_of_found huinv hfound
  · refine Safe.bind alone_coherent ?_ ht
    refine Safe.mono (alone_writeKeyFile0600 fun _ ↦ nofun) fun written u hu hwrite ↦ ?_
    have hloaded : ∀ v : Volume Unit, v.key = u.key → Loaded false s false v := by
      intro v hv
      rw [hwrite.1] at hv
      refine ⟨fun _ ↦ ⟨_, hv, hvalue, nofun⟩, fun hblank _ ↦ ?_⟩
      rw [hv] at hblank
      exact absurd hblank hvalue
    cases written with
    | false => exact alone_ret (hloaded u rfl)
    | true =>
      rintro v rfl hv c markerPresent w hok h
      obtain ⟨rfl, hw⟩ := isFile_ok hok h
      have hwinv := hw.inv hv
      refine ⟨hwinv, trivial, ?_⟩
      cases hmarker : (v.node .marker).isFile with
      | true => exact alone_ret (hloaded w hw.1)
      | false =>
        rintro x rfl hx c opened y hok h
        have hy := open_marker_ok hok h
        have hkey := hy.trans (hw.1.trans hwrite.1)
        refine ⟨⟨fun data hdata _ _ ↦ ?_, by rw [hkey]; nofun⟩, trivial,
          alone_ret (hloaded y (hy.trans hw.1))⟩
        rw [hkey] at hdata
        cases hdata
        nofun

theorem alone_settingsInit {fernet : Fernet} {b : Boot} (hs : alone.inv s) :
    Safe handle alone () (settingsInit fernet b.encryptionKey)
      (fun r t ↦ Loaded b.keyUnset s r.2 t) s := by
  unfold settingsInit
  split
  · next hkey =>
    have hunset : b.keyUnset = true := by rw [Boot.keyUnset, hkey]; rfl
    rw [hunset]
    exact alone_persistOrLoadKey
  · next hkey =>
    have hunset : b.keyUnset = true := by rw [Boot.keyUnset, hkey]; rfl
    rw [hunset]
    exact alone_persistOrLoadKey
  · next value hne hkey =>
    split
    · next hvalid =>
      obtain ⟨symbol, hmem, hsymbol⟩ := fernet.symbol_of_valid value hvalid
      have hset : b.keyUnset = false := by
        rw [Boot.keyUnset, hkey]
        cases value with
        | nil => exact absurd rfl hne
        | cons _ _ => rfl
      rw [hset]
      exact alone_seedEncryptionKeyIfAbsent hs (nonBlank_of_isKeySymbol hmem hsymbol).1
    · exact alone_exit

theorem alone_loadKeyBytes : Safe handle alone () loadKeyBytes
    (fun a t ↦ SameFiles s t ∧ a.bytes = stripBytes s.key.bytes ∧
      ∀ data, s.key = .file data → a.origin = data.origin) s := by
  rintro t rfl ht c found u hok h
  obtain ⟨hfound, hu⟩ := exists_ok hok h
  refine ⟨hu.inv ht, trivial, ?_⟩
  cases found with
  | false =>
    have habsent : t.key = .absent := by
      cases hkey : t.key with
      | absent => rfl
      | _ =>
        rw [hkey] at hfound
        cases hfound
    refine alone_ret ⟨hu, ?_, ?_⟩
    · rw [habsent]
      rfl
    · rw [habsent]
      nofun
  | true =>
    rintro t rfl hinv c r v hok h
    obtain ⟨hv, hread⟩ := read_ok hok h
    refine ⟨hv.inv hinv, trivial, ?_⟩
    have hfiles : SameFiles _ v := ⟨hv.1.trans hu.1, hv.2.trans hu.2⟩
    cases r with
    | none =>
      refine alone_ret ⟨hfiles, ?_, fun data hdata ↦ ?_⟩
      · cases hkey : t.key with
        | file data => cases (hread data).mpr hkey
        | _ =>
          rw [← hu.1, hkey]
          rfl
      · rw [← hu.1] at hdata
        cases (hread data).mpr hdata
    | some data =>
      have hkey := (hread data).mp rfl
      rw [hu.1] at hkey
      refine alone_ret ⟨hfiles, ?_, fun d hd ↦ ?_⟩
      · rw [hkey]
        rfl
      · rw [hkey] at hd
        cases hd
        rfl

/-- `get_encryption_key` returns the key in the file; it draws one only where that puts none under a
marker. -/
theorem alone_getEncryptionKey {fernet : Fernet} (hs : alone.inv s)
    (hmissing : stripBytes s.key.bytes = [] → s.marker.isFile = false) :
    Safe handle alone () (getEncryptionKey fernet)
      (fun key _ ↦ ∀ data, s.key = .file data → stripBytes data.bytes ≠ [] →
        key.origin = data.origin) s := by
  refine Safe.bind alone_coherent ?_ hs
  refine Safe.mono alone_loadKeyBytes fun existing t ht hload ↦ ?_
  obtain ⟨hfiles, hbytes, horigin⟩ := hload
  split
  · split
    · exact alone_ret fun data hdata _ ↦ horigin data hdata
    · exact alone_exit
  · next hblank =>
    rw [hbytes, not_not] at hblank
    refine alone_generateKey_bind fun ht key _ ↦ Safe.bind alone_coherent ?_ ht
    refine Safe.mono (alone_writeKeyFile0600 fun hfile ↦ ?_) fun _ u _ _ ↦ ?_
    · rw [hfiles.2, hmissing hblank] at hfile
      cases hfile
    · refine alone_ret fun data hdata hne ↦ ?_
      rw [hdata] at hblank
      exact absurd hblank hne

theorem alone_boot (fernet : Fernet) {b : Boot} (hs : alone.inv s)
    (hmissing : ¬ (b.gated = false ∧ b.keyUnset = true ∧ s.marker.isFile = true ∧
      stripBytes s.key.bytes = [])) :
    Safe handle alone () (boot fernet b) (fun key _ ↦ b.gated = true → key.origin ≠ .application)
      s := by
  refine Safe.bind alone_coherent ?_ hs
  refine Safe.mono (alone_settingsInit hs) fun r t ht hloaded ↦ ?_
  change Safe handle alone () (if b.gated && r.2 then exit else getEncryptionKey fernet) _ t
  split
  · exact alone_exit
  · next haccepted =>
    have hfile : stripBytes t.key.bytes = [] → t.marker.isFile = false := by
      intro hblank
      by_contra hmarker
      obtain ⟨hunset, hsmarker, hsblank⟩ := hloaded.missing hblank (by simpa using hmarker)
      have hgated : b.gated = true := by
        by_contra h
        exact hmissing ⟨by simpa using h, hunset, hsmarker, hsblank⟩
      -- an accepted boot has a key in its file
      obtain ⟨data, hdata, hne, -⟩ := hloaded.trusted (by simpa [hgated] using haccepted)
      rw [hdata] at hblank
      exact hne hblank
    refine Safe.mono (alone_getEncryptionKey ht hfile) fun key _ _ hkey hgated ↦ ?_
    obtain ⟨data, hdata, hne, horigin⟩ := hloaded.trusted (by simpa [hgated] using haccepted)
    rw [hkey data hdata hne]
    exact horigin

/-! ### Every sequence of boots -/

theorem vouch_ne_application {node : Node} {data : KeyData} (h : node.vouch = .file data) :
    data.origin ≠ .application := by
  rintro horigin
  unfold Node.vouch at h
  split at h
  · cases h
    cases horigin
  · next hnot =>
    obtain ⟨bytes, origin⟩ := data
    cases horigin
    exact hnot bytes h

theorem volumeStep_vouched {fernet : Fernet} {e : Event} (hs : Vouched s) (hok : Provisioned s e)
    (hstep : volumeStep fernet s e = some t) : Vouched t ∧ OperatorKey fernet s e := by
  cases e with
  | boot b outcomes =>
    cases hstep
    obtain ⟨houtcomes, hdir, hmissing⟩ := hok
    have hinv : alone.inv s := ⟨hs, hdir⟩
    obtain ⟨hend, hkey⟩ := (alone_boot fernet hinv hmissing).eval alone_coherent hinv
      fun _ _ ↦ houtcomes
    exact ⟨hend.1, fun hgated key h ↦ hkey key h hgated⟩
  | placeKey value =>
    cases hstep
    refine ⟨fun data hdata _ _ ↦ ?_, trivial⟩
    cases hdata
    nofun
  | placeMarker =>
    cases hstep
    exact ⟨fun data hdata _ _ ↦ vouch_ne_application hdata, trivial⟩
  | deleteKey =>
    cases hstep
    exact ⟨nofun, trivial⟩
  | deleteMarker =>
    cases hstep
    exact ⟨nofun, trivial⟩
  | restore rawKey markerWritten =>
    cases hstep
    refine ⟨?_, trivial⟩
    unfold replaceEncryptionKey
    split
    · exact hs
    · intro data hdata _ _
      cases hdata
      nofun

/-- In every sequence of boots, edits and restores in which the file operations of the boots succeed
and no boot outside staging and production meets a marker without a key, production and staging run
on the operator's key. -/
theorem production_on_operator_key (fernet : Fernet) (s t : Volume Unit) (es : List Event)
    (hs : Vouched s) (hrun : Run (volumeStep fernet) Provisioned s es t) :
    AllSteps (volumeStep fernet) (fun a e _ ↦ OperatorKey fernet a e) s es :=
  hrun.allSteps hs fun _ _ _ ha hok hst ↦ volumeStep_vouched ha hok hst

def provisionedRun : List Event :=
  [.placeKey zeroKey, .placeMarker, .boot ⟨"production", none⟩ [.ok, .ok, .ok, .ok, .ok]]

theorem production_on_operator_key_provisionedRun :
    ∃ t, Run (volumeStep plainFernet) Provisioned (Volume.init Unit .absent .absent) provisionedRun t ∧
      Vouched (Volume.init Unit .absent .absent) ∧
      AllSteps (volumeStep plainFernet) (fun a e _ ↦ OperatorKey plainFernet a e)
        (Volume.init Unit .absent .absent) provisionedRun := by
  have hrun : Run (volumeStep plainFernet) Provisioned (Volume.init Unit .absent .absent)
      provisionedRun _ := Run.iff_exec.mpr rfl
  have hvouched : Vouched (Volume.init Unit .absent .absent) := nofun
  exact ⟨_, hrun, hvouched, production_on_operator_key plainFernet _ _ _ hvouched hrun⟩

def staleMarker : List Event :=
  [.placeKey zeroKey, .placeMarker, .deleteKey,
    .boot ⟨"development", none⟩ [.ok, .ok, .key otherKey, .ok, .key otherKey, .ok, .ok]]

/-- After the development boot has persisted its key beside the stale marker, production accepts that
key; and where the volume cannot be written, production accepts `ENCRYPTION_KEY` and runs on a key
that is generated in memory. -/
theorem production_on_generated_key :
    (∃ t, Run (volumeStep plainFernet) Free (Volume.init Unit .absent .absent) staleMarker t ∧
      ¬ OperatorKey plainFernet t (.boot ⟨"production", none⟩ [.ok, .ok, .ok, .ok, .ok])) ∧
    ¬ OperatorKey plainFernet (Volume.init Unit .absent .absent)
      (.boot ⟨"production", some zeroKey⟩ [.ok, .fail 0, .ok, .key otherKey, .fail 0]) := by
  constructor
  · refine ⟨_, Run.free_iff_exec.mpr rfl, fun h ↦ ?_⟩
    exact h rfl ⟨otherKey, .application⟩ rfl rfl
  · intro h
    exact h rfl ⟨otherKey, .application⟩ rfl rfl

end BnkForge.Keys
