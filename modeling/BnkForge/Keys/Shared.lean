import BnkForge.Keys.Store
import Mathlib.Data.Fintype.Basic

/-!
# Processes that start on one keys volume

Any number of processes start side by side, in any interleaving of their checks, reads and writes,
each of which may fail. A key file that holds bytes is kept, and the processes share the key in it,
where the processes take turns in creating the key and no read of a key fails.
-/

namespace BnkForge.Keys

open Interleave Transition Python

variable {ι : Type}

/-! ### What a process does to the key file -/

def looksForKey : Op → Bool
  | .isFile .key => true
  | .exists? .key => true
  | .read .key => true
  | _ => false

def Orderly (s : Volume ι) (i : ι) (o : Op) (c : Outcome) : Prop :=
  looksForKey o = true → (∀ j, j ≠ i → s.searching j = false) ∧
    (s.key.bytes ≠ [] → c.failed = false ∧ NonBlank s.key.bytes)

/-- At most one process is about to create the key, and there is none yet. -/
structure Settled (s : Volume ι) : Prop where
  unique : ∀ i j, s.searching i = true → s.searching j = true → i = j
  empty : ∀ i, s.searching i = true → s.key.bytes = []

/-- The others leave a key alone, and leave the file alone while this process is about to create the
key. -/
structure Undisturbed (i : ι) (s t : Volume ι) : Prop where
  key : s.key.bytes ≠ [] → t.key = s.key
  searched : s.searching i = true → t.key = s.key
  searching : t.searching i = s.searching i
  faulty : s.faulty = true → t.faulty = true

/-- What an operation of process `i` does: a key is left alone. -/
structure Keeps (i : ι) (s t : Volume ι) : Prop where
  key : s.key.bytes ≠ [] → t.key = s.key
  searched : ∀ j, j ≠ i → s.searching j = true → t.key = s.key
  searching : ∀ j, j ≠ i → t.searching j = s.searching j
  faulty : s.faulty = true → t.faulty = true

def sharing : Contract (Volume ι) ι Outcome Op where
  inv := Settled
  guard := Orderly
  rely := Undisturbed
  guarantee := Keeps

theorem sharing_coherent : (sharing : Contract (Volume ι) ι Outcome Op).Coherent where
  rely_refl _ _ := ⟨fun _ ↦ rfl, fun _ ↦ rfl, rfl, id⟩
  rely_trans i s t u hst htu :=
    { key := fun h ↦ by
        have ht := hst.key h
        exact (htu.key (by rwa [ht])).trans ht
      searched := fun h ↦ by
        have ht := hst.searched h
        exact (htu.searched (by rwa [hst.searching])).trans ht
      searching := htu.searching.trans hst.searching
      faulty := fun h ↦ htu.faulty (hst.faulty h) }
  guarantee_rely i j s t hij h :=
    { key := h.key
      searched := fun hs ↦ h.searched j (Ne.symm hij) hs
      searching := h.searching j (Ne.symm hij)
      faulty := h.faulty }

/-! ### The operations one by one -/

/-- The operation leaves the key file alone. -/
structure Quiet (i : ι) (s t : Volume ι) : Prop where
  key : t.key = s.key
  searching : ∀ j, j ≠ i → t.searching j = s.searching j
  faulty : s.faulty = true → t.faulty = true

theorem Quiet.keeps {i : ι} {s t : Volume ι} (h : Quiet i s t) : Keeps i s t :=
  ⟨fun _ ↦ h.key, fun _ _ _ ↦ h.key, h.searching, h.faulty⟩

theorem Quiet.settled {i : ι} {s t : Volume ι} (h : Quiet i s t) (hs : Settled s)
    (hi : t.searching i = true → s.key.bytes = [] ∧ ∀ j, j ≠ i → s.searching j = false) :
    Settled t := by
  have hother : ∀ j, j ≠ i → t.searching j = true → s.searching j = true :=
    fun j hj ht ↦ (h.searching j hj) ▸ ht
  constructor
  · intro j k hj hk
    by_cases hji : j = i
    · by_cases hki : k = i
      · exact hji.trans hki.symm
      · subst hji
        have := (hi hj).2 k hki
        rw [hother k hki hk] at this
        cases this
    · by_cases hki : k = i
      · subst hki
        have := (hi hk).2 j hji
        rw [hother j hji hj] at this
        cases this
      · exact hs.unique j k (hother j hji hj) (hother k hki hk)
  · intro j hj
    rw [h.key]
    by_cases hji : j = i
    · subst hji
      exact (hi hj).1
    · exact hs.empty j (hother j hji hj)

theorem settled_of_write {i : ι} {s t : Volume ι} (hs : Settled s) (hi : s.searching i = true)
    (hsearching : ∀ j, j ≠ i → t.searching j = s.searching j)
    (hkey : t.searching i = true → t.key.bytes = []) (hfaulty : s.faulty = true → t.faulty = true) :
    Settled t ∧ Keeps i s t := by
  have hother : ∀ j, j ≠ i → s.searching j = false := by
    intro j hj
    by_contra h
    exact hj (hs.unique j i (by simpa using h) hi)
  have hempty := hs.empty i hi
  constructor
  · constructor
    · intro j k hj hk
      have hunique : ∀ j, t.searching j = true → j = i := by
        intro j hj
        by_contra hji
        rw [hsearching j hji, hother j hji] at hj
        cases hj
      rw [hunique j hj, hunique k hk]
    · intro j hj
      by_cases hji : j = i
      · subst hji
        exact hkey hj
      · rw [hsearching j hji, hother j hji] at hj
        cases hj
  · refine ⟨fun h ↦ absurd hempty h, fun j hj h ↦ ?_, hsearching, hfaulty⟩
    rw [hother j hj] at h
    cases h

section

variable {i : ι} {s t : Volume ι}

/-- A look for the key that finds none is right about it. -/
structure Looked (i : ι) (found : Bool) (s t : Volume ι) : Prop extends Quiet i s t where
  searching_self : t.searching i = !found
  empty : found = false → s.key.bytes = []

theorem Looked.settled {found : Bool} (h : Looked i found s t) (hs : Settled s)
    (hother : ∀ j, j ≠ i → s.searching j = false) : Settled t := by
  apply h.toQuiet.settled hs
  intro ht
  rw [h.searching_self] at ht
  exact ⟨h.empty (by simpa using ht), hother⟩

theorem keeps_of_eq (hs : Settled s) (hkey : t.key = s.key) (hsearching : t.searching = s.searching)
    (hfaulty : s.faulty = true → t.faulty = true) : Settled t ∧ Keeps i s t := by
  have hquiet : Quiet i s t := ⟨hkey, fun j _ ↦ by rw [hsearching], hfaulty⟩
  refine ⟨⟨?_, ?_⟩, hquiet.keeps⟩
  · rw [hsearching]
    exact hs.unique
  · rw [hsearching, hkey]
    exact hs.empty

def InFile (key : KeyData) (s : Volume ι) : Prop :=
  s.key.bytes ≠ [] ∧ key.bytes = stripBytes s.key.bytes

theorem InFile.undisturbed {key : KeyData} (h : InFile key s) (hst : Undisturbed i s t) :
    InFile key t := by
  rw [InFile, hst.key h.1]
  exact h

end

namespace Volume

section

variable {ι : Type} (s : Volume ι) (f : File) (node : Node)

@[simp] theorem fault_key : s.fault.key = s.key := rfl

@[simp] theorem fault_searching : s.fault.searching = s.searching := rfl

@[simp] theorem fault_faulty : s.fault.faulty = true := rfl

@[simp] theorem setNode_searching : (s.setNode f node).searching = s.searching := by
  cases f <;> rfl

@[simp] theorem setNode_faulty : (s.setNode f node).faulty = s.faulty := by cases f <;> rfl

@[simp] theorem setNode_marker_key : (s.setNode .marker node).key = s.key := rfl

@[simp] theorem setNode_key_key : (s.setNode .key node).key = node := rfl

end

variable [DecidableEq ι] (s : Volume ι) (i : ι) (f : File) (on : Bool)

@[simp] theorem search_key : (s.search i f on).key = s.key := by cases f <;> rfl

@[simp] theorem search_faulty : (s.search i f on).faulty = s.faulty := by cases f <;> rfl

@[simp] theorem search_searching_self : (s.search i .key on).searching i = on := by
  simp [search]

@[simp] theorem search_marker_eq : s.search i .marker on = s := rfl

theorem search_searching_of_ne {j : ι} (h : j ≠ i) :
    (s.search i f on).searching j = s.searching j := by
  cases f with
  | key => exact Function.update_of_ne h _ _
  | marker => rfl

end Volume

variable [DecidableEq ι] {i : ι} {s t : Volume ι} {c : Outcome}

theorem quiet_search (s : Volume ι) (i : ι) (f : File) (on : Bool) : Quiet i s (s.search i f on) :=
  ⟨s.search_key i f on, fun _ h ↦ s.search_searching_of_ne i f on h, fun h ↦ by simpa using h⟩

theorem quiet_search_fault (s : Volume ι) (i : ι) (f : File) (on : Bool) :
    Quiet i s (s.search i f on).fault :=
  ⟨s.search_key i f on, fun _ h ↦ s.search_searching_of_ne i f on h, fun _ ↦ rfl⟩

theorem bytes_of_not_isFile {node : Node} (h : node.isFile = false) : node.bytes = [] := by
  cases node with
  | file data => cases h
  | _ => rfl

theorem bytes_of_not_exists {node : Node} (h : node.exists? = false) : node.bytes = [] := by
  cases node with
  | absent => rfl
  | _ => cases h

theorem looked_isFile {r : Bool} (hok : Orderly s i (.isFile .key) c)
    (h : handle i (.isFile .key) c s = some (r, t)) : Looked i r s t := by
  cases c with
  | ok =>
    cases h
    exact ⟨quiet_search s i .key _, s.search_searching_self i _, bytes_of_not_isFile⟩
  | fail n =>
    cases h
    refine ⟨quiet_search_fault s i .key _, s.search_searching_self i _, fun _ ↦ ?_⟩
    by_contra hne
    cases ((hok rfl).2 hne).1
  | key drawn => cases h

theorem looked_exists {r : Bool} (hok : Orderly s i (.exists? .key) c)
    (h : handle i (.exists? .key) c s = some (r, t)) : Looked i r s t := by
  cases c with
  | ok =>
    cases h
    exact ⟨quiet_search s i .key _, s.search_searching_self i _, bytes_of_not_exists⟩
  | fail n =>
    cases h
    refine ⟨quiet_search_fault s i .key _, s.search_searching_self i _, fun _ ↦ ?_⟩
    by_contra hne
    cases ((hok rfl).2 hne).1
  | key drawn => cases h

theorem looked_read {r : Option KeyData} (hok : Orderly s i (.read .key) c)
    (h : handle i (.read .key) c s = some (r, t)) :
    match r with
    | none => Looked i false s t
    | some data => Looked i (!data.bytes.isEmpty) s t ∧ s.key = .file data ∧
        (data.bytes ≠ [] → NonBlank data.bytes) := by
  cases c with
  | ok =>
    simp only [handle, Volume.node] at h
    split at h
    · next data hfile =>
      cases h
      refine ⟨⟨quiet_search s i .key _, by simp, fun hempty ↦ ?_⟩, hfile, fun hne ↦ ?_⟩
      · rw [hfile]
        change data.bytes = []
        simpa using hempty
      · have := ((hok rfl).2 (by rwa [hfile])).2
        rwa [hfile] at this
    · next node hnode =>
      cases h
      refine ⟨quiet_search_fault s i .key _, s.search_searching_self i _, fun _ ↦ ?_⟩
      cases hkey : s.key with
      | file data => exact absurd hkey (hnode data)
      | _ => rfl
  | fail n =>
    cases h
    refine ⟨quiet_search_fault s i .key _, s.search_searching_self i _, fun _ ↦ ?_⟩
    by_contra hne
    cases ((hok rfl).2 hne).1
  | key drawn => cases h

theorem open_spec {r : Bool} (hs : Settled s) (hi : s.searching i = true)
    (h : handle i (.openTrunc .key) c s = some (r, t)) :
    Settled t ∧ Keeps i s t ∧ (if r then t.searching i = true else t.faulty = true) := by
  have hgive : ∀ u, u = (s.search i .key false).fault → Settled u ∧ Keeps i s u ∧ u.faulty = true := by
    rintro u rfl
    have hquiet := quiet_search_fault s i .key false
    exact ⟨hquiet.settled hs (by simp), hquiet.keeps, rfl⟩
  have hopen : ∀ data : KeyData, data.bytes = [] → Settled (s.setNode .key (.file data)) ∧
      Keeps i s (s.setNode .key (.file data)) :=
    fun data hdata ↦ settled_of_write hs hi (fun _ _ ↦ rfl) (fun _ ↦ hdata) id
  cases c with
  | ok =>
    simp only [handle, Volume.node] at h
    split at h
    · cases h
      exact hgive _ rfl
    · cases h
      exact ⟨(hopen _ rfl).1, (hopen _ rfl).2, hi⟩
    · cases h
      exact ⟨(hopen _ rfl).1, (hopen _ rfl).2, hi⟩
  | fail n =>
    cases h
    exact hgive _ rfl
  | key drawn => cases h

theorem write_spec {r : Bool} {data : KeyData} (hs : Settled s) (hi : s.searching i = true)
    (h : handle i (.write .key data) c s = some (r, t)) :
    Settled t ∧ Keeps i s t ∧ (if r then t.key.bytes = data.bytes else t.faulty = true) := by
  have hempty := hs.empty i hi
  cases c with
  | ok =>
    cases h
    obtain ⟨hsettled, hkeeps⟩ := settled_of_write hs hi
      (t := (s.setNode .key ((s.node .key).write data)).search i .key false)
      (fun j hj ↦ by rw [Volume.search_searching_of_ne _ _ _ _ hj, Volume.setNode_searching])
      (by simp) (by simp)
    refine ⟨hsettled, hkeeps, ?_⟩
    change data.bytes ++ s.key.bytes.drop data.bytes.length = data.bytes
    rw [hempty, List.drop_nil, List.append_nil]
  | fail n =>
    cases h
    obtain ⟨hsettled, hkeeps⟩ := settled_of_write hs hi
      (t := ((s.setNode .key ((s.node .key).write { data with bytes := data.bytes.take n })).search i
        .key false).fault)
      (fun j hj ↦ by
        rw [Volume.fault_searching, Volume.search_searching_of_ne _ _ _ _ hj,
          Volume.setNode_searching])
      (by simp) (by simp)
    exact ⟨hsettled, hkeeps, rfl⟩
  | key drawn => cases h

theorem isFile_marker_spec {r : Bool} (hs : Settled s)
    (h : handle i (.isFile .marker) c s = some (r, t)) : Settled t ∧ Keeps i s t := by
  cases c with
  | ok =>
    cases h
    exact keeps_of_eq hs rfl rfl id
  | fail n =>
    cases h
    exact keeps_of_eq hs rfl rfl fun _ ↦ rfl
  | key drawn => cases h

theorem open_marker_spec {r : Bool} (hs : Settled s)
    (h : handle i (.openTrunc .marker) c s = some (r, t)) : Settled t ∧ Keeps i s t := by
  cases c with
  | ok =>
    simp only [handle] at h
    split at h
    all_goals
      cases h
      exact keeps_of_eq hs rfl rfl (by simp)
  | fail n =>
    cases h
    exact keeps_of_eq hs rfl rfl fun _ ↦ rfl
  | key drawn => cases h

theorem generate_spec {r : KeyData} (hs : Settled s)
    (h : handle i .generate c s = some (r, t)) :
    Settled t ∧ Keeps i s t ∧ isGeneratedKey r.bytes = true ∧ t = s := by
  cases c with
  | key drawn =>
    simp only [handle] at h
    split at h
    · next hdrawn =>
      cases h
      exact ⟨hs, (keeps_of_eq hs rfl rfl id).2, hdrawn, rfl⟩
    · cases h
  | _ => cases h

/-! ### The functions of a start -/

theorem safe_exit {α : Type} {Q : α → Volume ι → Prop} :
    Safe handle sharing i (exit : Start α) Q s := by
  intro t _ _ c r
  exact r.elim

theorem safe_ret {α : Type} {Q : α → Volume ι → Prop} {a : α}
    (h : ∀ t, Undisturbed i s t → Settled t → Q a t) : Safe handle sharing i (Prog.ret a) Q s := h

theorem safe_loadKeyText : Safe handle sharing i loadKeyText
    (fun a t ↦ a.bytes = [] → t.searching i = true) s := by
  intro t _ ht c found u hok h
  have hlooked := looked_isFile hok h
  refine ⟨hlooked.settled ht (hok rfl).1, hlooked.keeps, ?_⟩
  cases found with
  | false =>
    refine safe_ret fun v huv _ _ ↦ ?_
    rw [huv.searching, hlooked.searching_self]
    rfl
  | true =>
    intro t _ ht c r u hok h
    have hread := looked_read hok h
    cases r with
    | none =>
      refine ⟨hread.settled ht (hok rfl).1, hread.keeps, safe_ret fun v huv _ _ ↦ ?_⟩
      rw [huv.searching, hread.searching_self]
      rfl
    | some data =>
      obtain ⟨hlooked, -, hblank⟩ := hread
      refine ⟨hlooked.settled ht (hok rfl).1, hlooked.keeps, ?_⟩
      change Safe handle sharing i (strippedText data) _ u
      unfold strippedText
      split
      · exact safe_exit
      · next text htext =>
        refine safe_ret fun v huv _ hnil ↦ ?_
        rw [huv.searching, hlooked.searching_self]
        by_contra hne
        have hdata : data.bytes ≠ [] := by
          intro hempty
          simp [hempty] at hne
        exact (hblank hdata).2 text htext (encode_eq_nil_iff.mp hnil)

theorem safe_writeKeyFile0600 {key : KeyData} (hs : s.searching i = true) :
    Safe handle sharing i (writeKeyFile0600 key)
      (fun _ t ↦ t.faulty = false → key.bytes ≠ [] → t.key.bytes = key.bytes) s := by
  intro t hst ht c opened u _ h
  obtain ⟨hu, hkeeps, hopened⟩ := open_spec ht (by rw [hst.searching, hs]) h
  refine ⟨hu, hkeeps, ?_⟩
  cases opened with
  | false =>
    refine safe_ret fun v huv _ hv ↦ ?_
    rw [huv.faulty (by simpa using hopened)] at hv
    cases hv
  | true =>
    intro t hut ht c written u _ h
    obtain ⟨hu, hkeeps, hwritten⟩ := write_spec ht (by rw [hut.searching]; simpa using hopened) h
    refine ⟨hu, hkeeps, safe_ret fun v huv _ hv hne ↦ ?_⟩
    cases written with
    | false =>
      rw [huv.faulty (by simpa using hwritten)] at hv
      cases hv
    | true =>
      have hbytes : u.key.bytes = key.bytes := by simpa using hwritten
      rw [huv.key (by rwa [hbytes]), hbytes]

theorem safe_generateKey_bind {α : Type} {f : KeyData → Start α} {Q : α → Volume ι → Prop}
    (h : ∀ key t, Undisturbed i s t → Settled t → isGeneratedKey key.bytes = true →
      Safe handle sharing i (f key) Q t) :
    Safe handle sharing i (generateKey >>= f) Q s := by
  intro t hst ht c r u _ hstep
  obtain ⟨hu, hkeeps, hr, rfl⟩ := generate_spec ht hstep
  exact ⟨hu, hkeeps, h r u hst ht hr⟩

theorem safe_writeKeyFile0600_bind {α : Type} {f : Bool → Start α} {Q : α → Volume ι → Prop}
    {key : KeyData} (hs : Settled s) (hi : s.searching i = true)
    (h : ∀ written t, Settled t → Safe handle sharing i (f written) Q t) :
    Safe handle sharing i (writeKeyFile0600 key >>= f) Q s := by
  refine Safe.bind sharing_coherent ?_ hs
  exact (safe_writeKeyFile0600 hi).mono fun written t ht _ ↦ h written t ht

theorem safe_persistOrLoadKey : Safe handle sharing i persistOrLoadKey (fun _ _ ↦ True) s := by
  intro t _ ht c markerPresent u _ h
  obtain ⟨hu, hkeeps⟩ := isFile_marker_spec ht h
  refine ⟨hu, hkeeps, ?_⟩
  change Safe handle sharing i (loadKeyText >>= _) _ u
  refine Safe.bind sharing_coherent ?_ hu
  refine Safe.mono safe_loadKeyText fun key t ht hsearching ↦ ?_
  split
  · exact safe_ret fun _ _ _ ↦ trivial
  · next hblank =>
    have hi := hsearching (not_not.mp hblank)
    split
    · refine safe_generateKey_bind fun _ _ _ _ _ ↦ ?_
      exact safe_ret fun _ _ _ ↦ trivial
    · refine safe_generateKey_bind fun key u htu hu _ ↦ ?_
      refine safe_writeKeyFile0600_bind hu (by rw [htu.searching, hi]) fun _ _ _ ↦ ?_
      exact safe_ret fun _ _ _ ↦ trivial

theorem safe_markSeededKey : Safe handle sharing i markSeededKey (fun _ _ ↦ True) s := by
  intro t _ ht c markerPresent u _ h
  obtain ⟨hu, hkeeps⟩ := isFile_marker_spec ht h
  refine ⟨hu, hkeeps, ?_⟩
  cases markerPresent with
  | true => exact safe_ret fun _ _ _ ↦ trivial
  | false =>
    intro t _ ht c r u _ h
    obtain ⟨hu, hkeeps⟩ := open_marker_spec ht h
    exact ⟨hu, hkeeps, safe_ret fun _ _ _ ↦ trivial⟩

theorem safe_seedEncryptionKeyIfAbsent {keyValue : KeyData} (hs : Settled s) :
    Safe handle sharing i (seedEncryptionKeyIfAbsent keyValue) (fun _ _ ↦ True) s := by
  refine Safe.bind sharing_coherent ?_ hs
  refine Safe.mono safe_loadKeyText fun existing t ht hsearching ↦ ?_
  split
  · intro t _ ht c r u _ h
    obtain ⟨hu, hkeeps⟩ := isFile_marker_spec ht h
    exact ⟨hu, hkeeps, safe_ret fun _ _ _ ↦ trivial⟩
  · next hblank =>
    refine safe_writeKeyFile0600_bind ht (hsearching (not_not.mp hblank)) fun written u hu ↦ ?_
    cases written with
    | false => exact safe_ret fun _ _ _ ↦ trivial
    | true =>
      refine Safe.bind sharing_coherent ?_ hu
      exact Safe.mono safe_markSeededKey fun _ _ _ _ ↦ safe_ret fun _ _ _ ↦ trivial

theorem safe_settingsInit {fernet : Fernet} {encryptionKey : Option Bytes} (hs : Settled s) :
    Safe handle sharing i (settingsInit fernet encryptionKey) (fun _ _ ↦ True) s := by
  unfold settingsInit
  split
  · exact safe_persistOrLoadKey
  · exact safe_persistOrLoadKey
  · split
    · exact safe_seedEncryptionKeyIfAbsent hs
    · exact safe_exit

theorem safe_loadKeyBytes : Safe handle sharing i loadKeyBytes
    (fun a t ↦ (a.bytes = [] → t.searching i = true) ∧ (a.bytes ≠ [] → InFile a t)) s := by
  intro t _ ht c found u hok h
  have hlooked := looked_exists hok h
  refine ⟨hlooked.settled ht (hok rfl).1, hlooked.keeps, ?_⟩
  cases found with
  | false =>
    refine safe_ret fun v huv _ ↦ ⟨fun _ ↦ ?_, fun h ↦ absurd rfl h⟩
    rw [huv.searching, hlooked.searching_self]
    rfl
  | true =>
    intro t _ ht c r u hok h
    have hread := looked_read hok h
    cases r with
    | none =>
      refine ⟨hread.settled ht (hok rfl).1, hread.keeps,
        safe_ret fun v huv _ ↦ ⟨fun _ ↦ ?_, fun h ↦ absurd rfl h⟩⟩
      rw [huv.searching, hread.searching_self]
      rfl
    | some data =>
      obtain ⟨hlooked, hfile, hblank⟩ := hread
      refine ⟨hlooked.settled ht (hok rfl).1, hlooked.keeps,
        safe_ret fun v huv _ ↦ ⟨fun hnil ↦ ?_, fun hne ↦ ?_⟩⟩
      · rw [huv.searching, hlooked.searching_self]
        by_contra hne
        have hdata : data.bytes ≠ [] := by
          intro hempty
          simp [hempty] at hne
        exact (hblank hdata).1 hnil
      · refine InFile.undisturbed ⟨?_, ?_⟩ huv
        · rw [hlooked.key, hfile]
          intro hempty
          apply hne
          change stripBytes data.bytes = []
          rw [show data.bytes = [] from hempty]
          rfl
        · rw [hlooked.key, hfile]
          rfl

theorem safe_getEncryptionKey {fernet : Fernet} (hs : Settled s) :
    Safe handle sharing i (getEncryptionKey fernet)
      (fun key t ↦ t.faulty = false → InFile key t) s := by
  refine Safe.bind sharing_coherent ?_ hs
  refine Safe.mono safe_loadKeyBytes fun existing t ht hexisting ↦ ?_
  split
  · next hne =>
    split
    · exact safe_ret fun u htu _ _ ↦ (hexisting.2 hne).undisturbed htu
    · exact safe_exit
  · next hblank =>
    have hi := hexisting.1 (not_not.mp hblank)
    refine safe_generateKey_bind fun key u htu hu hkey ↦ ?_
    obtain ⟨hstrip, hne⟩ := stripBytes_of_isGeneratedKey hkey
    refine Safe.bind sharing_coherent ?_ hu
    refine (safe_writeKeyFile0600 (by rw [htu.searching, hi])).mono fun _ v _ hv ↦ ?_
    refine safe_ret fun w hvw _ hw ↦ ?_
    have hfaulty : v.faulty = false := by
      by_contra h
      rw [hvw.faulty (by simpa using h)] at hw
      cases hw
    have hbytes := hv hfaulty hne
    refine InFile.undisturbed ⟨by rwa [hbytes], ?_⟩ hvw
    rw [hbytes, hstrip]

theorem safe_startProcess {fernet : Fernet} {encryptionKey : Option Bytes} (hs : Settled s) :
    Safe handle sharing i (startProcess fernet encryptionKey)
      (fun key t ↦ t.faulty = false → InFile key t) s := by
  refine Safe.bind sharing_coherent ?_ hs
  exact (safe_settingsInit hs).mono fun _ t ht _ ↦ safe_getEncryptionKey ht

/-! ### Every interleaving -/

def starting (fernet : Fernet) (key marker : Node) (env : ι → Option Bytes) :
    World (Volume ι) ι KeyData Op Res :=
  ⟨Volume.init ι key marker, fun i ↦ startProcess fernet (env i)⟩

def KeyKept (w : World (Volume ι) ι KeyData Op Res) (es : List (ι × Outcome)) : Prop :=
  AllSteps (step handle) (fun a _ b ↦ a.store.key.bytes ≠ [] → b.store.key = a.store.key) w es

/-- Where no operation has failed, every process that has started encrypts with the key in the
file. -/
def KeyShared (w : World (Volume ι) ι KeyData Op Res) : Prop :=
  w.store.faulty = false → ∀ i key, (w.threads i).result? = some key → InFile key w.store

/-- Where the processes take turns in creating the key and no look at a key fails, a key file that
holds bytes is never changed and the processes share the key in it. -/
theorem atRestKey_kept_and_shared (fernet : Fernet) (key marker : Node) (env : ι → Option Bytes)
    (es : List (ι × Outcome)) (w : World (Volume ι) ι KeyData Op Res)
    (hrun : Run (step handle) (Guarded Orderly) (starting fernet key marker env) es w) :
    KeyKept (starting fernet key marker env) es ∧ KeyShared w := by
  have hsettled : Settled (Volume.init ι key marker) := ⟨nofun, nofun⟩
  have hsafe : (starting fernet key marker env).AllSafe handle sharing
      fun _ key t ↦ t.faulty = false → InFile key t :=
    ⟨hsettled, fun i ↦ safe_startProcess hsettled⟩
  have hend := Interleave.Run.safe sharing_coherent hrun hsafe
  constructor
  · refine hrun.allSteps hsafe fun a e b ha hok hst ↦ ?_
    obtain ⟨hb, hkeeps⟩ := allSafe_step sharing_coherent ha hok hst
    exact ⟨hb, hkeeps.key⟩
  · intro hfaulty i key hkey
    exact (hend.2 i).result sharing_coherent hend.1 hkey hfaulty

instance [Fintype ι] (s : Volume ι) (i : ι) (o : Op) (c : Outcome) : Decidable (Orderly s i o c) :=
  inferInstanceAs (Decidable (_ → (∀ _, _ → _) ∧ (_ → _ ∧ _)))

/-- One process creates the key and another one finds it. -/
def inTurn : List (Bool × Outcome) :=
  [.ok, .ok, .key zeroKey, .ok, .ok, .ok, .ok].map (false, ·) ++
    [.ok, .ok, .ok, .ok, .ok].map (true, ·)

theorem atRestKey_kept_and_shared_inTurn :
    ∃ w, Run (step handle) (Guarded Orderly)
        (starting plainFernet .absent .absent fun _ : Bool ↦ none) inTurn w ∧
      (w.threads true).result? = some ⟨zeroKey, .application⟩ ∧
      KeyKept (starting plainFernet .absent .absent fun _ : Bool ↦ none) inTurn ∧ KeyShared w := by
  have hrun : Run (step handle) (Guarded Orderly)
      (starting plainFernet .absent .absent fun _ : Bool ↦ none) inTurn _ := Run.iff_exec.mpr rfl
  exact ⟨_, hrun, rfl, atRestKey_kept_and_shared plainFernet .absent .absent _ inTurn _ hrun⟩

def failedRead : List (Unit × Outcome) := [.ok, .ok, .fail 0, .key otherKey].map ((), ·)

/-- Two processes both look for the key before one of them has created it. -/
def firstBoots : List (Bool × Outcome) :=
  [(false, .ok), (false, .ok), (true, .ok), (true, .ok)] ++
    [.key zeroKey, .ok, .ok, .ok, .ok].map (false, ·) ++
    [.key otherKey, .ok, .ok, .ok, .ok].map (true, ·)

/-- A read that fails has the process write another key over the one in the file, and two processes
that find no key at the same time end with a key each. -/
theorem atRestKey_lost_and_split :
    ¬ KeyKept (starting plainFernet (.file ⟨zeroKey, .operator⟩) .absent fun _ : Unit ↦ none)
        (failedRead ++ [((), .ok)]) ∧
      ∃ w, Run (step handle) Free (starting plainFernet .absent .absent fun _ : Bool ↦ none)
          firstBoots w ∧
        w.store.faulty = false ∧ w.store.key = .file ⟨otherKey, .application⟩ ∧
        (w.threads false).result? = some ⟨zeroKey, .application⟩ ∧
        (w.threads true).result? = some ⟨otherKey, .application⟩ ∧ ¬ KeyShared w := by
  constructor
  · intro hkept
    unfold KeyKept at hkept
    have hrun : Run (step handle) Free
        (starting plainFernet (.file ⟨zeroKey, .operator⟩) .absent fun _ : Unit ↦ none) failedRead _ :=
      Run.free_iff_exec.mpr rfl
    have hopened := hrun.allSteps_last hkept rfl
    exact absurd (hopened (by decide)) (by decide)
  · have hrun : Run (step handle) Free
        (starting plainFernet .absent .absent fun _ : Bool ↦ none) firstBoots _ :=
      Run.free_iff_exec.mpr rfl
    refine ⟨_, hrun, rfl, rfl, rfl, rfl, fun hshared ↦ ?_⟩
    exact absurd (hshared rfl false _ rfl).2 (by decide)

end BnkForge.Keys
