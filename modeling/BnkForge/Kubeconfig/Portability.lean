import BnkForge.Kubeconfig.Normalizer

/-!
# What a normalized kubeconfig is

The loops over clusters and users as functions on the sections of a document, the entries at which they
stop, and from that what comes out of a normalization.
-/

namespace BnkForge.Kubeconfig

open Python Yaml List

/-! ### Loops over sections -/

/-- What the body of a loop does: where it refuses the item or fails, and what it makes of it else. -/
structure BodySpec (f : Items → Except NormalizeError Items) (F : Items → Items)
    (unportable malformed : Items → Prop) : Prop where
  ok : ∀ item, ¬ unportable item → ¬ malformed item → f item = .ok (F item)
  refused : ∀ item, unportable item → ∃ e, f item = .error (.unportable e)
  fails : ∀ item, malformed item → ∃ e, f item = .error (.raised e)

section

variable (listKey itemKey : String) (unportable malformed : Items → Prop)

/-- The mapping of the entry is not portable. -/
def EntryUnportable (entry : Yaml) : Prop := ∃ item, entryItem itemKey entry = some item ∧ unportable item

/-- The entry is neither a mapping nor empty, or the body of the loop fails at its mapping. -/
def EntryMalformed (entry : Yaml) : Prop :=
  (entry.dict? = none ∧ entry.truthy = true) ∨ ∃ item, entryItem itemKey entry = some item ∧ malformed item

/-- The section can be iterated, and before every malformed entry there is one that is not portable. -/
def Orderly (doc : Items) : Prop :=
  (get doc listKey).truthy = true → ∃ entries, (get doc listKey).iterate = .ok entries ∧
    ∀ before entry after, entries = before ++ entry :: after →
      EntryMalformed itemKey malformed entry → ∃ e ∈ before, EntryUnportable itemKey unportable e

/-- An entry of the section is not portable. -/
def Refused (doc : Items) : Prop :=
  (get doc listKey).truthy = true ∧ ∃ entries, (get doc listKey).iterate = .ok entries ∧
    ∃ e ∈ entries, EntryUnportable itemKey unportable e

/-- Every entry of the section is portable. -/
def Clean (doc : Items) : Prop :=
  (get doc listKey).truthy = true → ∃ entries, (get doc listKey).iterate = .ok entries ∧
    ∀ e ∈ entries, ¬ EntryUnportable itemKey unportable e ∧ ¬ EntryMalformed itemKey malformed e

end

/-- The only error is `KubeconfigUnportableError`. -/
def Graceful {α : Type} (result : Except NormalizeError α) : Prop :=
  ∀ e, result = .error e → ∃ u, e = .unportable u

section

variable {listKey itemKey : String} {unportable malformed : Items → Prop} {F : Items → Items}
  {f : Items → Except NormalizeError Items} {entry : Yaml} {entries : List Yaml} {doc doc' : Items}

theorem graceful_ok {α : Type} (a : α) : Graceful (.ok a) := by
  rintro _ ⟨⟩

theorem graceful_unportable {α : Type} (u : KubeconfigUnportableError) :
    Graceful (.error (.unportable u) : Except NormalizeError α) := by
  rintro e ⟨⟩
  exact ⟨u, rfl⟩

theorem not_graceful_raised {α : Type} (e : Raised) :
    ¬ Graceful (.error (.raised e) : Except NormalizeError α) := by
  intro h
  obtain ⟨u, hu⟩ := h _ rfl
  cases hu

theorem graceful_map {α β : Type} {g : α → β} {result : Except NormalizeError α} :
    Graceful (result.map g) ↔ Graceful result := by
  cases result with
  | error e =>
    constructor
    · rintro h _ ⟨⟩
      exact h e rfl
    · rintro h _ ⟨⟩
      exact h e rfl
  | ok a => exact iff_of_true (graceful_ok _) (graceful_ok _)

theorem normalizeEntry_of_fine (hf : BodySpec f F unportable malformed)
    (hportable : ¬ EntryUnportable itemKey unportable entry)
    (hwell : ¬ EntryMalformed itemKey malformed entry) :
    normalizeEntry f itemKey entry = .ok (adjustEntry itemKey F entry) := by
  cases entry with
  | dict items =>
    rw [normalizeEntry]
    cases hitem : (get items itemKey).dict? with
    | none =>
      refine congrArg Except.ok (congrArg dict ?_)
      rw [adjust_congr (g := id), adjust_id]
      cases hget : get items itemKey with
      | dict item =>
        rw [hget] at hitem
        cases hitem
      | _ => rfl
    | some item =>
      have hf' := hf.ok item (fun h ↦ hportable ⟨item, hitem, h⟩) fun h ↦ hwell (.inr ⟨item, hitem, h⟩)
      dsimp only
      rw [hf']
      refine congrArg Except.ok (congrArg dict (adjust_congr ?_))
      cases hget : get items itemKey with
      | dict item' =>
        rw [hget] at hitem
        cases hitem
        rfl
      | _ =>
        rw [hget] at hitem
        cases hitem
  | _ =>
    rw [normalizeEntry, if_neg fun htruthy ↦ hwell (.inl ⟨rfl, htruthy⟩)]
    · rfl
    · rintro _ ⟨⟩

theorem normalizeEntry_of_unportable (hf : BodySpec f F unportable malformed)
    (h : EntryUnportable itemKey unportable entry) :
    ∃ u, normalizeEntry f itemKey entry = .error (.unportable u) := by
  obtain ⟨item, hitem, hunportable⟩ := h
  obtain ⟨u, hu⟩ := hf.refused item hunportable
  cases entry with
  | dict items =>
    have hdict : (get items itemKey).dict? = some item := hitem
    refine ⟨u, ?_⟩
    rw [normalizeEntry, hdict]
    dsimp only
    rw [hu]
    rfl
  | _ => cases hitem

theorem normalizeEntry_of_malformed (hf : BodySpec f F unportable malformed)
    (h : EntryMalformed itemKey malformed entry) :
    ∃ e, normalizeEntry f itemKey entry = .error (.raised e) := by
  rcases h with ⟨hdict, htruthy⟩ | ⟨item, hitem, hmalformed⟩
  · refine ⟨.attributeError, ?_⟩
    cases entry with
    | dict items => cases hdict
    | _ =>
      rw [normalizeEntry, if_pos htruthy]
      rintro _ ⟨⟩
  · obtain ⟨e, he⟩ := hf.fails item hmalformed
    cases entry with
    | dict items =>
      have hdict : (get items itemKey).dict? = some item := hitem
      refine ⟨e, ?_⟩
      rw [normalizeEntry, hdict]
      dsimp only
      rw [he]
      rfl
    | _ => cases hitem

theorem normalizeEntry_eq_ok (hf : BodySpec f F unportable malformed) (entry entry' : Yaml) :
    normalizeEntry f itemKey entry = .ok entry' ↔
      (¬ EntryUnportable itemKey unportable entry ∧ ¬ EntryMalformed itemKey malformed entry) ∧
        entry' = adjustEntry itemKey F entry := by
  by_cases hportable : EntryUnportable itemKey unportable entry
  · obtain ⟨u, hu⟩ := normalizeEntry_of_unportable hf hportable
    rw [hu]
    exact iff_of_false (by rintro ⟨⟩) fun h ↦ h.1.1 hportable
  · by_cases hwell : EntryMalformed itemKey malformed entry
    · obtain ⟨e, he⟩ := normalizeEntry_of_malformed hf hwell
      rw [he]
      exact iff_of_false (by rintro ⟨⟩) fun h ↦ h.1.2 hwell
    · rw [normalizeEntry_of_fine hf hportable hwell, Except.ok.injEq, eq_comm]
      exact (and_iff_right ⟨hportable, hwell⟩).symm

theorem graceful_normalizeEntries (hf : BodySpec f F unportable malformed) (entries : List Yaml) :
    Graceful (entries.mapM (normalizeEntry f itemKey)) ↔
      ∀ before entry after, entries = before ++ entry :: after →
        EntryMalformed itemKey malformed entry → ∃ e ∈ before, EntryUnportable itemKey unportable e := by
  induction entries with
  | nil =>
    refine iff_of_true (graceful_ok _) ?_
    intro before entry after h
    simp at h
  | cons entry entries ih =>
    rw [mapM_cons]
    by_cases hwell : EntryMalformed itemKey malformed entry
    · obtain ⟨e, he⟩ := normalizeEntry_of_malformed hf hwell
      rw [he]
      refine iff_of_false (not_graceful_raised e) fun h ↦ ?_
      obtain ⟨_, hmem, -⟩ := h [] entry entries rfl hwell
      cases hmem
    · by_cases hportable : EntryUnportable itemKey unportable entry
      · obtain ⟨u, hu⟩ := normalizeEntry_of_unportable hf hportable
        rw [hu]
        refine iff_of_true (graceful_unportable u) ?_
        rintro (_ | ⟨e, before⟩) entry' after heq hmalformed
        · cases heq
          exact absurd hmalformed hwell
        · cases heq
          exact ⟨_, mem_cons_self, hportable⟩
      · have hmap : (normalizeEntry f itemKey entry >>= fun e ↦
            entries.mapM (normalizeEntry f itemKey) >>= fun es ↦ pure (e :: es)) =
            (entries.mapM (normalizeEntry f itemKey)).map (adjustEntry itemKey F entry :: ·) := by
          rw [normalizeEntry_of_fine hf hportable hwell]
          cases entries.mapM (normalizeEntry f itemKey) <;> rfl
        rw [hmap, graceful_map, ih]
        constructor
        · rintro h (_ | ⟨e, before⟩) entry' after heq hmalformed
          · cases heq
            exact absurd hmalformed hwell
          · obtain ⟨rfl, rfl⟩ := List.cons.inj heq
            obtain ⟨e', hmem, he'⟩ := h before entry' after rfl hmalformed
            exact ⟨e', mem_cons_of_mem _ hmem, he'⟩
        · rintro h before entry' after rfl hmalformed
          obtain ⟨e', hmem, he'⟩ := h (entry :: before) entry' after rfl hmalformed
          rcases mem_cons.mp hmem with rfl | hmem
          · exact absurd he' hportable
          · exact ⟨e', hmem, he'⟩

theorem normalizeSection_eq_ok (hf : BodySpec f F unportable malformed) :
    normalizeSection f listKey itemKey doc = .ok doc' ↔
      Clean listKey itemKey unportable malformed doc ∧ doc' = adjustSection listKey itemKey F doc := by
  unfold normalizeSection Clean
  by_cases htruthy : (get doc listKey).truthy = true
  · rw [if_pos htruthy]
    cases hiterate : (get doc listKey).iterate with
    | error e => simp [htruthy]
    | ok entries =>
      simp only [htruthy, forall_const, Except.ok.injEq, exists_eq_left']
      constructor
      · intro h
        cases hentries : entries.mapM (normalizeEntry f itemKey) with
        | error e =>
          rw [hentries] at h
          cases h
        | ok entries' =>
          obtain ⟨hall, rfl⟩ := (ExceptResult.mapM_eq_ok_map (normalizeEntry_eq_ok hf)).mp hentries
          rw [hentries] at h
          cases h
          exact ⟨hall, adjust_putBack hiterate⟩
      · rintro ⟨hall, rfl⟩
        rw [(ExceptResult.mapM_eq_ok_map (normalizeEntry_eq_ok hf)).mpr ⟨hall, rfl⟩]
        exact congrArg Except.ok (adjust_putBack hiterate)
  · rw [if_neg htruthy, adjustSection_of_falsy htruthy]
    simp [htruthy, eq_comm]

theorem graceful_normalizeSection (hf : BodySpec f F unportable malformed) :
    Graceful (normalizeSection f listKey itemKey doc) ↔
      Orderly listKey itemKey unportable malformed doc := by
  unfold normalizeSection Orderly
  by_cases htruthy : (get doc listKey).truthy = true
  · rw [if_pos htruthy]
    cases hiterate : (get doc listKey).iterate with
    | error e => simp [htruthy, not_graceful_raised]
    | ok entries =>
      simp only [htruthy, forall_const, Except.ok.injEq, exists_eq_left', graceful_map]
      exact graceful_normalizeEntries hf entries
  · rw [if_neg htruthy]
    exact iff_of_true (graceful_ok doc) fun h ↦ absurd h htruthy

theorem clean_iff (h : Orderly listKey itemKey unportable malformed doc) :
    Clean listKey itemKey unportable malformed doc ↔ ¬ Refused listKey itemKey unportable doc := by
  constructor
  · rintro hclean ⟨htruthy, entries, hiterate, e, hmem, he⟩
    obtain ⟨entries', hiterate', hall⟩ := hclean htruthy
    cases hiterate.symm.trans hiterate'
    exact (hall e hmem).1 he
  · intro hrefused htruthy
    obtain ⟨entries, hiterate, horderly⟩ := h htruthy
    have hportable : ∀ e ∈ entries, ¬ EntryUnportable itemKey unportable e :=
      fun e hmem he ↦ hrefused ⟨htruthy, entries, hiterate, e, hmem, he⟩
    refine ⟨entries, hiterate, fun e hmem ↦ ⟨hportable e hmem, fun he ↦ ?_⟩⟩
    obtain ⟨before, after, rfl⟩ := append_of_mem hmem
    obtain ⟨e', hmem', he'⟩ := horderly before e after rfl he
    exact hportable e' (mem_append_left _ hmem') he'

theorem Clean.adjustSection (h : Clean listKey itemKey unportable malformed doc)
    (hkeep : ∀ item, ¬ unportable item → ¬ malformed item →
      ¬ unportable (F item) ∧ ¬ malformed (F item)) :
    Clean listKey itemKey unportable malformed (adjustSection listKey itemKey F doc) := by
  intro htruthy
  rw [Yaml.adjustSection, get_adjust rfl] at htruthy ⊢
  rw [truthy_onElements] at htruthy
  obtain ⟨entries, hiterate, hall⟩ := h htruthy
  refine ⟨entries.map (adjustEntry itemKey F), by rw [iterate_onElements_adjustEntry, hiterate]; rfl, ?_⟩
  intro e' he'
  obtain ⟨e, hmem, rfl⟩ := mem_map.mp he'
  obtain ⟨hportable, hwell⟩ := hall e hmem
  have hitem : ∀ item, entryItem itemKey e = some item →
      ¬ unportable (F item) ∧ ¬ malformed (F item) := fun item hitem ↦
    hkeep item (fun hu ↦ hportable ⟨item, hitem, hu⟩) fun hm ↦ hwell (.inr ⟨item, hitem, hm⟩)
  unfold EntryUnportable EntryMalformed
  rw [entryItem_adjustEntry]
  constructor
  · rintro ⟨_, heq, hu⟩
    obtain ⟨item, hentry, rfl⟩ := Option.map_eq_some_iff.mp heq
    exact (hitem item hentry).1 hu
  · rintro (⟨hdict, htrue⟩ | ⟨_, heq, hm⟩)
    · cases e with
      | dict items => cases hdict
      | _ => exact hwell (.inl ⟨rfl, htrue⟩)
    · obtain ⟨item, hentry, rfl⟩ := Option.map_eq_some_iff.mp heq
      exact (hitem item hentry).2 hm

theorem Clean.items (h : Clean listKey itemKey unportable malformed doc) :
    ∀ item ∈ sectionItems listKey itemKey doc, ¬ unportable item ∧ ¬ malformed item := by
  intro item hmem
  obtain ⟨entry, hentry, hitem⟩ := mem_filterMap.mp hmem
  have hiterate : (get doc listKey).truthy = true ∧
      (get doc listKey).iterate = .ok (get doc listKey).elements := by
    cases hget : get doc listKey with
    | list items | tuple items =>
      rw [hget] at hentry
      refine ⟨?_, rfl⟩
      cases items with
      | nil => cases hentry
      | cons item items => rfl
    | _ =>
      rw [hget] at hentry
      cases hentry
  obtain ⟨entries, hentries, hall⟩ := h hiterate.1
  cases hiterate.2.symm.trans hentries
  obtain ⟨hportable, hwell⟩ := hall entry hentry
  exact ⟨fun hu ↦ hportable ⟨item, hitem, hu⟩, fun hm ↦ hwell (.inr ⟨item, hitem, hm⟩)⟩

end

/-! ### Credentials -/

def Missing (item : Items) (credential : Credential) : Prop :=
  ¬ (get item credential.data).truthy = true ∧ (get item credential.path).truthy = true

def dropped (credentials : List Credential) (item : Items) (key : Scalar) : Bool :=
  credentials.any fun c ↦ key == .str c.path && (get item c.data).truthy

/-- The item without the paths that have an inline form beside them. -/
def inlined (credentials : List Credential) (item : Items) : Items :=
  item.filter fun i ↦ !dropped credentials item i.1

/-- No credential has its path at a key of another one. -/
structure Separate (credentials : List Credential) : Prop where
  paths : (credentials.map Credential.path).Nodup
  data : ∀ c ∈ credentials, ∀ c' ∈ credentials, c.path ≠ c'.data

section

variable {repr : Yaml → String} {source : NormalizationSource} {credential : Credential}
  {credentials : List Credential} {item : Items} {key : String}

theorem Separate.tail (h : Separate (credential :: credentials)) : Separate credentials where
  paths := (nodup_cons.mp h.paths).2
  data := fun c hc c' hc' ↦ h.data c (mem_cons_of_mem _ hc) c' (mem_cons_of_mem _ hc')

theorem get_inlined : get (inlined credentials item) key =
    if dropped credentials item (.str key) then .scalar .none else get item key := by
  rw [inlined, get_filter (fun k ↦ !dropped credentials item k)]
  cases dropped credentials item (.str key) <;> rfl

theorem get_inlined_of_notMem (h : key ∉ credentials.map Credential.path) :
    get (inlined credentials item) key = get item key := by
  have hkept : dropped credentials item (.str key) = false := by
    simp only [dropped, any_eq_false, Bool.and_eq_true, beq_iff_eq, not_and]
    intro c hc heq
    exact absurd (Scalar.str.inj heq ▸ mem_map_of_mem hc) h
  rw [get_inlined, hkept, if_neg Bool.false_ne_true]

theorem get_data_inlined (hseparate : Separate credentials) {c : Credential} (hc : c ∈ credentials) :
    get (inlined credentials item) c.data = get item c.data := by
  refine get_inlined_of_notMem fun hmem ↦ ?_
  obtain ⟨c', hc', heq⟩ := mem_map.mp hmem
  exact hseparate.data c' hc' c hc heq

variable (item) in
theorem dropped_inlined (hseparate : Separate credentials) (k : Scalar) :
    dropped credentials (inlined credentials item) k = dropped credentials item k := by
  rw [Bool.eq_iff_iff, dropped, dropped, any_eq_true, any_eq_true]
  refine exists_congr fun c ↦ and_congr_right fun hc ↦ ?_
  rw [get_data_inlined hseparate hc]

theorem inlined_inlined (hseparate : Separate credentials) :
    inlined credentials (inlined credentials item) = inlined credentials item := by
  rw [inlined, inlined, filter_filter]
  refine filter_congr fun i _ ↦ ?_
  have hsame := dropped_inlined item hseparate i.1
  rw [inlined] at hsame
  rw [hsame, Bool.and_self]

theorem not_truthy_path_inlined {c : Credential} (hc : c ∈ credentials) (h : ¬ Missing item c) :
    ¬ (get (inlined credentials item) c.path).truthy = true := by
  rw [get_inlined]
  split
  · exact Bool.false_ne_true
  · next hkept =>
    intro hpath
    refine h ⟨fun hdata ↦ hkept ?_, hpath⟩
    exact any_eq_true.mpr ⟨c, hc, by rw [hdata, beq_self_eq_true]; rfl⟩

theorem not_missing_inlined {c : Credential} (hc : c ∈ credentials) (h : ¬ Missing item c) :
    ¬ Missing (inlined credentials item) c :=
  fun hmissing ↦ not_truthy_path_inlined hc h hmissing.2

theorem inlined_cons (hseparate : Separate (credential :: credentials)) :
    inlined credentials (inlined [credential] item) = inlined (credential :: credentials) item := by
  rw [inlined, inlined, inlined, filter_filter]
  refine filter_congr fun i _ ↦ ?_
  have hrest : dropped credentials (inlined [credential] item) i.1 = dropped credentials item i.1 := by
    rw [Bool.eq_iff_iff, dropped, dropped, any_eq_true, any_eq_true]
    refine exists_congr fun c ↦ and_congr_right fun hc ↦ ?_
    have hdata : c.data ∉ [credential].map Credential.path := fun hmem ↦
      hseparate.data credential mem_cons_self c (mem_cons_of_mem _ hc)
        (mem_singleton.mp hmem).symm
    rw [get_inlined_of_notMem hdata]
  rw [inlined] at hrest
  rw [hrest, ← Bool.not_or, Bool.or_comm]
  simp only [dropped, any_cons, any_nil, Bool.or_false]

theorem inlineCredential_of_not_missing (h : ¬ Missing item credential) :
    inlineCredential repr source credential item = .ok (inlined [credential] item) := by
  unfold inlineCredential
  split
  · next hdata =>
    refine congrArg Except.ok (filter_congr fun i _ ↦ ?_)
    rw [Bool.eq_iff_iff]
    simp [dropped, hdata]
  · next hdata =>
    rw [if_neg fun hpath ↦ h ⟨hdata, hpath⟩]
    refine congrArg Except.ok (filter_eq_self.mpr fun i _ ↦ ?_).symm
    simp [dropped, hdata]

theorem inlineCredential_of_missing (h : Missing item credential) :
    ∃ u, inlineCredential repr source credential item = .error (.unportable u) := by
  rw [inlineCredential, if_neg h.1, if_pos h.2]
  exact ⟨_, rfl⟩

theorem missing_inlined_iff (h : Separate (credential :: credentials)) {c : Credential}
    (hc : c ∈ credentials) : Missing (inlined [credential] item) c ↔ Missing item c := by
  have hdata : c.data ∉ [credential].map Credential.path := fun hmem ↦
    h.data credential mem_cons_self c (mem_cons_of_mem _ hc) (mem_singleton.mp hmem).symm
  have hpath : c.path ∉ [credential].map Credential.path := fun hmem ↦
    (nodup_cons.mp h.paths).1 (mem_singleton.mp hmem ▸ mem_map_of_mem hc)
  rw [Missing, Missing, get_inlined_of_notMem hdata, get_inlined_of_notMem hpath]

theorem foldlM_inlineCredential (hseparate : Separate credentials)
    (h : ∀ c ∈ credentials, ¬ Missing item c) :
    credentials.foldlM (fun item c ↦ inlineCredential repr source c item) item =
      .ok (inlined credentials item) := by
  induction credentials generalizing item with
  | nil => exact congrArg Except.ok (filter_eq_self.mpr fun _ _ ↦ rfl).symm
  | cons c credentials ih =>
    obtain ⟨hc, hrest⟩ := forall_mem_cons.mp h
    rw [foldlM_cons, inlineCredential_of_not_missing hc, ← inlined_cons hseparate]
    exact ih hseparate.tail fun c' hc' hmissing ↦
      hrest c' hc' ((missing_inlined_iff hseparate hc').mp hmissing)

theorem foldlM_inlineCredential_of_missing (hseparate : Separate credentials)
    (h : ∃ c ∈ credentials, Missing item c) :
    ∃ u, credentials.foldlM (fun item c ↦ inlineCredential repr source c item) item =
      .error (.unportable u) := by
  induction credentials generalizing item with
  | nil => simp at h
  | cons c credentials ih =>
    rw [foldlM_cons]
    by_cases hc : Missing item c
    · obtain ⟨u, hu⟩ := inlineCredential_of_missing hc
      exact ⟨u, by rw [hu]; rfl⟩
    · rw [inlineCredential_of_not_missing hc]
      obtain ⟨c', hmem, hmissing⟩ := h
      rcases mem_cons.mp hmem with rfl | hmem
      · exact absurd hmissing hc
      · exact ih hseparate.tail ⟨c', hmem, (missing_inlined_iff hseparate hmem).mpr hmissing⟩

end

/-! ### Clusters and users -/

theorem separate_certificateAuthority : Separate [certificateAuthority] := ⟨by decide, by decide⟩

theorem separate_userCredentials : Separate userCredentials := ⟨by decide, by decide⟩

def ClusterUnportable (cluster : Items) : Prop := Missing cluster certificateAuthority

def userCommand (user : Items) : Option Yaml := (get user "exec").dict?.map execCommand

def UserUnportable (user : Items) : Prop :=
  (∃ c ∈ userCredentials, Missing user c) ∨
    ∃ command, userCommand user = some command ∧ command.hashable = true ∧ isSupported command = false

/-- The command of the exec block is a list or a mapping. -/
def UserMalformed (user : Items) : Prop :=
  (∀ c ∈ userCredentials, ¬ Missing user c) ∧
    ∃ command, userCommand user = some command ∧ command.hashable = false

section

variable {repr : Yaml → String} {source : NormalizationSource} {user : Items}

theorem clusterSpec : BodySpec (normalizeCluster repr source) (inlined [certificateAuthority])
    ClusterUnportable fun _ ↦ False where
  ok := fun _ h _ ↦ inlineCredential_of_not_missing h
  refused := fun _ h ↦ inlineCredential_of_missing h
  fails := fun _ h ↦ h.elim

theorem userCommand_inlined : userCommand (inlined userCredentials user) = userCommand user := by
  rw [userCommand, get_inlined_of_notMem (by decide), userCommand]

theorem normalizeUser_of_not_missing (h : ∀ c ∈ userCredentials, ¬ Missing user c) :
    normalizeUser repr source user = checkExec repr source (inlined userCredentials user) := by
  rw [normalizeUser, foldlM_inlineCredential separate_userCredentials h]
  rfl

theorem checkExec_eq (user : Items) : checkExec repr source user =
    match userCommand user with
    | none => .ok user
    | some command =>
      if !command.hashable then .error (.raised .typeError)
      else if isSupported command then .ok user
      else .error (.unportable (kubeconfigUnportableError "exec.command"
        (execUserMessage (command.toText repr) source))) := by
  rw [checkExec, userCommand]
  cases (get user "exec").dict? <;> rfl

theorem userSpec : BodySpec (normalizeUser repr source) (inlined userCredentials) UserUnportable
    UserMalformed where
  ok := by
    intro user hportable hwell
    have hcredentials : ∀ c ∈ userCredentials, ¬ Missing user c :=
      fun c hc h ↦ hportable (.inl ⟨c, hc, h⟩)
    rw [normalizeUser_of_not_missing hcredentials, checkExec_eq, userCommand_inlined]
    cases hcommand : userCommand user with
    | none => rfl
    | some command =>
      have hhash : command.hashable = true := by
        by_contra h
        exact hwell ⟨hcredentials, command, hcommand, Bool.not_eq_true _ ▸ h⟩
      have hsupported : isSupported command = true := by
        by_contra h
        exact hportable (.inr ⟨command, hcommand, hhash, Bool.not_eq_true _ ▸ h⟩)
      simp only [hhash, hsupported, Bool.not_true, Bool.false_eq_true, if_false, if_true]
  refused := by
    rintro user h
    by_cases hcredentials : ∃ c ∈ userCredentials, Missing user c
    · obtain ⟨u, hu⟩ := foldlM_inlineCredential_of_missing separate_userCredentials hcredentials
      exact ⟨u, by rw [normalizeUser, hu]; rfl⟩
    · obtain ⟨command, hcommand, hhash, hsupported⟩ := h.resolve_left hcredentials
      have hnone : ∀ c ∈ userCredentials, ¬ Missing user c :=
        fun c hc hmissing ↦ hcredentials ⟨c, hc, hmissing⟩
      rw [normalizeUser_of_not_missing hnone, checkExec_eq, userCommand_inlined, hcommand]
      simp only [hhash, hsupported, Bool.not_true, Bool.false_eq_true, if_false]
      exact ⟨_, rfl⟩
  fails := by
    rintro user ⟨hcredentials, command, hcommand, hhash⟩
    rw [normalizeUser_of_not_missing hcredentials, checkExec_eq, userCommand_inlined, hcommand]
    simp only [hhash, Bool.not_false, if_true]
    exact ⟨_, rfl⟩

theorem clusterUnportable_inlined (h : ¬ ClusterUnportable user) :
    ¬ ClusterUnportable (inlined [certificateAuthority] user) :=
  not_missing_inlined (mem_singleton_self _) h

theorem userUnportable_inlined (h : ¬ UserUnportable user) :
    ¬ UserUnportable (inlined userCredentials user) := by
  rintro (⟨c, hc, hmissing⟩ | hcommand)
  · exact not_missing_inlined hc (fun hm ↦ h (.inl ⟨c, hc, hm⟩)) hmissing
  · rw [userCommand_inlined] at hcommand
    exact h (.inr hcommand)

theorem userMalformed_inlined (hportable : ¬ UserUnportable user) (h : ¬ UserMalformed user) :
    ¬ UserMalformed (inlined userCredentials user) := by
  rintro ⟨-, hcommand⟩
  rw [userCommand_inlined] at hcommand
  exact h ⟨fun c hc hm ↦ hportable (.inl ⟨c, hc, hm⟩), hcommand⟩

end

/-! ### Documents -/

def WellFormed (doc : Items) : Prop :=
  Orderly "clusters" "cluster" ClusterUnportable (fun _ ↦ False) doc ∧
    (Refused "clusters" "cluster" ClusterUnportable doc ∨
      Orderly "users" "user" UserUnportable UserMalformed doc)

def portable (doc : Items) : Items :=
  adjustSection "users" "user" (inlined userCredentials)
    (adjustSection "clusters" "cluster" (inlined [certificateAuthority]) doc)

section

variable {repr : Yaml → String} {source : NormalizationSource} {doc doc' : Items}

theorem graceful_bind {α β : Type} {x : Except NormalizeError α} {g : α → Except NormalizeError β} :
    Graceful (x >>= g) ↔ Graceful x ∧ ∀ a, x = .ok a → Graceful (g a) := by
  cases x with
  | error e =>
    constructor
    · intro h
      refine ⟨fun e' he ↦ h e' (by cases he; rfl), ?_⟩
      rintro _ ⟨⟩
    · rintro ⟨h, -⟩ e' he
      cases he
      exact h e rfl
  | ok a =>
    constructor
    · intro h
      refine ⟨graceful_ok a, ?_⟩
      rintro _ ⟨⟩
      exact h
    · exact fun h ↦ h.2 a rfl

theorem orderly_users_adjustSection {F : Items → Items} :
    Orderly "users" "user" UserUnportable UserMalformed (adjustSection "clusters" "cluster" F doc) ↔
      Orderly "users" "user" UserUnportable UserMalformed doc := by
  rw [Orderly, adjustSection, get_adjust_of_ne (by decide), Orderly]

theorem clean_users_adjustSection {F : Items → Items} :
    Clean "users" "user" UserUnportable UserMalformed (adjustSection "clusters" "cluster" F doc) ↔
      Clean "users" "user" UserUnportable UserMalformed doc := by
  rw [Clean, adjustSection, get_adjust_of_ne (by decide), Clean]

theorem clean_clusters_adjustSection {F : Items → Items} :
    Clean "clusters" "cluster" ClusterUnportable (fun _ ↦ False) (adjustSection "users" "user" F doc) ↔
      Clean "clusters" "cluster" ClusterUnportable (fun _ ↦ False) doc := by
  rw [Clean, adjustSection, get_adjust_of_ne (by decide), Clean]

theorem graceful_normalizeDocument :
    Graceful (normalizeDocument repr source doc) ↔ WellFormed doc := by
  rw [normalizeDocument, graceful_bind, graceful_normalizeSection clusterSpec, WellFormed]
  refine and_congr_right fun horderly ↦ ?_
  have hclean := clean_iff horderly
  constructor
  · intro h
    by_cases hrefused : Refused "clusters" "cluster" ClusterUnportable doc
    · exact .inl hrefused
    · have hok : normalizeSection (normalizeCluster repr source) "clusters" "cluster" doc =
          .ok (adjustSection "clusters" "cluster" (inlined [certificateAuthority]) doc) :=
        (normalizeSection_eq_ok clusterSpec).mpr ⟨hclean.mpr hrefused, rfl⟩
      exact .inr (orderly_users_adjustSection.mp ((graceful_normalizeSection userSpec).mp (h _ hok)))
  · rintro h doc' hdoc'
    obtain ⟨hcleanDoc, rfl⟩ := (normalizeSection_eq_ok clusterSpec).mp hdoc'
    refine (graceful_normalizeSection userSpec).mpr (orderly_users_adjustSection.mpr ?_)
    exact h.resolve_left (hclean.mp hcleanDoc)

theorem normalizeDocument_eq_ok : normalizeDocument repr source doc = .ok doc' ↔
    Clean "clusters" "cluster" ClusterUnportable (fun _ ↦ False) doc ∧
      Clean "users" "user" UserUnportable UserMalformed doc ∧ doc' = portable doc := by
  rw [normalizeDocument, ExceptResult.bind_eq_ok]
  constructor
  · rintro ⟨middle, hclusters, husers⟩
    obtain ⟨hclean, rfl⟩ := (normalizeSection_eq_ok clusterSpec).mp hclusters
    obtain ⟨hclean', rfl⟩ := (normalizeSection_eq_ok userSpec).mp husers
    exact ⟨hclean, clean_users_adjustSection.mp hclean', rfl⟩
  · rintro ⟨hclusters, husers, rfl⟩
    exact ⟨_, (normalizeSection_eq_ok clusterSpec).mpr ⟨hclusters, rfl⟩,
      (normalizeSection_eq_ok userSpec).mpr ⟨clean_users_adjustSection.mpr husers, rfl⟩⟩

theorem portable_portable (doc : Items) : portable (portable doc) = portable doc := by
  have hclusters : inlined [certificateAuthority] ∘ inlined [certificateAuthority] =
      inlined [certificateAuthority] := funext fun _ ↦ inlined_inlined separate_certificateAuthority
  have husers : inlined userCredentials ∘ inlined userCredentials = inlined userCredentials :=
    funext fun _ ↦ inlined_inlined separate_userCredentials
  rw [portable, portable, adjustSection_comm (by decide : "clusters" ≠ "users"), adjustSection_adjustSection,
    adjustSection_adjustSection, hclusters, husers]

theorem clean_portable
    (hclusters : Clean "clusters" "cluster" ClusterUnportable (fun _ ↦ False) doc)
    (husers : Clean "users" "user" UserUnportable UserMalformed doc) :
    Clean "clusters" "cluster" ClusterUnportable (fun _ ↦ False) (portable doc) ∧
      Clean "users" "user" UserUnportable UserMalformed (portable doc) :=
  ⟨clean_clusters_adjustSection.mpr (hclusters.adjustSection fun _ h hm ↦
      ⟨clusterUnportable_inlined h, hm⟩),
    (clean_users_adjustSection.mpr husers).adjustSection fun _ h hm ↦
      ⟨userUnportable_inlined h, userMalformed_inlined h hm⟩⟩

/-- No path of a credential is left that is not empty, and every exec command is supported. -/
structure IsPortable (doc : Items) : Prop where
  clusters : ∀ cluster ∈ sectionItems "clusters" "cluster" doc,
    (get cluster certificateAuthority.path).truthy = false
  users : ∀ user ∈ sectionItems "users" "user" doc, ∀ c ∈ userCredentials,
    (get user c.path).truthy = false
  commands : ∀ user ∈ sectionItems "users" "user" doc, ∀ command, userCommand user = some command →
    isSupported command = true

theorem isPortable_portable
    (hclusters : Clean "clusters" "cluster" ClusterUnportable (fun _ ↦ False) doc)
    (husers : Clean "users" "user" UserUnportable UserMalformed doc) : IsPortable (portable doc) := by
  have hclusterItems : sectionItems "clusters" "cluster" (portable doc) =
      (sectionItems "clusters" "cluster" doc).map (inlined [certificateAuthority]) := by
    rw [portable, sectionItems_adjustSection_of_ne (by decide), sectionItems_adjustSection]
  have huserItems : sectionItems "users" "user" (portable doc) =
      (sectionItems "users" "user" doc).map (inlined userCredentials) := by
    rw [portable, sectionItems_adjustSection, sectionItems_adjustSection_of_ne (by decide)]
  constructor
  · rw [hclusterItems]
    intro cluster' hmem'
    obtain ⟨cluster, hmem, rfl⟩ := mem_map.mp hmem'
    exact Bool.eq_false_iff.mpr
      (not_truthy_path_inlined (mem_singleton_self _) (hclusters.items cluster hmem).1)
  · rw [huserItems]
    intro user' hmem' c hc
    obtain ⟨user, hmem, rfl⟩ := mem_map.mp hmem'
    exact Bool.eq_false_iff.mpr
      (not_truthy_path_inlined hc fun hm ↦ (husers.items user hmem).1 (.inl ⟨c, hc, hm⟩))
  · rw [huserItems]
    intro user' hmem' command hcommand
    obtain ⟨user, hmem, rfl⟩ := mem_map.mp hmem'
    rw [userCommand_inlined] at hcommand
    obtain ⟨hportable, hwell⟩ := husers.items user hmem
    by_contra hsupported
    rw [Bool.not_eq_true] at hsupported
    cases hhash : command.hashable with
    | true => exact hportable (.inr ⟨command, hcommand, hhash, hsupported⟩)
    | false => exact hwell ⟨fun c hc hm ↦ hportable (.inl ⟨c, hc, hm⟩), command, hcommand, hhash⟩

def withoutPaths (credentials : List Credential) (item : Items) : Items :=
  item.filter fun i ↦ !credentials.any fun c ↦ i.1 == .str c.path

def others (doc : Items) : Items :=
  adjustSection "users" "user" (withoutPaths userCredentials)
    (adjustSection "clusters" "cluster" (withoutPaths [certificateAuthority]) doc)

theorem withoutPaths_inlined (credentials : List Credential) (item : Items) :
    withoutPaths credentials (inlined credentials item) = withoutPaths credentials item := by
  rw [withoutPaths, inlined, filter_filter]
  refine filter_congr fun i _ ↦ ?_
  rw [Bool.eq_iff_iff]
  simp only [Bool.and_eq_true, Bool.not_eq_true', dropped, any_eq_false, Bool.and_eq_true]
  constructor
  · exact fun h ↦ h.1
  · exact fun h ↦ ⟨h, fun c hc hdropped ↦ h c hc hdropped.1⟩

theorem others_portable (doc : Items) : others (portable doc) = others doc := by
  have hclusters : withoutPaths [certificateAuthority] ∘ inlined [certificateAuthority] =
      withoutPaths [certificateAuthority] := funext (withoutPaths_inlined _)
  have husers : withoutPaths userCredentials ∘ inlined userCredentials = withoutPaths userCredentials :=
    funext (withoutPaths_inlined _)
  rw [others, portable, adjustSection_comm (by decide : "clusters" ≠ "users"), adjustSection_adjustSection,
    adjustSection_adjustSection, hclusters, husers]
  rfl

end

/-! ### Texts -/

section

variable (load : String → Except LoadError Yaml) (dump : Yaml → String) (repr : Yaml → String)
  (source : NormalizationSource) (yamlText : String)

/-- The normalization of the text raises `KubeconfigUnportableError`, or it gives a text whose document
is portable, differs from the one of the text in paths only and stays as it is in any normalization. -/
def NormalizesPortably : Prop :=
  (∃ u, normalizeKubeconfig load dump repr source yamlText = .error (.unportable u)) ∨
    ∃ text input doc, normalizeKubeconfig load dump repr source yamlText = .ok text ∧
      load yamlText = .ok (.dict input) ∧ load text = .ok (.dict doc) ∧ IsPortable doc ∧
      others doc = others input ∧ ∀ source', ∃ text',
        normalizeKubeconfig load dump repr source' text = .ok text' ∧ load text' = .ok (.dict doc)

def Loadable : Prop :=
  match load yamlText with
  | .error (.yamlError _) => True
  | .error .other => False
  | .ok (.dict doc) => WellFormed doc
  | .ok _ => True

variable {load dump repr source yamlText}

/-- A text is normalized to a portable one or refused as not portable if and only if its document is well
formed, where what is dumped is loaded again as it is. -/
theorem normalizesPortably_iff
    (hround : ∀ input doc, load yamlText = .ok (.dict input) →
      normalizeDocument repr source input = .ok doc → load (dump (.dict doc)) = .ok (.dict doc)) :
    NormalizesPortably load dump repr source yamlText ↔ Loadable load yamlText := by
  unfold NormalizesPortably Loadable normalizeKubeconfig
  cases hload : load yamlText with
  | error e =>
    cases e with
    | yamlError text => exact iff_of_true (.inl ⟨_, rfl⟩) trivial
    | other => simp
  | ok value =>
    cases value with
    | dict input =>
      have hgraceful : Graceful (normalizeDocument repr source input) ↔ WellFormed input :=
        graceful_normalizeDocument
      dsimp only
      rw [← hgraceful]
      constructor
      · rintro (⟨u, hu⟩ | ⟨text, _, _, htext, -⟩)
        · rw [← graceful_map, hu]
          exact graceful_unportable u
        · rw [← graceful_map, htext]
          exact graceful_ok text
      · intro h
        cases hdoc : normalizeDocument repr source input with
        | error e =>
          obtain ⟨u, rfl⟩ := h e hdoc
          exact .inl ⟨u, rfl⟩
        | ok doc =>
          have hagain := hround input doc hload hdoc
          obtain ⟨hclusters, husers, rfl⟩ := normalizeDocument_eq_ok.mp hdoc
          obtain ⟨hclusters', husers'⟩ := clean_portable hclusters husers
          refine .inr ⟨_, input, portable input, rfl, rfl, hagain, isPortable_portable hclusters husers,
            others_portable input, fun source' ↦ ⟨_, ?_, hagain⟩⟩
          have hsecond : normalizeDocument repr source' (portable input) = .ok (portable input) :=
            normalizeDocument_eq_ok.mpr ⟨hclusters', husers', (portable_portable input).symm⟩
          rw [hagain]
          dsimp only
          rw [hsecond]
          rfl
    | _ => exact iff_of_true (.inl ⟨_, rfl⟩) trivial

def mixedDocument : Items :=
  [(.str "clusters", .list [.dict [(.str "name", .scalar (.str "c")), (.str "cluster", .dict
    [(.str "certificate-authority", .scalar (.str "/ca.crt")),
      (.str "certificate-authority-data", .scalar (.str "QQ=="))])]])]

/-- A loader of that document as `mixed`, and of what becomes of it. -/
def mixedLoad (yamlText : String) : Except LoadError Yaml :=
  .ok (.dict (if yamlText = "mixed" then mixedDocument else portable mixedDocument))

theorem mixed_normalizesPortably : NormalizesPortably mixedLoad (fun _ ↦ "normalized") (fun _ ↦ "")
    .manualUpload "mixed" := by
  have hnormalized : normalizeDocument (fun _ ↦ "") .manualUpload mixedDocument =
      .ok (portable mixedDocument) := rfl
  refine (normalizesPortably_iff ?_).mpr ?_
  · rintro _ doc ⟨⟩ hdoc
    cases hnormalized.symm.trans hdoc
    rfl
  · exact graceful_normalizeDocument.mp (hnormalized ▸ graceful_ok _)

def numberLoad (_ : String) : Except LoadError Yaml :=
  .ok (.dict [(.str "clusters", .scalar (.int 5))])

/-- The number is not iterated, and what that raises is no `KubeconfigUnportableError`. -/
theorem clusters_number : ¬ ∀ (source : NormalizationSource) (yamlText : String),
    NormalizesPortably numberLoad (fun _ ↦ "") (fun _ ↦ "") source yamlText := by
  intro h
  have hraised : normalizeKubeconfig numberLoad (fun _ ↦ "") (fun _ ↦ "") .manualUpload "clusters: 5" =
      .error (.raised .typeError) := rfl
  rcases h .manualUpload "clusters: 5" with ⟨u, hu⟩ | ⟨text, _, _, htext, -⟩
  · cases hraised.symm.trans hu
  · cases hraised.symm.trans htext

end

end BnkForge.Kubeconfig
