import BnkForge.Container.Engine
import BnkForge.Lib.Assoc
import BnkForge.Lib.ExceptResult

/-!
# What the validation of an artifact promises

The facts about a manifest that `validate_artifact_manifest` accepts which the engine relies on, for
the manifest as the validation leaves it.
-/

namespace BnkForge.Container

open Python ExceptResult List

/-! ### Checks that succeed -/

section

variable {α : Type}

theorem require_eq_ok {condition : Bool} {message : String} {u : Unit} :
    require condition message = .ok u ↔ condition = true := by
  unfold require
  split
  · next h => simp [h]
  · next h => simp [h]

theorem each_eq_ok {check : α → Except MetadataError Unit} {xs : List α} {u : Unit} :
    each check xs = .ok u ↔ ∀ x ∈ xs, check x = .ok () := by
  induction xs with
  | nil => simp [each]
  | cons x xs ih =>
    rw [each, bind_eq_ok, forall_mem_cons]
    constructor
    · rintro ⟨⟨⟩, hx, hxs⟩
      exact ⟨hx, ih.mp hxs⟩
    · rintro ⟨hx, hxs⟩
      exact ⟨(), hx, ih.mpr hxs⟩

theorem mem_indexed {x : α} {xs : List α} (h : x ∈ xs) : ∃ i, (i, x) ∈ indexed xs := by
  obtain ⟨i, hi⟩ := getElem?_of_mem h
  exact ⟨i, mem_map.mpr ⟨(x, i), mk_mem_zipIdx_iff_getElem?.mpr hi, rfl⟩⟩

theorem snd_mem_of_mem_indexed {p : Nat × α} {xs : List α} (h : p ∈ indexed xs) : p.2 ∈ xs := by
  obtain ⟨q, hq, rfl⟩ := mem_map.mp h
  exact mem_of_getElem? (mk_mem_zipIdx_iff_getElem?.mp hq)

end

/-! ### Steps -/

/-- A step whose argv is a list of texts, the first of which is no shell. -/
structure ArgvStep (step : Value) : Prop where
  dict : step.isDict = true
  argv : ∃ first rest, step.get "args" = .list (.str first :: List.map .str rest) ∧
    folded first ∉ stepShellTokens

section

variable {step steps manifest manifest' : Value} {path phase : String}

private theorem exists_map_str {tokens : List Value} (h : ∀ token ∈ tokens, token.isStr = true) :
    ∃ texts : List String, tokens = texts.map .str := by
  induction tokens with
  | nil => exact ⟨[], rfl⟩
  | cons token tokens ih =>
    obtain ⟨texts, rfl⟩ := ih fun t ht ↦ h t (mem_cons_of_mem _ ht)
    cases token with
    | str text => exact ⟨text :: texts, rfl⟩
    | _ => exact absurd (h _ mem_cons_self) nofun

theorem ArgvStep.of_validateStep (h : validateStep path step = .ok ()) : ArgvStep step := by
  unfold validateStep at h
  simp only [bind_eq_ok, require_eq_ok, each_eq_ok, exists_const] at h
  obtain ⟨hdict, -, hargs, hstr, hfirst, -⟩ := h
  refine ⟨hdict, ?_⟩
  cases hlist : step.get "args" with
  | list tokens =>
    rw [hlist] at hargs hstr hfirst
    obtain ⟨texts, rfl⟩ := exists_map_str hstr
    cases texts with
    | nil => cases hargs
    | cons first rest => exact ⟨first, rest, rfl, by simpa [elements] using hfirst⟩
  | _ =>
    rw [hlist] at hargs
    cases hargs

private theorem steps_of_each (pathOf : Nat → String)
    (hlist : (steps.isList && !(elements steps).isEmpty) = true)
    (hsteps : ∀ p ∈ indexed (elements steps), validateStep (pathOf p.1) p.2 = .ok ()) :
    ∃ step rest, steps = .list (step :: rest) ∧
      ∀ s ∈ step :: rest, ∃ path, validateStep path s = .ok () := by
  cases steps with
  | list items =>
    cases items with
    | nil => cases hlist
    | cons step rest =>
      refine ⟨step, rest, rfl, fun s hs ↦ ?_⟩
      obtain ⟨i, hi⟩ := mem_indexed hs
      exact ⟨_, hsteps (i, s) hi⟩
  | _ => cases hlist

theorem validateStepList_spec (h : validateStepList phase steps = .ok ()) :
    ∃ step rest, steps = .list (step :: rest) ∧
      ∀ s ∈ step :: rest, ∃ path, validateStep path s = .ok () := by
  unfold validateStepList at h
  simp only [bind_eq_ok, require_eq_ok, each_eq_ok, exists_const] at h
  exact steps_of_each (fun i ↦ "steps." ++ phase ++ "[" ++ toString i ++ "]") h.1 h.2

theorem validateAction_spec {repr : Value → String} {name : String} {definition : Value}
    (h : validateAction repr name definition = .ok ()) :
    ∃ step rest, definition.get "steps" = .list (step :: rest) ∧
      ∀ s ∈ step :: rest, ∃ path, validateStep path s = .ok () := by
  unfold validateAction at h
  simp only [bind_eq_ok, require_eq_ok] at h
  obtain ⟨-, -, -, -, -, -, -, -, -, -, h⟩ := h
  -- The check of the rating stands before the ones of the steps on one of two ways.
  split at h
  all_goals simp only [bind_eq_ok, require_eq_ok, each_eq_ok, exists_const] at h
  · obtain ⟨-, -, -, hlist, hsteps, -⟩ := h
    exact steps_of_each (fun i ↦ "actions." ++ name ++ ".steps[" ++ toString i ++ "]")
      hlist hsteps
  · obtain ⟨hlist, hsteps, -⟩ := h
    exact steps_of_each (fun i ↦ "actions." ++ name ++ ".steps[" ++ toString i ++ "]")
      hlist hsteps

/-! ### The manifest that the validation leaves -/

private theorem lookup_item (items : List (String × Value)) (k other : String) (v : Value) :
    ((k, v) :: items).lookup other = if other = k then some v else items.lookup other := by
  by_cases h : other = k
  · simp [h]
  · simp [lookup_cons, h, beq_eq_false_iff_ne.mpr h]

private theorem lookup_set (items : List (String × Value)) (key other : String) (value : Value) :
    (items.map fun item ↦ if item.1 = key then (key, value) else item).lookup other =
      if other = key ∧ ∃ item ∈ items, item.1 = key then some value else items.lookup other := by
  induction items with
  | nil => simp
  | cons item items ih =>
    obtain ⟨k, v⟩ := item
    rw [map_cons, lookup_item]
    by_cases hk : k = key
    · simp only [hk, if_true, lookup_item, ih, exists_mem_cons_iff, true_or, and_true]
      grind
    · simp only [hk, if_false, lookup_item, ih, exists_mem_cons_iff, false_or]
      by_cases ho : other = k
      · rw [if_pos ho, if_pos ho, if_neg fun h ↦ hk (ho.symm.trans h.1)]
      · rw [if_neg ho, if_neg ho]

private theorem get_setItem (v : Value) (key other : String) (value : Value) :
    (setItem v key value).get other = if other = key then value else v.get other := by
  unfold setItem
  split
  · next h =>
    have hkey : ∃ item ∈ v.items, item.1 = key := by simpa using h
    show ((List.lookup other (v.items.map _)).getD Value.none) = _
    rw [lookup_set, Value.get]
    by_cases ho : other = key
    · rw [if_pos ⟨ho, hkey⟩, if_pos ho, Option.getD_some]
    · rw [if_neg fun h ↦ ho h.1, if_neg ho]
  · next h =>
    show ((List.lookup other (v.items ++ [(key, value)])).getD Value.none) = _
    rw [lookup_append, lookup_item, lookup_nil]
    by_cases ho : other = key
    · have hnone : v.items.lookup other = none := by
        rw [lookup_eq_none_iff, ho]
        intro item hitem
        rw [bne_iff_ne]
        rintro rfl
        exact h (any_eq_true.mpr ⟨item, hitem, beq_self_eq_true _⟩)
      rw [hnone, if_pos ho, if_pos ho, Option.none_or, Option.getD_some]
    · rw [if_neg ho, if_neg ho, Option.or_none, Value.get]

theorem get_of_not_dict {v : Value} (h : v.isDict = false) (key : String) : v.get key = .none := by
  cases v with
  | dict items => cases h
  | _ => rfl

private theorem canonicalStepSets_eq (manifest : Value) :
    canonicalStepSets manifest =
      if ((manifest.get "execution").get "steps").isDict then
        ((manifest.get "execution").get "steps").items
      else (manifest.get "steps").items := by
  unfold canonicalStepSets
  cases hdict : (manifest.get "execution").isDict with
  | true => simp only [hdict, Bool.true_and]
  | false => simp only [hdict, Bool.false_and, get_of_not_dict hdict, show Value.none.isDict = false from rfl]

theorem normalizeEngine_spec {kind : ArtifactKind} (h : normalizeEngine manifest kind = .ok manifest') :
    (∀ key, key ≠ "execution" → manifest'.get key = manifest.get key) ∧
      ∀ key, key ≠ "engine" →
        (manifest'.get "execution").get key = (manifest.get "execution").get key := by
  unfold normalizeEngine at h
  cases hexecution : manifest.get "execution" with
  | none =>
    simp only [hexecution] at h
    cases h
    refine ⟨fun key hkey ↦ by rw [get_setItem, if_neg hkey], fun key hkey ↦ ?_⟩
    rw [get_setItem, if_pos rfl]
    simp [Value.get, Value.items, lookup_cons, beq_eq_false_iff_ne.mpr hkey]
  | dict items =>
    simp only [hexecution] at h
    split at h
    · cases h
      refine ⟨fun key hkey ↦ by rw [get_setItem, if_neg hkey], fun key hkey ↦ ?_⟩
      rw [get_setItem, if_pos rfl, get_setItem, if_neg hkey]
    · obtain ⟨u, -, h⟩ := bind_eq_ok.mp h
      cases h
      exact ⟨fun _ _ ↦ rfl, fun _ _ ↦ by rw [hexecution]⟩
  | _ =>
    simp only [hexecution] at h
    cases h

theorem stepSetOf_normalizeEngine {kind : ArtifactKind}
    (h : normalizeEngine manifest kind = .ok manifest') (op : Operation) :
    stepSetOf manifest' op = stepSetOf manifest op := by
  obtain ⟨hother, hexecution⟩ := normalizeEngine_spec h
  have hsets : canonicalStepSets manifest' = canonicalStepSets manifest := by
    rw [canonicalStepSets_eq, canonicalStepSets_eq, hexecution "steps" (by decide),
      hother "steps" (by decide)]
  cases op with
  | action name inputs => rw [stepSetOf, stepSetOf, hother "actions" (by decide)]
  | _ => simp only [stepSetOf, hsets]

def ValidatedSteps (steps : Value) : Prop :=
  steps = .none ∨ ∃ step rest, steps = .list (step :: rest) ∧
    ∀ s ∈ step :: rest, ∃ path, validateStep path s = .ok ()

/-- A manifest of kind `container_image` as the engine can rely on it. -/
structure Accepted (manifest : Value) : Prop where
  block : (manifest.get "container_image").isDict = true
  host : ∃ host, (manifest.get "container_image").get "registry_host" = .str host ∧
    strip host.toList ≠ []
  digest : ∃ digest, (manifest.get "container_image").get "digest" = .str digest ∧
    strip digest.toList ≠ []
  steps : ∀ op, ValidatedSteps (stepSetOf manifest op)

private theorem canonicalStepSets_validated {key : String} {value : Value}
    (h : validateSteps manifest .containerImage = .ok ())
    (hlookup : (canonicalStepSets manifest).lookup key = some value) : ValidatedSteps value := by
  unfold validateSteps at h
  simp only [ArtifactKind.procedural, decide_true, if_true, bind_eq_ok, require_eq_ok] at h
  obtain ⟨-, -, -, -, ⟨⟩, happly, h⟩ := h
  have hget : (Value.dict (canonicalStepSets manifest)).get key = value := by
    rw [Value.get, Value.items, hlookup, Option.getD_some]
  by_cases hkey : key = "apply"
  · rw [← hkey, hget] at happly
    exact .inr (validateStepList_spec happly)
  by_cases hdestroy : key = "destroy"
  · rw [← hdestroy, hget] at h
    split at h
    · obtain ⟨⟨⟩, hlist, -⟩ := bind_eq_ok.mp h
      exact .inr (validateStepList_spec hlist)
    · next hnone =>
      left
      cases value with
      | none => rfl
      | _ => simp [Value.isNone] at hnone
  · have hrest : each (fun item ↦ if item.1 = "apply" ∨ item.1 = "destroy" then .ok ()
        else validateStepList item.1 item.2) (canonicalStepSets manifest) = .ok () := by
      split at h
      · obtain ⟨-, -, h⟩ := bind_eq_ok.mp h
        exact h
      · exact h
    have hitem := each_eq_ok.mp hrest (key, value) (Assoc.mem_of_lookup hlookup)
    rw [if_neg fun h ↦ h.elim hkey hdestroy] at hitem
    exact .inr (validateStepList_spec hitem)

private theorem stepSetOf_validated {repr : Value → String}
    (hsteps : validateSteps manifest .containerImage = .ok ())
    (hactions : validateActions repr manifest .containerImage = .ok ()) (op : Operation) :
    ValidatedSteps (stepSetOf manifest op) := by
  have hlifecycle : ∀ key, ValidatedSteps (((canonicalStepSets manifest).lookup key).getD .none) := by
    intro key
    cases hlookup : (canonicalStepSets manifest).lookup key with
    | none => exact .inl rfl
    | some value => exact canonicalStepSets_validated hsteps hlookup
  cases op with
  | action name inputs =>
    show ValidatedSteps (((manifest.get "actions").get name).get "steps")
    cases hblock : manifest.get "actions" with
    | dict items =>
      rw [validateActions, hblock] at hactions
      simp only [bind_eq_ok, require_eq_ok, each_eq_ok] at hactions
      cases hlookup : items.lookup name with
      | none =>
        left
        rw [Value.get, Value.get, Value.items, hlookup]
        rfl
      | some definition =>
        have hget : (Value.dict items).get name = definition := by
          rw [Value.get, Value.items, hlookup, Option.getD_some]
        obtain ⟨-, -, -, -, hactions⟩ := hactions
        have haction := hactions (name, definition) (Assoc.mem_of_lookup hlookup)
        rw [hget]
        exact .inr (validateAction_spec haction)
    | _ => exact .inl rfl
  | _ => exact hlifecycle _

private theorem kind_of_validateTopLevel {repr : Value → String} {kind : ArtifactKind}
    (h : validateTopLevel repr manifest = .ok kind)
    (hkind : manifest.get "kind" = .str "container_image") : kind = .containerImage := by
  unfold validateTopLevel at h
  simp only [bind_eq_ok, require_eq_ok, hkind] at h
  obtain ⟨-, -, -, -, -, -, h⟩ := h
  exact (Except.ok.inj h).symm

private theorem typedBlock_spec (h : validateTypedBlock manifest .containerImage = .ok ()) :
    (manifest.get "container_image").isDict = true ∧
      ∃ digest, (manifest.get "container_image").get "digest" = .str digest ∧
        strip digest.toList ≠ [] := by
  unfold validateTypedBlock at h
  simp only [bind_eq_ok, require_eq_ok, ArtifactKind.block] at h
  obtain ⟨-, hdict, h⟩ := h
  refine ⟨hdict, ?_⟩
  split at h
  · next digest hdigest =>
    simp only [bind_eq_ok, require_eq_ok] at h
    obtain ⟨-, hdigest', -⟩ := h
    exact ⟨digest, hdigest, by simpa [Value.isNonEmptyString] using hdigest'⟩
  · cases h

private theorem registryHost_spec {allowlist : Option (String → Bool)}
    (h : validateRegistryHost manifest .containerImage allowlist = .ok ()) :
    ∃ host, (manifest.get "container_image").get "registry_host" = .str host ∧
      strip host.toList ≠ [] := by
  unfold validateRegistryHost at h
  simp only [ArtifactKind.block] at h
  split at h
  · next host hhost =>
    simp only [bind_eq_ok, require_eq_ok] at h
    obtain ⟨-, hhost', -⟩ := h
    exact ⟨host, hhost, by simpa [Value.isNonEmptyString] using hhost'⟩
  · cases h

theorem accepted_of_validate {repr : Value → String} {allowlist : Option (String → Bool)}
    {known : Option (List String)} {references : References}
    (h : validateArtifactManifest repr allowlist known manifest = .ok (manifest', references))
    (hkind : manifest.get "kind" = .str "container_image") : Accepted manifest' := by
  unfold validateArtifactManifest at h
  simp only [bind_eq_ok] at h
  obtain ⟨kind, htop, ⟨⟩, hblock, ⟨⟩, hhost, -, -, ⟨⟩, hsteps, -, -, ⟨⟩, hactions, -, -, -, -,
    normalized, hnormalize, refs, -, heq⟩ := h
  obtain rfl := kind_of_validateTopLevel htop hkind
  obtain ⟨rfl, -⟩ := Prod.mk.inj (Except.ok.inj heq)
  have himage := (normalizeEngine_spec hnormalize).1 "container_image" (by decide)
  obtain ⟨hdict, hdigest⟩ := typedBlock_spec hblock
  constructor
  case block => rwa [himage]
  case host => simpa only [himage] using registryHost_spec hhost
  case digest => simpa only [himage] using hdigest
  case steps =>
    intro op
    rw [stepSetOf_normalizeEngine hnormalize]
    exact stepSetOf_validated hsteps hactions op

end

end BnkForge.Container
