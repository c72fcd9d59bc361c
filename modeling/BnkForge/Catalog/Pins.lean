import BnkForge.Blueprint.Edges
import BnkForge.Catalog.Latest

/-!
# Pinned versions

`_resolve_library_module`, `_missing_modules` and `_validate_release`
(`backend/services/imported_blueprint_service.py:55–103,481–507,622–672`) before the modules of a release
are created, and the rows of the catalog as these read them.
-/

namespace BnkForge.Catalog

open BnkForge.Blueprint BnkForge.Dependencies BnkForge.Graph Python Transition List

/-! ### The catalog -/

/-- The `module` of each required dependency, where there is dependency metadata. -/
def requiredModules (metadata : Value) : Option (List (Option String)) :=
  if metadata.truthy then
    match metadata.get "required" with
    | .list items => some (items.map fun item ↦
        match item.get "module" with
        | .str path => some path
        | _ => none)
    | _ => some []
  else none

def namesIn : Value → List String
  | .list items => items.filterMap fun item ↦
    match item with
    | .str name => some name
    | _ => none
  | _ => []

def Row.toLibraryModule (r : Row) : Option LibraryModule :=
  r.path.map fun path ↦ {
    name := r.name
    path := path
    required := requiredModules r.dependenciesMetadata
    id := r.id
    version := r.version
    isActive := r.isActive
    isLatest := r.isLatest
    contentSha256 := r.contentSha256
    dependencies := namesIn r.dependencies }

def Table.libraryModules (s : Table) : List LibraryModule := s.rows.filterMap Row.toLibraryModule

/-! ### Resolving -/

/-- `_resolve_library_module`. -/
def resolveReference (catalog : List LibraryModule) (moduleRef : String)
    (pinnedVersion : Option String) : Option LibraryModule :=
  let rows := catalog.filter fun m ↦ m.path == moduleRef && m.isActive
  match pinnedVersion.filter (· ≠ "") with
  | none => newest rows
  | some version =>
    match newest (rows.filter fun m ↦ m.version == some version) with
    | some m => some m
    | none =>
      if rows.any fun m ↦ m.contentSha256.isSome then none
      else newest (rows.filter fun m ↦ m.contentSha256.isNone)

/-- By `is_latest` and `id`, both descending, the first row is not listed after the second. -/
def ListedBefore (m n : LibraryModule) : Prop :=
  (n.isLatest = true → m.isLatest = true) ∧ (m.isLatest = n.isLatest → n.id ≤ m.id)

instance decidableListedBefore (m n : LibraryModule) : Decidable (ListedBefore m n) :=
  inferInstanceAs (Decidable (_ ∧ _))

/-- `available_module_versions`. -/
def availableVersions (catalog : List LibraryModule) (moduleRef : String) : List String :=
  (((catalog.filter fun m ↦ m.path == moduleRef && m.isActive).insertionSort
    ListedBefore).filterMap LibraryModule.version).filter (· ≠ "")

/-- An entry of `missing_modules`. -/
structure MissingModule where
  path : String
  name : String
  message : String
  reason : String
  pinnedVersion : Option String
  availableVersions : List String
  deriving DecidableEq, Repr

/-- `_missing_module_message`. -/
def missingModuleMessage (moduleRef : String) (available : List String) : Option String → String
  | none => "Module '" ++ moduleRef ++ "' is not present in the active module catalog."
  | some version =>
    if available = [] then
      "Module '" ++ moduleRef ++ "' (pinned version " ++ version ++
        ") is not present in the active module catalog."
    else
      "Module '" ++ moduleRef ++ "' pinned version " ++ version ++
        " is not in the active module catalog. Available versions: " ++ ", ".intercalate available ++ "."

def missingModule (catalog : List LibraryModule) (d : ModuleDef) : MissingModule :=
  let available := if d.pinnedVersion.isSome then availableVersions catalog d.module else []
  { path := d.module
    name := if d.id = "" then d.module else d.id
    message := missingModuleMessage d.module available d.pinnedVersion
    reason := if d.pinnedVersion.isSome ∧ available ≠ [] then "version_missing" else "path_missing"
    pinnedVersion := d.pinnedVersion
    availableVersions := available }

/-- `_missing_modules`: the required modules that are absent. Their references are not stripped here. -/
def missingModules (catalog : List LibraryModule) (defs : List ModuleDef) : List MissingModule :=
  (defs.filter fun d ↦ !d.optional && (resolveReference catalog d.module d.pinnedVersion).isNone).map
    (missingModule catalog)

/-! ### Creating the modules of a release -/

/-- A row of `blueprint_releases`. -/
structure Release where
  id : Nat
  validationState : String
  releaseState : String
  sourcePath : Option String
  blueprintName : String
  modules : List ModuleDef
  deriving DecidableEq, Repr

inductive CreationError
  | badRequest (code message : String) (missing : List MissingModule)
  | modules (e : ReleaseError)
  deriving DecidableEq, Repr

/-- `_validate_release`. -/
def validateRelease (catalog : List LibraryModule) (release : Release) : Except CreationError Unit :=
  if release.validationState ≠ "valid" then
    .error (.badRequest "BLUEPRINT_RELEASE_INVALID"
      "Blueprint release must be valid before project creation" [])
  else if release.releaseState ∉ ["imported", "approved"] then
    .error (.badRequest "BLUEPRINT_RELEASE_NOT_DEPLOYABLE"
      "Blueprint release must be imported or approved before deployment" [])
  else
    let missing := missingModules catalog release.modules
    if missing = [] then .ok ()
    else .error (.badRequest
      (if missing.any fun m ↦ m.reason == "version_missing" then "BLUEPRINT_MODULE_VERSION_MISSING"
        else "BLUEPRINT_MODULES_MISSING")
      ("Required modules missing from catalog (blueprint: " ++
        orElse release.sourcePath release.blueprintName ++ "): " ++
        ", ".intercalate (missing.map MissingModule.path) ++
        ". Re-sync the blueprint catalog or check the catalog source — " ++
        "deploy blocked so no partial stack is applied.") missing)

/-- The row of the catalog to which a created module is bound. -/
structure Binding where
  moduleId : Nat
  definition : ModuleDef
  library : LibraryModule
  deriving DecidableEq, Repr

/-- The modules that are created, from the next id on. -/
def bindings (catalog : List LibraryModule) : Nat → List ModuleDef → List Binding
  | _, [] => []
  | next, d :: ds =>
    match resolveLibraryModule catalog d with
    | none => bindings catalog next ds
    | some m => ⟨next, d, m⟩ :: bindings catalog (next + 1) ds

section

variable (limit : Nat) (set : SetOrder) (catalog : List LibraryModule)
  (refused : ModuleDef → Option String) (release : Release) (projectId : Nat)

def createFromRelease (s : ReleaseTable) : Except CreationError (ReleaseTable × List Binding) :=
  match validateRelease catalog release with
  | .error e => .error e
  | .ok _ =>
    match createReleaseModules limit set catalog refused release.id projectId release.modules s with
    | .error e => .error (.modules e)
    | .ok (t, _) => .ok (t, bindings catalog s.table.nextId release.modules)

end

/-! ### When a pin is exact -/

section

variable {catalog : List LibraryModule} {moduleRef version : String} {m : LibraryModule}
  {d : ModuleDef} {defs : List ModuleDef}

theorem newest_eq_none_iff {rows : List LibraryModule} : newest rows = none ↔ rows = [] := by
  have hsome (b : LibraryModule) (rows : List LibraryModule) :
      rows.foldl (fun best m ↦
        match best with
        | none => some m
        | some b =>
          if (m.isLatest && !b.isLatest) || (m.isLatest == b.isLatest && b.id < m.id) then some m
          else some b) (some b) ≠ none := by
    induction rows generalizing b with
    | nil => exact Option.some_ne_none b
    | cons m rows ih =>
      rw [foldl_cons]
      dsimp only
      split
      · exact ih m
      · exact ih b
  cases rows with
  | nil => exact iff_of_true rfl rfl
  | cons m rows => exact iff_of_false (hsome m rows) (cons_ne_nil m rows)

theorem mem_of_newest {rows : List LibraryModule} (h : newest rows = some m) : m ∈ rows := by
  have hmem (best : Option LibraryModule) (rows : List LibraryModule) :
      ∀ r, rows.foldl (fun best m ↦
        match best with
        | none => some m
        | some b =>
          if (m.isLatest && !b.isLatest) || (m.isLatest == b.isLatest && b.id < m.id) then some m
          else some b) best = some r → r ∈ rows ∨ best = some r := by
    induction rows generalizing best with
    | nil => exact fun r h ↦ Or.inr h
    | cons m rows ih =>
      intro r h
      rw [foldl_cons] at h
      rcases ih _ r h with h | h
      · exact Or.inl (mem_cons_of_mem _ h)
      · cases best with
        | none =>
          cases h
          exact Or.inl mem_cons_self
        | some b =>
          dsimp only at h
          split at h
          · cases h
            exact Or.inl mem_cons_self
          · exact Or.inr h
  exact (hmem none rows m h).resolve_right fun h ↦ Option.some_ne_none m h.symm

def HasVersion (catalog : List LibraryModule) (moduleRef version : String) : Prop :=
  ∃ m ∈ catalog, m.path = moduleRef ∧ m.isActive = true ∧ m.version = some version

/-- There is no row to fall back on: an active one carries a hash, or none is active. -/
def NoFallback (catalog : List LibraryModule) (moduleRef : String) : Prop :=
  (∃ m ∈ catalog, m.path = moduleRef ∧ m.isActive = true ∧ m.contentSha256 ≠ none) ∨
    ∀ m ∈ catalog, m.path = moduleRef → m.isActive = false

theorem mem_active :
    m ∈ catalog.filter (fun m ↦ m.path == moduleRef && m.isActive) ↔
      m ∈ catalog ∧ m.path = moduleRef ∧ m.isActive = true := by
  rw [mem_filter, Bool.and_eq_true, beq_iff_eq]

theorem resolve_of_hasVersion (hne : version ≠ "") (h : HasVersion catalog moduleRef version) :
    ∃ m ∈ catalog, resolveReference catalog moduleRef (some version) = some m ∧ m.isActive = true ∧
      m.path = moduleRef ∧ m.version = some version := by
  rw [resolveReference, Option.filter_some, if_pos (decide_eq_true hne)]
  dsimp only
  cases hnewest : newest ((catalog.filter fun m ↦ m.path == moduleRef && m.isActive).filter
    fun m ↦ m.version == some version) with
  | none =>
    obtain ⟨m, hm, hpath, hactive, hversion⟩ := h
    have hno := filter_eq_nil_iff.mp (newest_eq_none_iff.mp hnewest) m
      (mem_active.mpr ⟨hm, hpath, hactive⟩)
    exact absurd (beq_iff_eq.mpr hversion) hno
  | some m =>
    obtain ⟨hm, hversion⟩ := mem_filter.mp (mem_of_newest hnewest)
    obtain ⟨hm, hpath, hactive⟩ := mem_active.mp hm
    exact ⟨m, hm, rfl, hactive, hpath, eq_of_beq hversion⟩

theorem resolve_eq_none_iff (hne : version ≠ "") (h : ¬ HasVersion catalog moduleRef version) :
    resolveReference catalog moduleRef (some version) = none ↔ NoFallback catalog moduleRef := by
  have hnone : newest ((catalog.filter fun m ↦ m.path == moduleRef && m.isActive).filter
      fun m ↦ m.version == some version) = none := by
    refine newest_eq_none_iff.mpr (filter_eq_nil_iff.mpr fun m hm hversion ↦ h ?_)
    obtain ⟨hm, hpath, hactive⟩ := mem_active.mp hm
    exact ⟨m, hm, hpath, hactive, eq_of_beq hversion⟩
  rw [resolveReference, Option.filter_some, if_pos (decide_eq_true hne)]
  dsimp only
  rw [hnone]
  dsimp only
  split
  · next hany =>
    obtain ⟨m, hm, hsha⟩ := any_eq_true.mp hany
    obtain ⟨hm, hpath, hactive⟩ := mem_active.mp hm
    exact iff_of_true rfl (Or.inl ⟨m, hm, hpath, hactive, Option.isSome_iff_ne_none.mp hsha⟩)
  · next hany =>
    have hlegacy {m : LibraryModule} (hm : m ∈ catalog) (hpath : m.path = moduleRef)
        (hactive : m.isActive = true) : m.contentSha256 = none := by
      refine Option.not_isSome_iff_eq_none.mp fun hsha ↦ hany (any_eq_true.mpr ⟨m, ?_, hsha⟩)
      exact mem_active.mpr ⟨hm, hpath, hactive⟩
    rw [newest_eq_none_iff, filter_eq_nil_iff]
    constructor
    · intro hnil
      refine Or.inr fun m hm hpath ↦ Bool.eq_false_iff.mpr fun hactive ↦ ?_
      exact hnil m (mem_active.mpr ⟨hm, hpath, hactive⟩)
        (Option.isNone_iff_eq_none.mpr (hlegacy hm hpath hactive))
    · rintro (⟨m, hm, hpath, hactive, hsha⟩ | hall) m' hm' -
      · exact hsha (hlegacy hm hpath hactive)
      · obtain ⟨hm', hpath', hactive'⟩ := mem_active.mp hm'
        exact Bool.eq_false_iff.mp (hall m' hm' hpath') hactive'

theorem resolveLibraryModule_eq :
    resolveLibraryModule catalog d = resolveReference catalog d.moduleRef d.pinnedVersion := by
  have hpin : d.pinnedVersion.filter (· ≠ "") = d.pinnedVersion := by
    rw [ModuleDef.pinnedVersion, Option.filter_filter]
    simp only [Bool.and_self]
  unfold resolveReference
  rw [hpin]
  rfl

theorem pinnedVersion_ne (h : d.pinnedVersion = some version) : version ≠ "" :=
  of_decide_eq_true (Option.filter_eq_some_iff.mp h).2

theorem mem_bindings (next : Nat) (hd : d ∈ defs) (h : resolveLibraryModule catalog d = some m) :
    ∃ b ∈ bindings catalog next defs, b.definition = d ∧ b.library = m := by
  induction defs generalizing next with
  | nil => cases hd
  | cons e ds ih =>
    unfold bindings
    rcases mem_cons.mp hd with rfl | hd
    · rw [h]
      exact ⟨_, mem_cons_self, rfl, rfl⟩
    · cases resolveLibraryModule catalog e with
      | none => exact ih next hd
      | some n =>
        obtain ⟨b, hb, hdef⟩ := ih (next + 1) hd
        exact ⟨b, mem_cons_of_mem _ hb, hdef⟩

theorem created_eq_bindings {limit : Nat} {set : SetOrder} {refused : ModuleDef → Option String}
    {release projectId : Nat} {s t : ReleaseTable} {created : List (String × Nat)}
    (h : createReleaseModules limit set catalog refused release projectId defs s = .ok (t, created)) :
    created = ((bindings catalog s.table.nextId defs).map fun b ↦
      (b.definition.id, b.moduleId)).reverse := by
  obtain ⟨added, wired, hadd, -, -⟩ := createReleaseModules_eq_ok h
  have hplanned (next : Nat) : (planned catalog release projectId next defs).map (fun p ↦
      (p.1.id, p.2.id)) = (bindings catalog next defs).map fun b ↦ (b.definition.id, b.moduleId) := by
    clear h hadd
    induction defs generalizing next with
    | nil => rfl
    | cons d ds ih =>
      unfold planned bindings
      cases resolveLibraryModule catalog d with
      | none => exact ih next
      | some m => exact congrArg (_ :: ·) (ih (next + 1))
  rw [(addReleaseModules_eq_ok hadd).1, hplanned, append_nil]

end

theorem createFromRelease_eq_ok {limit : Nat} {set : SetOrder} {catalog : List LibraryModule}
    {refused : ModuleDef → Option String} {release : Release} {projectId : Nat} {s t : ReleaseTable}
    {bound : List Binding}
    (h : createFromRelease limit set catalog refused release projectId s = .ok (t, bound)) :
    missingModules catalog release.modules = [] ∧
      bound = bindings catalog s.table.nextId release.modules := by
  unfold createFromRelease at h
  split at h
  · cases h
  · next hvalid =>
    split at h
    · cases h
    · cases h
      refine ⟨?_, rfl⟩
      unfold validateRelease at hvalid
      split at hvalid
      · cases hvalid
      · split at hvalid
        · cases hvalid
        · dsimp only at hvalid
          split at hvalid
          · assumption
          · cases hvalid

def ResolvesExactly (catalog : List LibraryModule) (moduleRef version : String) : Prop :=
  ∀ m, resolveReference catalog moduleRef (some version) = some m →
    m ∈ catalog ∧ m.isActive = true ∧ m.path = moduleRef ∧ m.version = some version

def BindsExactly (catalog : List LibraryModule) (defs : List ModuleDef) (bound : List Binding) : Prop :=
  ∀ d ∈ defs, ∀ version, d.pinnedVersion = some version → ∃ b ∈ bound, b.definition = d ∧
    b.library ∈ catalog ∧ b.library.isActive = true ∧ b.library.path = d.moduleRef ∧
    b.library.version = some version

def PinMet (catalog : List LibraryModule) (d : ModuleDef) : Prop :=
  ∀ version, d.pinnedVersion = some version → HasVersion catalog d.moduleRef version ∨
    d.optional = false ∧ ¬ HasVersion catalog d.module version ∧ NoFallback catalog d.module

/-- A pin is exact if and only if its version is there or there is no row to fall back on; and what is
created from a release is bound exactly if and only if that holds of its modules. -/
theorem pins_exact_iff (catalog : List LibraryModule) :
    (∀ moduleRef version : String, version ≠ "" →
      (∃ m ∈ catalog, m.path = moduleRef ∧ m.contentSha256 ≠ none) →
      (ResolvesExactly catalog moduleRef version ↔
        HasVersion catalog moduleRef version ∨ NoFallback catalog moduleRef)) ∧
    ∀ (limit : Nat) (set : SetOrder) (refused : ModuleDef → Option String) (release : Release)
      (projectId : Nat) (s t : ReleaseTable) (bound : List Binding),
      createFromRelease limit set catalog refused release projectId s = .ok (t, bound) →
      (BindsExactly catalog release.modules bound ↔ ∀ d ∈ release.modules, PinMet catalog d) := by
  constructor
  · intro moduleRef version hne _
    by_cases h : HasVersion catalog moduleRef version
    · refine iff_of_true (fun m hm ↦ ?_) (Or.inl h)
      obtain ⟨n, hn, hresolve, hactive, hpath, hversion⟩ := resolve_of_hasVersion hne h
      cases hresolve.symm.trans hm
      exact ⟨hn, hactive, hpath, hversion⟩
    · rw [or_iff_right h, ← resolve_eq_none_iff hne h]
      constructor
      · intro hexact
        refine Option.eq_none_iff_forall_ne_some.mpr fun m hm ↦ h ?_
        obtain ⟨hmem, hactive, hpath, hversion⟩ := hexact m hm
        exact ⟨m, hmem, hpath, hactive, hversion⟩
      · intro hnone m hm
        cases hnone.symm.trans hm
  · intro limit set refused release projectId s t bound h
    obtain ⟨hvalid, hbound⟩ := createFromRelease_eq_ok h
    constructor
    · intro hexact d hd version hpin
      obtain ⟨b, -, rfl, hmem, hactive, hpath, hversion⟩ := hexact d hd version hpin
      exact Or.inl ⟨b.library, hmem, hpath, hactive, hversion⟩
    · intro hmet d hd version hpin
      rcases hmet d hd version hpin with hversion | ⟨hrequired, hnot, hfall⟩
      · obtain ⟨m, hm, hresolve, hactive, hpath, hversion⟩ :=
          resolve_of_hasVersion (pinnedVersion_ne hpin) hversion
        rw [← hpin, ← resolveLibraryModule_eq] at hresolve
        obtain ⟨b, hb, hdef, rfl⟩ := mem_bindings s.table.nextId hd hresolve
        exact ⟨b, hbound ▸ hb, hdef, hm, hactive, hpath, hversion⟩
      · have hnone := (resolve_eq_none_iff (pinnedVersion_ne hpin) hnot).mpr hfall
        have hmissing := List.filter_eq_nil_iff.mp (List.map_eq_nil_iff.mp hvalid) d hd
        rw [hrequired, hpin, hnone] at hmissing
        exact absurd rfl hmissing

def legacyBesideHashed : Table where
  rows := [⟨{ pack (some "a") (some "a") (some "1") none with engineType := none }, 1, true, false⟩,
    ⟨pack (some "a") (some "a") (some "2") (some "h2"), 2, true, true⟩]
  nextId := 3
  ids := by decide
  fresh := by decide

def pinnedRelease : Release := ⟨7, "valid", "imported", none, "blueprint", [⟨"m", "a", some "2", false, []⟩]⟩

theorem legacyBesideHashed_exact :
    ResolvesExactly legacyBesideHashed.libraryModules "a" "2" :=
  ((pins_exact_iff legacyBesideHashed.libraryModules).1 "a" "2" (by decide)
    ⟨_, List.mem_cons_of_mem _ List.mem_cons_self, rfl, Option.some_ne_none _⟩).mpr
    (Or.inl ⟨_, List.mem_cons_of_mem _ List.mem_cons_self, rfl, rfl, rfl⟩)

/-- The pinned version is no longer published, and the module is bound to the earlier one. -/
theorem pin_bound_to_legacy :
    ¬ ∀ (repr : Value → String) (contentSha : ModuleInfo → String) (s t : Table)
      (es : List CatalogEvent) (limit : Nat) (set : SetOrder) (refused : ModuleDef → Option String)
      (release : Release) (projectId : Nat) (p before after : ReleaseTable) (first bound : List Binding),
      createFromRelease limit set s.libraryModules refused release projectId p = .ok (before, first) →
      Run (catalogStep repr contentSha) Free s es t →
      createFromRelease limit set t.libraryModules refused release projectId p = .ok (after, bound) →
      BindsExactly t.libraryModules release.modules bound := by
  intro h
  obtain ⟨⟨before, first⟩, hfirst, -⟩ := ExceptResult.exists_of_any
    (x := createFromRelease 1000 listOrder legacyBesideHashed.libraryModules (fun _ ↦ none) pinnedRelease
      1 emptyReleaseTable) (p := fun _ ↦ true) (by decide +kernel)
  have hstep : catalogStep (fun _ ↦ "") (fun _ ↦ "hash") legacyBesideHashed (.inactivate [] 1 []) =
      some (inactivateStaleManifestModules legacyBesideHashed [] 1 []).1 := rfl
  obtain ⟨⟨after, bound⟩, hbound, hcheck⟩ := ExceptResult.exists_of_any
    (x := createFromRelease 1000 listOrder
      (inactivateStaleManifestModules legacyBesideHashed [] 1 []).1.libraryModules (fun _ ↦ none)
      pinnedRelease 1 emptyReleaseTable)
    (p := fun r ↦ decide (∀ b ∈ r.2, b.library.version = some "1")) (by decide +kernel)
  obtain ⟨b, hb, -, -, -, -, hversion⟩ := h (fun _ ↦ "") (fun _ ↦ "hash") _ _ _ 1000 listOrder
    (fun _ ↦ none) pinnedRelease 1 emptyReleaseTable before after first bound hfirst
    (.single trivial hstep) hbound _ List.mem_cons_self "2" (by decide)
  exact absurd ((of_decide_eq_true hcheck b hb).symm.trans hversion) (by decide)

end BnkForge.Catalog
