import BnkForge.Graph.Resolver
import BnkForge.Lib.Peeling
import BnkForge.Lib.Rank
import Mathlib.Logic.Function.Basic

/-!
# What the resolver collects

The walk of `_resolve_recursive` finds the modules that can be reached from the selection along the
dependencies it follows, and fails only for a reason: a cycle among them, a module without metadata, or a
required dependency that the catalog does not have.
-/

namespace BnkForge.Resolver

open List

section

variable (c : Catalog) (includeOptional : Bool) (selected : List String)

/-- The dependencies that name a module. -/
def named (deps : List (Option String)) : List String := deps.filterMap (Option.filter (· ≠ ""))

def requiredOf (m : String) : List String := named ((metadataOf c m).elim [] Metadata.required)

/-- The optional dependencies of a module that are in the catalog. -/
def optionalOf (m : String) : List String :=
  (named ((metadataOf c m).elim [] Metadata.optional)).filter (· ∈ modules c)

/-- The dependencies that are followed. -/
def successors (m : String) : List String :=
  requiredOf c m ++ if includeOptional then optionalOf c m else []

def Follows (a b : String) : Prop := b ∈ successors c includeOptional a

def Sane (m : String) : Prop := metadataOf c m ≠ none ∧ ∀ b ∈ requiredOf c m, b ∈ modules c

/-- A module that the selection leads to. -/
def Reached (m : String) : Prop := ∃ r ∈ selected, Relation.ReflTransGen (Follows c includeOptional) r m

def Due (m : String) : Prop := m ∈ selected ∨ ∃ a, Reached c includeOptional selected a ∧ m ∈ requiredOf c a

/-- What holds of the sets between two calls, with the modules on the path unfinished. -/
structure Walked (path : List String) (s : Sets) : Prop where
  reached : ∀ x ∈ s.visited, Reached c includeOptional selected x
  due : ∀ x ∈ s.required, Due c includeOptional selected x
  done : ∃ rank : String → Nat, ∀ x ∈ s.visited, x ∉ path → Sane c x ∧
    ∀ b ∈ successors c includeOptional x, b ∈ s.visited ∧ b ∉ path ∧ rank b < rank x ∧
      (b ∈ requiredOf c x → b ∈ s.required)

/-- Nothing is taken from the sets. -/
structure Grows (s s' : Sets) : Prop where
  visited : ∀ x ∈ s.visited, x ∈ s'.visited
  required : ∀ x ∈ s.required, x ∈ s'.required

/-- Why a walk may fail, `allowed` being the nested calls that Python allows in all. -/
def Fair (allowed : Nat) : ResolveError → Prop
  | .circularDependency _ => ∃ x, Reached c includeOptional selected x ∧
      Relation.TransGen (Follows c includeOptional) x x
  | .missingDependency _ => ∃ x, Reached c includeOptional selected x ∧ ¬ Sane c x
  | .recursion => allowed ≤ c.length
  | .dependencyResolution _ => False

/-- A walk fails for a reason, or leaves sets with a property. -/
def Outcome (allowed : Nat) (Q : Sets → Prop) : Except ResolveError Sets → Prop
  | .error e => Fair c includeOptional selected allowed e
  | .ok s => Q s

/-- What a call for a module may do. -/
def Searches (path : List String) (allowed : Nat) (isOptional : Bool)
    (search : Sets → String → Except ResolveError Sets) : Prop :=
  ∀ s m, Walked c includeOptional selected path s → m ∈ modules c →
    Reached c includeOptional selected m → (path ++ [m]).IsChain (Follows c includeOptional) →
    (isOptional = false → Due c includeOptional selected m) →
    Outcome c includeOptional selected allowed (fun s' ↦ Walked c includeOptional selected path s' ∧
      Grows s s' ∧ m ∈ s'.visited ∧ m ∉ path ∧ (isOptional = false → m ∈ s'.required)) (search s m)

end

section

variable {c : Catalog} {includeOptional isOptional : Bool} {selected path : List String} {allowed limit : Nat}
  {s s' : Sets} {m parent : String}

theorem Outcome.mono {Q Q' : Sets → Prop} {r : Except ResolveError Sets} (hQ : ∀ s, Q s → Q' s)
    (h : Outcome c includeOptional selected allowed Q r) :
    Outcome c includeOptional selected allowed Q' r := by
  cases r with
  | error e => exact h
  | ok s => exact hQ s h

theorem Grows.refl (s : Sets) : Grows s s := ⟨fun _ h ↦ h, fun _ h ↦ h⟩

theorem Grows.trans {s'' : Sets} (h : Grows s s') (h' : Grows s' s'') : Grows s s'' :=
  ⟨fun x hx ↦ h'.visited x (h.visited x hx), fun x hx ↦ h'.required x (h.required x hx)⟩

theorem Reached.tail {b : String} (h : Reached c includeOptional selected m)
    (hb : Follows c includeOptional m b) : Reached c includeOptional selected b := by
  obtain ⟨r, hr, hto⟩ := h
  exact ⟨r, hr, hto.tail hb⟩

theorem follows_of_required {b : String} (h : b ∈ requiredOf c m) : Follows c includeOptional m b :=
  mem_append_left _ h

theorem Walked.requires (h : Walked c includeOptional selected path s)
    (hdue : Due c includeOptional selected m) :
    Walked c includeOptional selected path { s with required := s.required.insert m } where
  reached := h.reached
  due x hx := by
    rcases mem_insert_iff.mp hx with rfl | hx
    · exact hdue
    · exact h.due x hx
  done := by
    obtain ⟨rank, hrank⟩ := h.done
    refine ⟨rank, fun x hx hnot ↦ ⟨(hrank x hx hnot).1, fun b hb ↦ ?_⟩⟩
    obtain ⟨hvisited, hpath, hlt, hrequired⟩ := (hrank x hx hnot).2 b hb
    exact ⟨hvisited, hpath, hlt, fun hreq ↦ mem_insert_of_mem (hrequired hreq)⟩

theorem Walked.enter (h : Walked c includeOptional selected path s) (hnew : m ∉ s.visited)
    (hreached : Reached c includeOptional selected m) :
    Walked c includeOptional selected (path ++ [m]) { s with visited := s.visited.insert m } where
  reached x hx := by
    rcases mem_insert_iff.mp hx with rfl | hx
    · exact hreached
    · exact h.reached x hx
  due := h.due
  done := by
    obtain ⟨rank, hrank⟩ := h.done
    refine ⟨rank, fun x hx hnot ↦ ?_⟩
    rw [mem_append, mem_singleton, not_or] at hnot
    have hx := (mem_insert_iff.mp hx).resolve_left hnot.2
    refine ⟨(hrank x hx hnot.1).1, fun b hb ↦ ?_⟩
    obtain ⟨hvisited, hpath, hlt, hrequired⟩ := (hrank x hx hnot.1).2 b hb
    refine ⟨mem_insert_of_mem hvisited, ?_, hlt, hrequired⟩
    rw [mem_append, mem_singleton, not_or]
    exact ⟨hpath, fun heq ↦ hnew (heq ▸ hvisited)⟩

theorem Walked.leave (h : Walked c includeOptional selected (path ++ [m]) s) (hsane : Sane c m)
    (hsucc : ∀ b ∈ successors c includeOptional m, b ∈ s.visited ∧ b ∉ path ++ [m] ∧
      (b ∈ requiredOf c m → b ∈ s.required)) : Walked c includeOptional selected path s where
  reached := h.reached
  due := h.due
  done := by
    obtain ⟨rank, hrank⟩ := h.done
    -- above the ranks of its dependencies
    refine ⟨Function.update rank m (Peeling.above rank (successors c includeOptional m)),
      fun x hx hnot ↦ ?_⟩
    rcases eq_or_ne x m with rfl | hne
    · refine ⟨hsane, fun b hb ↦ ?_⟩
      obtain ⟨hvisited, hout, hrequired⟩ := hsucc b hb
      rw [mem_append, mem_singleton, not_or] at hout
      rw [Function.update_self, Function.update_of_ne hout.2]
      exact ⟨hvisited, hout.1, Peeling.lt_above hb, hrequired⟩
    · obtain ⟨hsane', hall⟩ := hrank x hx fun hin ↦
        (mem_append.mp hin).elim hnot fun heq ↦ hne (mem_singleton.mp heq)
      refine ⟨hsane', fun b hb ↦ ?_⟩
      obtain ⟨hvisited, hout, hlt, hrequired⟩ := hall b hb
      rw [mem_append, mem_singleton, not_or] at hout
      rw [Function.update_of_ne hne, Function.update_of_ne hout.2]
      exact ⟨hvisited, hout.1, hlt, hrequired⟩

theorem follow_spec {search : Sets → String → Except ResolveError Sets}
    (hsearch : Searches c includeOptional selected (path ++ [parent]) allowed isOptional search)
    (hparent : Reached c includeOptional selected parent)
    (hchain : (path ++ [parent]).IsChain (Follows c includeOptional)) {deps : List (Option String)}
    (hdeps : ∀ b ∈ named deps, (b ∈ modules c → Follows c includeOptional parent b) ∧
      (isOptional = false → b ∈ requiredOf c parent))
    (h : Walked c includeOptional selected (path ++ [parent]) s) :
    Outcome c includeOptional selected allowed
      (fun s' ↦ Walked c includeOptional selected (path ++ [parent]) s' ∧ Grows s s' ∧
        ∀ b ∈ named deps, (isOptional = false → b ∈ modules c) ∧ (b ∈ modules c →
          b ∈ s'.visited ∧ b ∉ path ++ [parent] ∧ (isOptional = false → b ∈ s'.required)))
      (follow c search parent isOptional s deps) := by
  induction deps generalizing s with
  | nil => exact ⟨h, Grows.refl s, nofun⟩
  | cons dep deps ih =>
    unfold follow
    cases hdep : dep.filter (· ≠ "") with
    | none =>
      have hsame : named (dep :: deps) = named deps := by
        rw [named, filterMap_cons, hdep]
        rfl
      rw [hsame] at hdeps ⊢
      exact ih hdeps h
    | some b =>
      have hcons : named (dep :: deps) = b :: named deps := by
        rw [named, filterMap_cons, hdep]
        rfl
      rw [hcons] at hdeps ⊢
      have hrest := fun b' hb' ↦ hdeps b' (mem_cons_of_mem b hb')
      obtain ⟨hfollows, hrequired⟩ := hdeps b mem_cons_self
      dsimp only
      by_cases hin : b ∈ modules c
      · rw [if_pos hin]
        have hwalk : (path ++ [parent] ++ [b]).IsChain (Follows c includeOptional) := by
          rw [append_assoc]
          exact isChain_append_cons_cons.mpr ⟨hchain, hfollows hin, isChain_singleton b⟩
        have hcall := hsearch s b h hin (hparent.tail (hfollows hin)) hwalk
          fun hreq ↦ Or.inr ⟨parent, hparent, hrequired hreq⟩
        cases hs : search s b with
        | error e =>
          rw [hs] at hcall
          exact hcall
        | ok s₁ =>
          rw [hs] at hcall
          obtain ⟨hwalked, hgrows, hvisited, hnot, hreq⟩ := hcall
          have hloop := ih hrest hwalked
          dsimp only
          cases hs' : follow c search parent isOptional s₁ deps with
          | error e =>
            rw [hs'] at hloop
            exact hloop
          | ok s₂ =>
            rw [hs'] at hloop
            obtain ⟨hwalked', hgrows', hall⟩ := hloop
            refine ⟨hwalked', hgrows.trans hgrows', fun b' hb' ↦ ?_⟩
            rcases mem_cons.mp hb' with rfl | hb'
            · exact ⟨fun _ ↦ hin, fun _ ↦ ⟨hgrows'.visited _ hvisited, hnot, fun ho ↦
                hgrows'.required _ (hreq ho)⟩⟩
            · exact hall b' hb'
      · rw [if_neg hin]
        cases isOptional with
        | false => exact ⟨parent, hparent, fun hsane ↦ hin (hsane.2 b (hrequired rfl))⟩
        | true =>
          rw [if_pos rfl]
          have hloop := ih hrest h
          cases hs' : follow c search parent true s deps with
          | error e =>
            rw [hs'] at hloop
            exact hloop
          | ok s₂ =>
            rw [hs'] at hloop
            obtain ⟨hwalked', hgrows', hall⟩ := hloop
            refine ⟨hwalked', hgrows', fun b' hb' ↦ ?_⟩
            rcases mem_cons.mp hb' with rfl | hb'
            · exact ⟨nofun, fun hb ↦ absurd hb hin⟩
            · exact hall b' hb'

theorem successors_of_metadata {metadata : Metadata} (h : metadataOf c m = some metadata) :
    requiredOf c m = named metadata.required ∧
      optionalOf c m = (named metadata.optional).filter (· ∈ modules c) := by
  rw [requiredOf, optionalOf, h]
  exact ⟨rfl, rfl⟩

theorem loops_spec {metadata : Metadata} (hmetadata : metadataOf c m = some metadata)
    (hsearch : ∀ o, Searches c includeOptional selected (path ++ [m]) allowed o
      (resolveRecursive c includeOptional limit (path ++ [m]) o))
    (hreached : Reached c includeOptional selected m)
    (hchain : (path ++ [m]).IsChain (Follows c includeOptional))
    (h : Walked c includeOptional selected (path ++ [m]) s) :
    Outcome c includeOptional selected allowed
      (fun s' ↦ Walked c includeOptional selected path s' ∧ Grows s s')
      (match follow c (resolveRecursive c includeOptional limit (path ++ [m]) false) m false s
          metadata.required with
        | .error e => .error e
        | .ok s => if includeOptional then follow c
            (resolveRecursive c includeOptional limit (path ++ [m]) true) m true s metadata.optional
          else .ok s) := by
  obtain ⟨hrequired, hoptional⟩ := successors_of_metadata hmetadata
  have hloop := follow_spec (hsearch false) hreached hchain
    (fun b hb ↦ ⟨fun _ ↦ follows_of_required (hrequired ▸ hb), fun _ ↦ hrequired ▸ hb⟩) h
  cases hs : follow c (resolveRecursive c includeOptional limit (path ++ [m]) false) m false s
      metadata.required with
  | error e =>
    rw [hs] at hloop
    exact hloop
  | ok s₁ =>
    rw [hs] at hloop
    obtain ⟨hwalked, hgrows, hall⟩ := hloop
    rw [← hrequired] at hall
    have hsane : Sane c m := by
      refine ⟨fun hnone ↦ ?_, fun b hb ↦ (hall b hb).1 rfl⟩
      cases hmetadata.symm.trans hnone
    have hleft : ∀ b ∈ requiredOf c m, b ∈ s₁.visited ∧ b ∉ path ++ [m] ∧ b ∈ s₁.required := fun b hb ↦
      let ⟨hvisited, hnot, hreq⟩ := (hall b hb).2 ((hall b hb).1 rfl)
      ⟨hvisited, hnot, hreq rfl⟩
    dsimp only
    cases includeOptional with
    | false =>
      refine ⟨hwalked.leave hsane fun b hb ↦ ?_, hgrows⟩
      obtain ⟨hvisited, hnot, hreq⟩ := hleft b (by simpa [successors] using hb)
      exact ⟨hvisited, hnot, fun _ ↦ hreq⟩
    | true =>
      rw [if_pos rfl]
      have hloop' := follow_spec (hsearch true) hreached hchain (fun b hb ↦
        ⟨fun hin ↦ mem_append_right _ (by
          rw [if_pos rfl, hoptional]
          exact mem_filter.mpr ⟨hb, decide_eq_true hin⟩), nofun⟩) hwalked
      cases hs' : follow c (resolveRecursive c true limit (path ++ [m]) true) m true s₁
          metadata.optional with
      | error e =>
        rw [hs'] at hloop'
        exact hloop'
      | ok s₂ =>
        rw [hs'] at hloop'
        obtain ⟨hwalked', hgrows', hall'⟩ := hloop'
        refine ⟨hwalked'.leave hsane fun b hb ↦ ?_, hgrows.trans hgrows'⟩
        rcases mem_append.mp hb with hb | hb
        · obtain ⟨hvisited, hnot, hreq⟩ := hleft b hb
          exact ⟨hgrows'.visited b hvisited, hnot, fun _ ↦ hgrows'.required b hreq⟩
        · rw [if_pos rfl, hoptional, mem_filter, decide_eq_true_eq] at hb
          obtain ⟨hvisited, hnot, -⟩ := (hall' b hb.1).2 hb.2
          exact ⟨hvisited, hnot, fun hreq ↦ hgrows'.required b (hleft b hreq).2.2⟩

theorem resolveRecursive_spec (hnodup : path.Nodup) (hkeys : ∀ x ∈ path, x ∈ modules c) :
    Searches c includeOptional selected path (path.length + limit) isOptional
      (resolveRecursive c includeOptional limit path isOptional) := by
  induction limit generalizing path isOptional with
  | zero =>
    intro s m _ _ _ _ _
    have hle := (subperm_of_subset hnodup hkeys).length_le
    rwa [modules, length_map] at hle
  | succ limit ih =>
    intro s m hwalked hin hreached hchain hdue
    unfold resolveRecursive
    by_cases hpath : m ∈ path
    · rw [if_pos hpath]
      exact ⟨m, hreached, Rank.transGen_of_mem_walk hchain hpath⟩
    · rw [if_neg hpath]
      obtain ⟨s₁, hs₁, hwalked₁, hgrows₁, hvisited₁, hrequired₁⟩ : ∃ s₁,
          (if isOptional = true then { s with optional := s.optional.insert m }
            else { s with required := s.required.insert m }) = s₁ ∧
          Walked c includeOptional selected path s₁ ∧ Grows s s₁ ∧ s₁.visited = s.visited ∧
          (isOptional = false → m ∈ s₁.required) := by
        cases isOptional with
        | true => exact ⟨_, rfl, ⟨hwalked.reached, hwalked.due, hwalked.done⟩,
            ⟨fun _ h ↦ h, fun _ h ↦ h⟩, rfl, nofun⟩
        | false => exact ⟨_, rfl, hwalked.requires (hdue rfl),
            ⟨fun _ h ↦ h, fun _ h ↦ mem_insert_of_mem h⟩, rfl, fun _ ↦ mem_insert_self⟩
      rw [hs₁]
      dsimp only
      by_cases hvisited : m ∈ s₁.visited
      · rw [if_pos hvisited]
        exact ⟨hwalked₁, hgrows₁, hvisited, hpath, hrequired₁⟩
      · rw [if_neg hvisited]
        cases hmetadata : metadataOf c m with
        | none => exact ⟨m, hreached, fun hsane ↦ hsane.1 hmetadata⟩
        | some metadata =>
          have hnodup' : (path ++ [m]).Nodup :=
            nodup_append.mpr ⟨hnodup, nodup_singleton m, fun x hx y hy hxy ↦
              hpath (mem_singleton.mp hy ▸ hxy ▸ hx)⟩
          have hkeys' : ∀ x ∈ path ++ [m], x ∈ modules c := fun x hx ↦
            (mem_append.mp hx).elim (hkeys x) fun hx ↦ mem_singleton.mp hx ▸ hin
          have hsearch : ∀ o, Searches c includeOptional selected (path ++ [m])
              (path.length + (limit + 1)) o (resolveRecursive c includeOptional limit (path ++ [m]) o) := by
            intro o
            have hcall := @ih o (path ++ [m]) hnodup' hkeys'
            rwa [length_append, length_singleton, Nat.add_assoc, Nat.add_comm 1] at hcall
          have hloops := loops_spec hmetadata hsearch hreached hchain (hwalked₁.enter hvisited hreached)
          refine Outcome.mono ?_ hloops
          rintro s' ⟨hwalked', hgrows'⟩
          exact ⟨hwalked', ⟨fun x hx ↦ hgrows'.visited x (mem_insert_of_mem (hgrows₁.visited x hx)),
            fun x hx ↦ hgrows'.required x (hgrows₁.required x hx)⟩,
            hgrows'.visited m mem_insert_self, hpath, fun ho ↦ hgrows'.required m (hrequired₁ ho)⟩

end

end BnkForge.Resolver
