import BnkForge.Lib.Assoc
import Mathlib.Data.List.Chain
import Mathlib.Data.List.Perm.Subperm
import Mathlib.Data.List.Sort
import Mathlib.Logic.Relation

/-!
# Dependencies between catalog modules

`ModuleDependencyResolver.resolve` (`backend/services/module_dependency_resolver.py:68–222`): a walk along
the dependencies that the metadata of the modules declare, and an order of what it has collected by the
numbers that they declare. Python's recursion limit and the order in which it goes through a set are
parameters.
-/

namespace BnkForge.Resolver

/-- The metadata of a module as far as `resolve` reads it. The `module` of a dependency may be missing. -/
structure Metadata where
  /-- `deployment.order`, where it is declared. -/
  order : Option Int
  required : List (Option String)
  optional : List (Option String)
  deriving DecidableEq, Repr

/-- `modules_metadata`, a dict by module paths; `none` stands for the metadata `{}`. -/
abbrev Catalog := List (String × Option Metadata)

inductive ResolveError
  | dependencyResolution (message : String)
  | circularDependency (message : String)
  | missingDependency (message : String)
  | recursion
  deriving DecidableEq, Repr

structure Sets where
  required : List String
  optional : List String
  visited : List String
  deriving DecidableEq, Repr

/-- The order in which a set is gone through: every element of the list it is made of, once. -/
structure Iteration where
  order : List String → List String
  perm : ∀ xs, (order xs).Perm xs.dedup

section

variable (c : Catalog)

def modules : List String := c.map Prod.fst

/-- `self.metadata.get(module_path)`, where it is not empty. -/
def metadataOf (m : String) : Option Metadata := (c.lookup m).join

/-- `_get_deployment_order`. -/
def getDeploymentOrder (m : String) : Int := ((metadataOf c m).bind Metadata.order).getD 999

/-- The loop over the dependencies of `parent`, required or optional ones. -/
def follow (search : Sets → String → Except ResolveError Sets) (parent : String) (isOptional : Bool)
    (s : Sets) : List (Option String) → Except ResolveError Sets
  | [] => .ok s
  | dep :: deps =>
    match dep.filter (· ≠ "") with
    | none => follow search parent isOptional s deps
    | some depModule =>
      if depModule ∈ modules c then
        match search s depModule with
        | .error e => .error e
        | .ok s => follow search parent isOptional s deps
      else if isOptional then follow search parent isOptional s deps
      else .error (.missingDependency ("Required dependency '" ++ depModule ++ "' (required by '" ++
        parent ++ "') not found"))

/-- `_resolve_recursive`, with the number of nested calls that Python still allows. -/
def resolveRecursive (includeOptional : Bool) :
    Nat → List String → Bool → Sets → String → Except ResolveError Sets
  | 0, _, _, _, _ => .error .recursion
  | limit + 1, path, isOptional, s, m =>
    if m ∈ path then
      .error (.circularDependency ("Circular dependency detected: " ++
        " -> ".intercalate (path ++ [m])))
    else
      let s := if isOptional then { s with optional := s.optional.insert m }
        else { s with required := s.required.insert m }
      if m ∈ s.visited then .ok s
      else
        let s := { s with visited := s.visited.insert m }
        match metadataOf c m with
        | none => .error (.missingDependency ("Metadata for module '" ++ m ++ "' not found"))
        | some metadata =>
          match follow c (resolveRecursive includeOptional limit (path ++ [m]) false) m false s
              metadata.required with
          | .error e => .error e
          | .ok s =>
            if includeOptional then
              follow c (resolveRecursive includeOptional limit (path ++ [m]) true) m true s
                metadata.optional
            else .ok s

/-- The loop over the selected modules. -/
def resolveAll (limit : Nat) (includeOptional : Bool) (s : Sets) : List String → Except ResolveError Sets
  | [] => .ok s
  | m :: ms =>
    match resolveRecursive c includeOptional limit [] false s m with
    | .error e => .error e
    | .ok s => resolveAll limit includeOptional s ms

def sortedSet (set : Iteration) (xs : List String) : List String :=
  (set.order xs).insertionSort fun a b ↦ getDeploymentOrder c a ≤ getDeploymentOrder c b

/-- What `resolve` returns. -/
structure Resolution where
  required : List String
  optional : List String
  deploymentOrder : List String
  deriving DecidableEq, Repr

/-- `resolve`. -/
def resolve (limit : Nat) (set : Iteration) (selected : List String) (includeOptional : Bool) :
    Except ResolveError Resolution :=
  match selected.find? fun m ↦ m ∉ modules c with
  | some m => .error (.dependencyResolution ("Module '" ++ m ++ "' not found in metadata"))
  | none =>
    match resolveAll c limit includeOptional ⟨[], [], []⟩ selected with
    | .error e => .error e
    | .ok s => .ok ⟨sortedSet c set s.required, sortedSet c set s.optional, sortedSet c set s.required⟩

end

end BnkForge.Resolver
