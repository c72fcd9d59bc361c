import BnkForge.Workspace.Tasks

/-!
# Freshness of the saved plan

`plan.out` is written by both tasks and dated by one: `update_vars_hash` runs at the end of
`run_opentofu_plan` only, on the settings of that moment. A plan is dated when the stored
hash is that of the assignment it was computed from. The steps that leave an undated plan
behind are the ones `Careful` rules out.
-/

namespace BnkForge.Workspace

open Transition

variable {A : Type} (S : Serializer A)

def Dated (s : State A) : Prop :=
  ∀ p, s.files.planOut = some p →
    ∃ c : Settings A, c.assignment = p ∧ s.varsHash = some (computeVarsHash S c)

/-- The saved plan was computed from the assignment `build_variables` assembles now. -/
def PlanCurrent (s : State A) : Prop := s.files.planOut = some s.settings.assignment

theorem assignment_eq_of_hash (hS : S.Faithful) {c d : Settings A}
    (h : computeVarsHash S c = computeVarsHash S d) : c.assignment = d.assignment := by
  have htext := hS.sha256_injective h
  exact hS.dumps_delimited _ _ _ _ htext

/-- A dated plan that `plan_is_valid` accepts is current. -/
theorem planCurrent_of_valid (hS : S.Faithful) {s : State A} (hd : Dated S s)
    (hvalid : planInvalid S s.settings s.varsHash s.files = none) : PlanCurrent s := by
  obtain ⟨hplan, hvars, -, -⟩ := (planInvalid_eq_none_iff S _ _ _).mp hvalid
  obtain ⟨p, hp⟩ : ∃ p, s.files.planOut = some p := by
    simp only [hasSavedPlan, Bool.and_eq_true] at hplan
    exact Option.isSome_iff_exists.mp hplan.2
  obtain ⟨c, rfl, hc⟩ := hd p hp
  have hhash : computeVarsHash S s.settings = computeVarsHash S c := by
    simpa [varsChanged, hc] using hvars
  rw [PlanCurrent, hp, assignment_eq_of_hash S hS hhash]

def Careful (s : State A) (e : Event A) : Prop :=
  match e, s.task with
  | .edit c, some .savedInit => c.assignment = s.settings.assignment
  | .edit c, some .savedReconcile => c.assignment = s.settings.assignment
  | .edit c, some (.applyReady true) => c.assignment = s.settings.assignment
  | .recordHash, some .planWritten => PlanCurrent s
  | .abort, some .planWritten => Dated S s
  | .abort, some (.applyReady false) => Dated S s
  | .abort, some .retryReady => Dated S s
  | .runApply .failed, some (.applyReady false) => Dated S s
  | .runApply .failed, some .retryReady => Dated S s
  | .runApply .failedStale, some .retryReady => Dated S s
  | _, _ => True

def FreshInv (s : State A) : Prop :=
  match s.task with
  | some .planWritten | some (.applyReady false) | some .retryReady => True
  | some .savedInit | some .savedReconcile | some (.applyReady true) =>
    Dated S s ∧ PlanCurrent s
  | _ => Dated S s

private theorem Dated.congr {s t : State A} (h : Dated S s)
    (hplan : t.files.planOut = s.files.planOut) (hhash : t.varsHash = s.varsHash) :
    Dated S t := by
  intro p hp
  rw [hplan] at hp
  rw [hhash]
  exact h p hp

private theorem dated_of_none {s : State A} (h : s.files.planOut = none) : Dated S s := by
  intro p hp
  rw [h] at hp
  cases hp

private theorem freshInv_edit {s : State A} {c : Settings A} (hinv : FreshInv S s)
    (hok : Careful S s (.edit c)) : FreshInv S { s with settings := c } := by
  unfold FreshInv at hinv ⊢
  unfold Careful at hok
  cases ht : s.task with
  | none =>
    simp only [ht] at hinv ⊢
    exact hinv
  | some pos =>
    cases pos with
    | savedInit | savedReconcile =>
      simp only [ht] at hinv hok ⊢
      refine ⟨hinv.1, ?_⟩
      rw [PlanCurrent, hok]
      exact hinv.2
    | applyReady saved =>
      cases saved with
      | false => simp
      | true =>
        simp only [ht] at hinv hok ⊢
        refine ⟨hinv.1, ?_⟩
        rw [PlanCurrent, hok]
        exact hinv.2
    | planWritten | retryReady => simp
    | _ =>
      simp only [ht] at hinv ⊢
      exact hinv

private theorem FreshInv.congr {s t : State A} (h : FreshInv S s)
    (hplan : t.files.planOut = s.files.planOut) (hhash : t.varsHash = s.varsHash)
    (hset : t.settings = s.settings) (htask : t.task = s.task) : FreshInv S t := by
  unfold FreshInv Dated PlanCurrent at h ⊢
  rw [htask, hplan, hhash, hset]
  exact h

private theorem freshInv_ensureInit {s : State A} {result : Option InitFiles} {next : Position}
    (hdated : Dated S s) (hnext : FreshInv S { s with task := some next }) :
    FreshInv S (ensureInit S s result next) := by
  obtain ⟨hplan, hhash, hset, htask⟩ := ensureInit_spec S s result next
  rcases htask with htask | htask
  · exact hnext.congr S hplan hhash hset htask
  · rw [FreshInv, htask]
    exact hdated.congr S hplan hhash

private theorem freshInv_abort {s : State A} (hinv : FreshInv S s)
    (hok : Careful S s .abort) : FreshInv S { s with task := none } := by
  unfold FreshInv at hinv
  unfold Careful at hok
  change Dated S s
  cases ht : s.task with
  | none =>
    simp only [ht] at hinv
    exact hinv
  | some pos =>
    cases pos with
    | savedInit | savedReconcile =>
      simp only [ht] at hinv
      exact hinv.1
    | planWritten | retryReady =>
      simp only [ht] at hok
      exact hok
    | applyReady saved =>
      cases saved with
      | true =>
        simp only [ht] at hinv
        exact hinv.1
      | false =>
        simp only [ht] at hok
        exact hok
    | _ =>
      simp only [ht] at hinv
      exact hinv

private theorem freshInv_choosePlan (hS : S.Faithful) {s : State A} {force : Bool}
    (hd : Dated S s) : FreshInv S (choosePlan S s force) := by
  unfold choosePlan
  split
  · next hchoose =>
    simp only [Bool.and_eq_true, Option.isNone_iff_eq_none] at hchoose
    exact ⟨hd, planCurrent_of_valid S hS hd hchoose.1.2⟩
  · change Dated S _
    split
    · exact dated_of_none S rfl
    · exact hd

private theorem freshInv_runApply {s : State A} {outcome : ApplyOutcome} {saved : Bool}
    (ht : s.task = some (.applyReady saved)) (hinv : FreshInv S s)
    (hok : Careful S s (.runApply outcome)) : FreshInv S (runApply s outcome true) := by
  cases outcome with
  | succeeded => exact dated_of_none S rfl
  | failedStale => exact dated_of_none S rfl
  | failed =>
    cases saved with
    | true =>
      rw [FreshInv, ht] at hinv
      exact hinv.1
    | false =>
      simp only [Careful, ht] at hok
      exact hok

theorem freshInv_step (hS : S.Faithful) {s t : State A} {e : Event A} (hinv : FreshInv S s)
    (hok : Careful S s e) (h : step S s e = some t) : FreshInv S t := by
  unfold step at h
  split at h
  · next c => -- an edit
    cases h
    exact freshInv_edit S hinv hok
  · next pos ht => -- the task aborts
    cases h
    exact freshInv_abort S hinv hok
  · next ht => -- `run_opentofu_plan` prepares
    cases h
    rw [FreshInv, ht] at hinv
    exact hinv.congr S (planOut_preparePersistentWorkspace _ _) rfl
  · next r ht =>
    cases h
    rw [FreshInv, ht] at hinv
    exact freshInv_ensureInit S hinv hinv
  · next ok ht =>
    cases h
    rw [FreshInv, ht] at hinv
    cases ok with
    | true => trivial
    | false => exact hinv
  · next ht => -- the hash is recorded
    cases h
    simp only [Careful, ht] at hok
    intro p hp
    refine ⟨s.settings, ?_, rfl⟩
    exact Option.some.inj (hok.symm.trans hp)
  · next force ht => -- `run_opentofu_apply` prepares
    cases h
    rw [FreshInv, ht] at hinv
    exact hinv.congr S (planOut_preparePersistentWorkspace _ _) rfl
  · next force ht =>
    cases h
    rw [FreshInv, ht] at hinv
    exact freshInv_choosePlan S hS hinv
  · next r ht =>
    cases h
    rw [FreshInv, ht] at hinv
    exact freshInv_ensureInit S hinv.1 hinv
  · next imports ht =>
    cases h
    rw [FreshInv, ht] at hinv
    split
    · exact hinv
    · exact dated_of_none S rfl
  · next r ht =>
    cases h
    rw [FreshInv, ht] at hinv
    exact freshInv_ensureInit S hinv hinv
  · next imports ht =>
    cases h
    rw [FreshInv, ht] at hinv
    split
    · exact hinv
    · exact dated_of_none S rfl
  · next ok ht =>
    cases h
    rw [FreshInv, ht] at hinv
    cases ok with
    | true => trivial
    | false => exact hinv
  · next outcome saved ht =>
    cases h
    exact freshInv_runApply S ht hinv hok
  · next r ht =>
    cases h
    rw [FreshInv, ht] at hinv
    exact freshInv_ensureInit S hinv hinv
  · next ok ht =>
    cases h
    rw [FreshInv, ht] at hinv
    cases ok with
    | true => trivial
    | false => exact hinv
  · next outcome ht => -- the retry's apply
    cases h
    cases outcome with
    | succeeded => exact dated_of_none S rfl
    | failed | failedStale =>
      simp only [Careful, ht] at hok
      exact hok
  · cases h

/-- Whenever a careful run reaches the apply of a saved plan, that plan was computed from
the assignment `build_variables` assembles at that moment. -/
theorem savedPlan_fresh (hS : S.Faithful) (c : Settings A) (es : List (Event A)) (t : State A)
    (hrun : Run (step S) (Careful S) (initial c) es t)
    (ht : t.task = some (.applyReady true)) : PlanCurrent t := by
  have hinit : FreshInv S (initial c) := dated_of_none S rfl
  have hinv : FreshInv S t :=
    hrun.invariant hinit fun a e b ha hok hab ↦ freshInv_step S hS ha hok hab
  rw [FreshInv, ht] at hinv
  exact hinv.2

/-! ### Concrete runs -/

/-- A module with one boolean variable. -/
def haSerializer : Serializer Bool where
  sha256 := fun text ↦ text
  dumps := fun ha ↦ if ha then "\x7b\"ha\": true\x7d" else "\x7b\"ha\": false\x7d"
  dumpSecrets := fun secrets ↦ toString (repr secrets)

/-- A built-in module in version 1.0 with the given value of its variable. -/
def haSettings (ha : Bool) : Settings Bool where
  assignment := ha
  secrets := []
  backend := "local"
  version := "1.0"
  sourceKind := "builtin"
  sourceFiles := ["main.tf"]
  generatedFiles := ["backend_override.tf"]
  sourceLockFile := false

theorem haSerializer_faithful : haSerializer.Faithful where
  sha256_injective := fun _ _ h ↦ h
  dumps_delimited := by
    intro a b x y h
    have hl := congrArg String.toList h
    cases a with
    | false =>
      cases b with
      | false => rfl
      | true => simp [haSerializer] at hl
    | true =>
      cases b with
      | false => simp [haSerializer] at hl
      | true => rfl

def planThenApply : List (Event Bool) :=
  [.planStart, .ensureInit (some ⟨true, true⟩), .runPlan true, .recordHash,
    .applyStart false, .check, .ensureInit none, .reconcile 0]

def failedApplyThenEdit : List (Event Bool) :=
  [.applyStart false, .check, .ensureInit (some ⟨true, true⟩), .reconcile 0, .runPlan true,
    .runApply .failed, .edit (haSettings false),
    .applyStart false, .check, .ensureInit none, .reconcile 0]

/-- A plan task followed by an apply with no edit in between. -/
theorem savedPlan_fresh_planThenApply :
    ∃ t, exec (step haSerializer) (initial (haSettings true)) planThenApply = some t ∧
      t.task = some (.applyReady true) ∧ PlanCurrent t := by
  refine ⟨_, rfl, rfl, ?_⟩
  apply savedPlan_fresh haSerializer haSerializer_faithful (haSettings true) planThenApply
  · exact .cons trivial rfl (.cons trivial rfl (.cons trivial rfl (.cons rfl rfl
      (.cons trivial rfl (.cons trivial rfl (.cons trivial rfl (.cons trivial rfl
        (.nil _))))))))
  · rfl

/-- A failed apply leaves an undated plan, and after an edit the next apply takes it up. -/
theorem savedPlan_stale :
    ¬ ∀ (S : Serializer Bool), S.Faithful → ∀ (c : Settings Bool) (es : List (Event Bool))
      (t : State Bool), exec (step S) (initial c) es = some t →
        t.task = some (.applyReady true) → PlanCurrent t := by
  intro h
  have hcur := h haSerializer haSerializer_faithful (haSettings true) failedApplyThenEdit _
    rfl rfl
  have hplan : some true = some false := hcur
  cases hplan

end BnkForge.Workspace
