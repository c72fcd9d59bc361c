import BnkForge.Lib.Transition
import BnkForge.Lock.EntityLock

/-!
# Fencing safety of the entity lock

Any number of workers share one row. A worker carries only locks that an acquisition
handed out, and each SQL statement of `backend/services/entity_lock.py` is one step.
The clock readings carried by the steps are arbitrary, monotone ones included.
-/

namespace BnkForge.Lock

open Transition

variable {V : Type}

/-- The row together with every lock handed out on it, oldest acquisition first. -/
structure FenceState (V : Type) where
  row : Row V
  acquired : List EntityLock

/-- One SQL statement of some worker, with the lock it carries and its clock reading. -/
inductive FenceEvent (V : Type)
  | acquire (reclaim taskId : Nat) (now : Int)
  | refresh (l : EntityLock) (now : Int)
  | release (l : EntityLock)
  | forceRelease
  | sweep (now : Int)
  | write (l : EntityLock) (fields : List (String × V))

/-- The effect of one statement; a worker can only present a lock it was handed. -/
def fenceStep (table : LockTable) (s : FenceState V) : FenceEvent V → Option (FenceState V)
  | .acquire reclaim taskId now =>
    match tryAcquire table reclaim s.row.id taskId now s.row with
    | (row, some l) => some ⟨row, s.acquired ++ [l]⟩
    | (row, none) => some { s with row := row }
  | .refresh l now =>
    if l ∈ s.acquired then some { s with row := (refresh l now s.row).1 } else none
  | .release l => if l ∈ s.acquired then some { s with row := release l s.row } else none
  | .forceRelease => some { s with row := (forceRelease s.row).1 }
  | .sweep now => some { s with row := sweepStale now s.row }
  | .write l fields =>
    if l ∈ s.acquired then
      some { s with row := (setLockedEntityFields table l fields s.row).1 }
    else none

/-- An acquisition with a larger token has been committed on the row. -/
def Superseded (s : FenceState V) (l : EntityLock) : Prop :=
  ∃ l' ∈ s.acquired, l.fenceToken < l'.fenceToken

def Row.Idle (r : Row V) : Prop := r.holdingTaskId = none ∧ r.heartbeatAt = none

/-- What every interleaving keeps: the tokens handed out increase up to the row's own
token, and the holder and the heartbeat are set together. -/
structure FenceInv (s : FenceState V) : Prop where
  increasing : (s.acquired.map EntityLock.fenceToken).Pairwise (· < ·)
  bounded : ∀ l ∈ s.acquired, l.fenceToken ≤ s.row.lockFenceToken
  newest : s.acquired ≠ [] → ∃ l ∈ s.acquired, l.fenceToken = s.row.lockFenceToken
  nulls : s.row.holdingTaskId = none ↔ s.row.heartbeatAt = none

theorem fenceInv_init {r : Row V} (h : r.Idle) : FenceInv ⟨r, []⟩ :=
  ⟨List.Pairwise.nil, by simp, by simp, by simp [h.1, h.2]⟩

private theorem FenceInv.of_row {s : FenceState V} (h : FenceInv s) {row : Row V}
    (ht : row.lockFenceToken = s.row.lockFenceToken)
    (hn : row.holdingTaskId = none ↔ row.heartbeatAt = none) :
    FenceInv { s with row := row } :=
  ⟨h.increasing, by simpa [ht] using h.bounded, by simpa [ht] using h.newest, hn⟩

private theorem nulls_clear (r : Row V) :
    r.clear.holdingTaskId = none ↔ r.clear.heartbeatAt = none := by
  simp [Row.clear]

private theorem FenceInv.acquire {s : FenceState V} (h : FenceInv s) {row : Row V}
    {l : EntityLock} (hl : l.fenceToken = s.row.lockFenceToken + 1)
    (ht : row.lockFenceToken = s.row.lockFenceToken + 1)
    (hn : row.holdingTaskId = none ↔ row.heartbeatAt = none) :
    FenceInv ⟨row, s.acquired ++ [l]⟩ := by
  refine ⟨?_, ?_, ?_, hn⟩
  · rw [List.map_append, List.pairwise_append]
    refine ⟨h.increasing, by simp, ?_⟩
    intro a ha b hb
    obtain ⟨la, hla, rfl⟩ := List.mem_map.mp ha
    obtain rfl : b = l.fenceToken := by simpa using hb
    have := h.bounded la hla
    omega
  · intro a ha
    rcases List.mem_append.mp ha with ha | ha
    · have := h.bounded a ha
      dsimp only
      omega
    · obtain rfl : a = l := by simpa using ha
      dsimp only
      omega
  · intro _
    exact ⟨l, by simp, by dsimp only; omega⟩

theorem fenceInv_step {table : LockTable} {s t : FenceState V} {e : FenceEvent V}
    (h : FenceInv s) (hst : fenceStep table s e = some t) : FenceInv t := by
  cases e with
  | acquire reclaim taskId now =>
    simp only [fenceStep] at hst
    split at hst
    · next row l heq =>
      obtain ⟨-, hl, hrow⟩ := tryAcquire_eq_some heq
      cases Option.some.inj hst
      exact h.acquire (by rw [hl]) (by rw [hrow]) (by simp [hrow])
    · next row heq =>
      cases Option.some.inj hst
      rw [tryAcquire_eq_none heq]
      exact h
  | refresh l now =>
    simp only [fenceStep, Option.ite_none_right_eq_some] at hst
    cases Option.some.inj hst.2
    apply h.of_row (lockFenceToken_refresh l now s.row)
    unfold refresh
    split
    · next hb =>
      have hb : s.row.holdingTaskId = some l.taskId := by
        simp only [Row.heldBy, Bool.and_eq_true, beq_iff_eq] at hb
        exact hb.1.2
      simp [hb]
    · exact h.nulls
  | release l =>
    simp only [fenceStep, Option.ite_none_right_eq_some] at hst
    cases Option.some.inj hst.2
    apply h.of_row (lockFenceToken_release l s.row)
    unfold release
    split
    · exact nulls_clear s.row
    · exact h.nulls
  | forceRelease =>
    cases Option.some.inj hst
    apply h.of_row (lockFenceToken_forceRelease s.row)
    unfold forceRelease
    split
    · exact nulls_clear s.row
    · exact h.nulls
  | sweep now =>
    cases Option.some.inj hst
    apply h.of_row (lockFenceToken_sweepStale now s.row)
    unfold sweepStale
    split
    · exact nulls_clear s.row
    · exact h.nulls
  | write l fields =>
    simp only [fenceStep, Option.ite_none_right_eq_some] at hst
    cases Option.some.inj hst.2
    obtain ⟨cols, hrow⟩ := setLockedEntityFields_row table l fields s.row
    rw [hrow]
    exact h.of_row rfl h.nulls

theorem fenceInv_run {table : LockTable} {r : Row V} (hr : r.Idle) {es : List (FenceEvent V)}
    {s : FenceState V} (hrun : Run (fenceStep table) Free ⟨r, []⟩ es s) : FenceInv s :=
  hrun.invariant (fenceInv_init hr) fun _ _ _ h _ hst ↦ fenceInv_step h hst

theorem superseded_iff {s : FenceState V} (h : FenceInv s) {l : EntityLock}
    (hl : l ∈ s.acquired) : Superseded s l ↔ s.row.lockFenceToken ≠ l.fenceToken := by
  have hle := h.bounded l hl
  constructor
  · rintro ⟨l', hl', hlt⟩
    have := h.bounded l' hl'
    omega
  · intro hne
    obtain ⟨l', hl', heq⟩ := h.newest (List.ne_nil_of_mem hl)
    exact ⟨l', hl', by omega⟩

private theorem not_heldBy_of_superseded {s : FenceState V} (h : FenceInv s) {l : EntityLock}
    (hl : l ∈ s.acquired) (hsup : Superseded s l) : s.row.heldBy l = false := by
  have := (superseded_iff h hl).mp hsup
  simp [Row.heldBy, this]

theorem isHeld_eq_false_iff {s : FenceState V} (h : FenceInv s) (table : LockTable)
    (reclaim taskId : Nat) (now : Int) :
    isHeld reclaim now (some s.row) = false ↔
      (tryAcquire table reclaim s.row.id taskId now s.row).2.isSome = true := by
  rw [tryAcquire_isSome_iff]
  have hnulls := h.nulls
  cases hh : s.row.holdingTaskId with
  | none => simp [isHeld, hh]
  | some holder =>
    cases hb : s.row.heartbeatAt with
    | none => simp [hh, hb] at hnulls
    | some heartbeat => simp [isHeld, Row.stale, hh, hb]

/-- Fencing safety: in every state reached by any interleaving of acquisitions, refreshes,
releases, forced releases, sweeps and fenced writes on one row, the tokens handed out
increase in acquisition order; a fenced write of allowed columns is applied exactly when
its lock is not superseded and otherwise raises `EntityLockLostError` and changes nothing;
superseded refreshes and releases change nothing; holder and heartbeat are `NULL`
together; and the lock is not held exactly when an acquisition would succeed. -/
theorem entityLock_fencing_safety (table : LockTable) {r : Row V} (hr : r.Idle)
    {es : List (FenceEvent V)} {s : FenceState V}
    (hrun : Run (fenceStep table) Free ⟨r, []⟩ es s) :
    (s.acquired.map EntityLock.fenceToken).Pairwise (· < ·) ∧
    (∀ l ∈ s.acquired, ∀ fields : List (String × V), fields ≠ [] →
      (∀ f ∈ fields, f.1 ∈ table.allowedFields) →
      (¬ Superseded s l → setLockedEntityFields table l fields s.row =
        ({ s.row with cols := setColumns fields s.row.cols }, .ok ())) ∧
      (Superseded s l → setLockedEntityFields table l fields s.row =
        (s.row, .error (.lockLost table s.row.id l.fenceToken)))) ∧
    (∀ l ∈ s.acquired, Superseded s l →
      (∀ now, refresh l now s.row = (s.row, false)) ∧ release l s.row = s.row) ∧
    (s.row.holdingTaskId = none ↔ s.row.heartbeatAt = none) ∧
    (∀ reclaim taskId now, isHeld reclaim now (some s.row) = false ↔
      (tryAcquire table reclaim s.row.id taskId now s.row).2.isSome = true) := by
  have h := fenceInv_run hr hrun
  refine ⟨h.increasing, ?_, ?_, h.nulls, fun _ _ _ ↦ isHeld_eq_false_iff h table _ _ _⟩
  · intro l hl fields hne hall
    rw [setLockedEntityFields_of_allowed l hne hall]
    constructor
    · intro hs
      rw [superseded_iff h hl, not_not] at hs
      rw [if_pos hs]
    · intro hs
      rw [if_neg ((superseded_iff h hl).mp hs)]
  · intro l hl hs
    have hb := not_heldBy_of_superseded h hl hs
    exact ⟨fun now ↦ by simp [refresh, hb], by simp [release, hb]⟩

/-- A takeover of a stale holder: the row of the second worker is the superseding one. -/
theorem entityLock_fencing_safety_takeover :
    let r : Row Nat := ⟨1, none, none, 0, none, fun _ ↦ 0⟩
    let l₁ : EntityLock := ⟨1, 7, 1, .projectModules⟩
    ∃ s, Run (fenceStep .projectModules) Free ⟨r, []⟩
        [.acquire 30 7 0, .acquire 30 8 40000000] s ∧ Superseded s l₁ ∧
      setLockedEntityFields .projectModules l₁ [("status", 5)] s.row =
        (s.row, .error (.lockLost .projectModules 1 1)) := by
  refine ⟨⟨⟨1, some 8, some 40000000, 2, some 40000000, fun _ ↦ 0⟩,
    [⟨1, 7, 1, .projectModules⟩, ⟨1, 8, 2, .projectModules⟩]⟩, ?_⟩
  have hrun : Run (fenceStep .projectModules) Free
      (⟨⟨1, none, none, 0, none, fun _ ↦ 0⟩, []⟩ : FenceState Nat)
      [.acquire 30 7 0, .acquire 30 8 40000000]
      ⟨⟨1, some 8, some 40000000, 2, some 40000000, fun _ ↦ 0⟩,
        [⟨1, 7, 1, .projectModules⟩, ⟨1, 8, 2, .projectModules⟩]⟩ :=
    Run.free_iff_exec.mpr (by
      simp [exec, fenceStep, tryAcquire, Row.stale, cutoff])
  have hsup : Superseded (⟨⟨1, some 8, some 40000000, 2, some 40000000, fun _ ↦ 0⟩,
      [⟨1, 7, 1, .projectModules⟩, ⟨1, 8, 2, .projectModules⟩]⟩ : FenceState Nat)
      ⟨1, 7, 1, .projectModules⟩ := ⟨⟨1, 8, 2, .projectModules⟩, by simp, by decide⟩
  have h := (entityLock_fencing_safety .projectModules ⟨rfl, rfl⟩ hrun).2.1
    ⟨1, 7, 1, .projectModules⟩ (by simp) [("status", 5)] (by simp)
    (by simp [LockTable.allowedFields])
  exact ⟨hrun, hsup, h.2 hsup⟩

end BnkForge.Lock
